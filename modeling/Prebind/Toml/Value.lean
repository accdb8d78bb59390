import Prebind.Decimal.Double

/-!
The tree that a TOML document stands for. A document is a list of statements; carrying them out in
order builds its tables.

Every field and every element has a mark, the place that is shown when something is wrong with it:
where its value starts or, for a table that the document only mentions on the way to another one,
where its key is first mentioned. A table with a header of its own is at this header.
-/

namespace Prebind
namespace Toml

/-- A place in a document: the number of characters from there to the end. -/
abbrev Mark := Nat

/-- How a table came to be. -/
inductive Style where
  /-- Written in braces, and complete from then on. -/
  | inline
  /-- Opened by a header. -/
  | header
  /-- Mentioned in the header of another table. -/
  | implicit
  /-- Mentioned in a dotted key. -/
  | dotted
  deriving DecidableEq, Repr

inductive Value where
  | string (s : String)
  | integer (i : Int)
  | float (x : Double)
  | boolean (b : Bool)
  | dateTime (text : String)
  | array (items : List (Mark × Value))
  | table (style : Style) (fields : List (String × Mark × Value))
  /-- The tables of an array that is written as one header for each element. -/
  | tables (items : List (Mark × List (String × Mark × Value)))

/-- The fields of a table, in the order in which they are looked at. -/
abbrev Fields := List (String × Mark × Value)

structure Key where
  name : String
  mark : Mark
  deriving DecidableEq, Repr

/-- The way through tables to a key. -/
structure Path where
  parents : List Key
  key : Key
  deriving DecidableEq, Repr

inductive Statement where
  /-- Opens a table. -/
  | table (path : Path) (mark : Mark)
  /-- Opens the next table of an array of tables. -/
  | element (path : Path) (mark : Mark)
  /-- Sets a field of the open table. -/
  | field (path : Path) (mark : Mark) (value : Value)

namespace Fields

def lookup? (fields : Fields) (name : String) : Option (Mark × Value) :=
  List.lookup name fields

theorem lookup?_eq_none_iff {fields : Fields} {name : String} :
    lookup? fields name = none ↔ name ∉ fields.map Prod.fst := by
  rw [lookup?, List.lookup_eq_none_iff]
  constructor
  · intro absent taken
    obtain ⟨field, h, rfl⟩ := List.mem_map.1 taken
    exact bne_iff_ne.1 (absent field h) rfl
  · intro absent field h
    exact bne_iff_ne.2 fun same => absent (same ▸ List.mem_map_of_mem h)

theorem mem_of_lookup? {fields : Fields} {name : String} {mark : Mark} {v : Value}
    (h : lookup? fields name = some (mark, v)) : (name, mark, v) ∈ fields := by
  obtain ⟨before, after, rfl, -⟩ := List.lookup_eq_some_iff.1 h
  exact List.mem_append_right before List.mem_cons_self

def replace (fields : Fields) (name : String) (value : Value) : Fields :=
  fields.map fun (n, mark, v) => if n = name then (n, mark, value) else (n, mark, v)

def erase (fields : Fields) (name : String) : Fields :=
  fields.filter (·.1 ≠ name)

/-- What is done to the table at the end of a way, given its style and its fields. -/
abbrev Edit := Style → Fields → Option Fields

/-- Follows keys into tables and edits the last one; tables that are missing are made in the style
`made`. The way leads through the latest element of an array of tables, but not into a value. A
dotted key must not lead into a table that has a header. -/
def edit (made : Style) (change : Edit) : List Key → Edit
  | [], style, fields => change style fields
  | key :: rest, _, fields =>
    match lookup? fields key.name with
    | none => do
      let inner ← edit made change rest made []
      return fields ++ [(key.name, key.mark, .table made inner)]
    | some (_, .table style inner) => do
      if style = .inline ∨ (made = .dotted ∧ style = .header) then none
      let inner ← edit made change rest style inner
      return replace fields key.name (.table style inner)
    | some (_, .tables items) => do
      let (mark, inner) ← items.getLast?
      let inner ← edit made change rest .header inner
      return replace fields key.name (.tables (items.dropLast ++ [(mark, inner)]))
    | some _ => none

/-- Sets a field. A dotted key may only add to a table that dotted keys made, and such a table is
closed to other keys. -/
def set (path : Path) (mark : Mark) (value : Value) : Edit :=
  edit .dotted (fun style fields =>
    if decide (style = .dotted) = path.parents.isEmpty then none
    else if (lookup? fields path.key.name).isSome then none
    else some (fields ++ [(path.key.name, mark, value)])) path.parents

/-- Opens a table. One that was only mentioned in headers keeps its fields, but moves to the end. -/
def openTable (key : Key) (mark : Mark) : Edit := fun _ fields =>
  match lookup? fields key.name with
  | none => some (fields ++ [(key.name, mark, .table .header [])])
  | some (_, .table .implicit inner) =>
    some (erase fields key.name ++ [(key.name, mark, .table .header inner)])
  | some _ => none

/-- Opens the next element of an array of tables. -/
def openElement (key : Key) (mark : Mark) : Edit := fun _ fields =>
  match lookup? fields key.name with
  | none => some (fields ++ [(key.name, mark, .tables [(mark, [])])])
  | some (_, .tables items) => some (replace fields key.name (.tables (items ++ [(mark, [])])))
  | some _ => none

/-- Carries out statements. `opened` is the way to the open table. -/
def carryOut (opened : List Key) (fields : Fields) : List Statement → Option Fields
  | [] => some fields
  | .table path mark :: rest => do
    let fields ← edit .implicit (openTable path.key mark) path.parents .header fields
    carryOut (path.parents ++ [path.key]) fields rest
  | .element path mark :: rest => do
    let fields ← edit .implicit (openElement path.key mark) path.parents .header fields
    carryOut (path.parents ++ [path.key]) fields rest
  | .field path mark value :: rest => do
    let fields ← edit .implicit (set path mark value) opened .header fields
    carryOut opened fields rest

/-- The tables of a whole document. -/
def ofStatements (statements : List Statement) : Option Fields :=
  carryOut [] [] statements

/-- The fields of a table in braces, set one after the other. -/
def ofPairs (pairs : List (Path × Mark × Value)) : Option Fields :=
  pairs.foldlM (fun fields (path, mark, value) => set path mark value .inline fields) []

end Fields
end Toml
end Prebind
