import Prebind.Address
import Prebind.Decimal.Shortest
import Prebind.Manifest.Basic
import Prebind.Text.Quoted
import Prebind.Toml.Document

/-!
Reading a manifest from the tables of a TOML document. Its entries are the elements of the array
`trampoline`: tables with the fields name, target, value and position, or arrays of these four in
this order. Other fields, and what follows the four, are ignored.

The first mismatch in the order of the document is reported; a field that is missing counts only
when the others have been read.
-/

namespace Prebind
namespace Manifest

/-- What a value was expected to be. -/
inductive Expected where
  | entries | entry | name | position
  deriving DecidableEq, Repr

def Expected.text : Expected → String
  | .entries => "a sequence"
  | .entry => "struct StubSpec"
  | .name => "a string"
  | .position => "usize"

inductive Field where
  | name | target | value | position
  deriving DecidableEq, Repr

def Field.key : Field → String
  | .name => "name"
  | .target => "target"
  | .value => "value"
  | .position => "position"

def Field.ofKey? : String → Option Field
  | "name" => some .name
  | "target" => some .target
  | "value" => some .value
  | "position" => some .position
  | _ => none

/-- How a document does not fit a manifest. -/
inductive Mismatch where
  | wrongType (got : Toml.Value) (expected : Expected)
  | negative (position : Int)
  /-- Neither a text nor a number that is not negative. -/
  | noAddress
  | badAddress (cause : AddressError)
  | missing (field : Field)
  /-- An entry in array form has too few elements. -/
  | tooShort (length : Nat)

/-- A value as it is named when it has the wrong type. -/
def described : Toml.Value → String
  | .string s => "string " ++ Text.quoted s
  | .integer i => s!"integer `{i}`"
  | .float x => "floating point `" ++ x.text ++ "`"
  | .boolean b => s!"boolean `{b}`"
  | .dateTime _ | .table .. => "map"
  | .array _ | .tables _ => "sequence"

def Mismatch.message : Mismatch → String
  | .wrongType got expected => "invalid type: " ++ described got ++ ", expected " ++ expected.text
  | .negative position =>
    s!"invalid value: integer `{position}`, expected " ++ Expected.position.text
  | .noAddress => "data did not match any variant of untagged enum AddressRepr"
  | .badAddress cause => cause.message
  | .missing field => s!"missing field `" ++ field.key ++ "`"
  | .tooShort length =>
    s!"invalid length {length}, expected " ++ Expected.entry.text ++ " with 4 elements"

/-- A mismatch and its place. -/
structure Located where
  mark : Toml.Mark
  cause : Mismatch

abbrev Read := Except Located

def readName (mark : Toml.Mark) : Toml.Value → Read String
  | .string s => .ok s
  | got => .error ⟨mark, .wrongType got .name⟩

def readPosition (mark : Toml.Mark) : Toml.Value → Read UInt64
  | .integer (.ofNat n) => .ok (.ofNat n)
  | .integer i => .error ⟨mark, .negative i⟩
  | got => .error ⟨mark, .wrongType got .position⟩

def readAddress (mark : Toml.Mark) : Toml.Value → Read UInt64
  | .integer (.ofNat n) => .ok (.ofNat n)
  | .string s => (Address.parse s).mapError fun e => ⟨mark, .badAddress e⟩
  | _ => .error ⟨mark, .noAddress⟩

/-- The fields of an entry that have been read. -/
structure Draft where
  name : Option String := none
  target : Option UInt64 := none
  value : Option UInt64 := none
  position : Option UInt64 := none

def Draft.read (d : Draft) (key : String) (mark : Toml.Mark) (v : Toml.Value) : Read Draft :=
  match Field.ofKey? key with
  | some .name => do return { d with name := ← readName mark v }
  | some .target => do return { d with target := ← readAddress mark v }
  | some .value => do return { d with value := ← readAddress mark v }
  | some .position => do return { d with position := ← readPosition mark v }
  | none => .ok d

def require {α : Type} (mark : Toml.Mark) (field : Field) : Option α → Read α
  | some x => .ok x
  | none => .error ⟨mark, .missing field⟩

def Draft.finish (mark : Toml.Mark) (d : Draft) : Read Entry := do
  let name ← require mark .name d.name
  let target ← require mark .target d.target
  let value ← require mark .value d.value
  let position ← require mark .position d.position
  return { name, target, value, position }

/-- An entry in table form. -/
def readTable (mark : Toml.Mark) (fields : Toml.Fields) : Read Entry := do
  let d ← fields.foldlM (fun (d : Draft) (key, mark, v) => d.read key mark v) {}
  d.finish mark

/-- An entry in array form. A bad address is reported at the entry. -/
def readArray (mark : Toml.Mark) (items : List (Toml.Mark × Toml.Value)) : Read Entry := do
  let short : Located := ⟨mark, .tooShort items.length⟩
  let some (at0, v0) := items[0]? | throw short
  let name ← readName at0 v0
  let some (_, v1) := items[1]? | throw short
  let target ← readAddress mark v1
  let some (_, v2) := items[2]? | throw short
  let value ← readAddress mark v2
  let some (at3, v3) := items[3]? | throw short
  let position ← readPosition at3 v3
  return { name, target, value, position }

def readEntry : Toml.Mark × Toml.Value → Read Entry
  | (mark, .table _ fields) => readTable mark fields
  | (mark, .array items) => readArray mark items
  | (mark, .dateTime _) => readTable mark []
  | (mark, got) => .error ⟨mark, .wrongType got .entry⟩

def readEntries (mark : Toml.Mark) : Toml.Value → Read (List Entry)
  | .array items => items.mapM readEntry
  | .tables items => items.mapM fun (mark, fields) => readTable mark fields
  | got => .error ⟨mark, .wrongType got .entries⟩

/-- The manifest that a document's tables hold. Without the array it is empty. -/
def ofFields (fields : Toml.Fields) : Read Manifest :=
  match Toml.Fields.lookup? fields "trampoline" with
  | none => .ok ⟨[]⟩
  | some (mark, v) => (readEntries mark v).map (⟨·⟩)

inductive ParseError where
  /-- The text is no document. -/
  | noDocument
  | mismatch (line : Nat) (cause : Mismatch)
  | flaw (cause : Flaw)

/-- Reads a document and validates the manifest that it holds. -/
def parse (text : String) : Except ParseError Manifest :=
  match Toml.parse? text with
  | none => .error .noDocument
  | some fields =>
    match ofFields fields with
    | .error e => .error (.mismatch (Toml.lineOf text e.mark) e.cause)
    | .ok m =>
      match m.validate with
      | .error flaw => .error (.flaw flaw)
      | .ok () => .ok m

theorem parse_eq_ok_iff {text : String} {m : Manifest} :
    parse text = .ok m ↔
      ∃ fields, Toml.parse? text = some fields ∧ ofFields fields = .ok m ∧ m.validate = .ok () := by
  constructor
  · intro parsed
    unfold parse at parsed
    split at parsed
    · cases parsed
    · next fields read =>
      split at parsed
      · cases parsed
      · next held =>
        split at parsed
        · cases parsed
        · next valid =>
          cases parsed
          exact ⟨fields, read, held, valid⟩
  · rintro ⟨fields, read, held, valid⟩
    simp only [parse, read, held, valid]

/-- What is said of a document that does not hold a manifest. Only flaws have words of their own;
all else is left to the library that reads documents. -/
def ParseError.message (explain : String → String) (document : String) : ParseError → String
  | .noDocument | .mismatch .. => explain document
  | .flaw cause => cause.message

end Manifest
end Prebind
