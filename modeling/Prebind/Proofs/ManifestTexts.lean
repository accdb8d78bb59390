import Prebind.Proofs.ManifestLines

/-!
The text of a manifest is read back as that manifest. Its lines are read as statements, which spell
one entry after the other; carried out, these build an array of tables; and each table holds the
fields of its entry.
-/

namespace Prebind
namespace Manifest

open Toml (Fields Mark Reads Statement)

/-- A statement sets a field with a bare key. -/
def Sets (field : String × Mark × Toml.Value) (s : Statement) : Prop :=
  ∃ keyMark, s = .field ⟨[], ⟨field.1, keyMark⟩⟩ field.2.1 field.2.2

/-- Fields that hold an entry, wherever they stand. -/
inductive Holds (e : Entry) : Fields → Prop
  | mk (nameMark targetMark valueMark positionMark : Mark) : Holds e
      [("name", nameMark, .string e.name),
       ("target", targetMark, .string (Address.render e.target)),
       ("value", valueMark, .string (Address.render e.value)),
       ("position", positionMark, .integer e.position.toNat)]

/-- Statements that open a table for each entry and set the fields that hold it. -/
inductive Spells : List Entry → List (Mark × Fields) → List Statement → Prop
  | nil : Spells [] [] []
  | cons {e : Entry} {fields : Fields} {group : List Statement} {es : List Entry}
      {items : List (Mark × Fields)} {ss : List Statement} (keyMark mark : Mark)
      (held : Holds e fields) (set : List.Forall₂ Sets fields group) (rest : Spells es items ss) :
      Spells (e :: es) ((mark, fields) :: items)
        (.element ⟨[], ⟨"trampoline", keyMark⟩⟩ mark :: group ++ ss)

/-! Reading statements -/

theorem lines_append (e : Entry) (rest : List Char) :
    e.lines ++ rest = "[[trampoline]]\n".toList ++
      (Field.name.key.toList ++ ' ' :: '=' :: ' ' :: (Toml.Written.quote e.name.toList ++ '\n' ::
      (Field.target.key.toList ++ ' ' :: '=' :: ' ' ::
        (Toml.Written.quote (Address.render e.target).toList ++ '\n' ::
      (Field.value.key.toList ++ ' ' :: '=' :: ' ' ::
        (Toml.Written.quote (Address.render e.value).toList ++ '\n' ::
      (Field.position.key.toList ++ ' ' :: '=' :: ' ' ::
        (Nat.toDigits 10 e.position.toNat ++ '\n' :: rest)))))))) := by
  have first : "[[trampoline]]\nname = ".toList =
      "[[trampoline]]\n".toList ++ (Field.name.key.toList ++ [' ', '=', ' ']) := by decide
  have second : "\ntarget = ".toList = '\n' :: (Field.target.key.toList ++ [' ', '=', ' ']) := by
    decide
  have third : "\nvalue = ".toList = '\n' :: (Field.value.key.toList ++ [' ', '=', ' ']) := by
    decide
  have fourth : "\nposition = ".toList =
      '\n' :: (Field.position.key.toList ++ [' ', '=', ' ']) := by decide
  have joined (a b c d x y z w : List Char) :
      a ++ x ++ b ++ y ++ c ++ z ++ d ++ w ++ ['\n'] ++ rest =
        a ++ (x ++ (b ++ (y ++ (c ++ (z ++ (d ++ (w ++ '\n' :: rest))))))) := by
    simp only [List.append_assoc, List.cons_append, List.nil_append]
  refine (joined _ _ _ _ _ _ _ _).trans ?_
  rw [first, second, third, fourth]
  simp only [List.append_assoc, List.cons_append, List.nil_append]

theorem reads_entry {e : Entry} {position : Position} (bound : e.position.toNat = position.index)
    {rest : List Char} {ss : List Statement} (h : Reads rest ss) :
    ∃ keyMark mark fields group, Holds e fields ∧ List.Forall₂ Sets fields group ∧
      Reads (e.lines ++ rest) (.element ⟨[], ⟨"trampoline", keyMark⟩⟩ mark :: group ++ ss) := by
  have digit (t : List Char) : Toml.skipSpace (Nat.toDigits 10 position.index ++ '\n' :: t) =
      Nat.toDigits 10 position.index ++ '\n' :: t := by
    cases position <;> rfl
  -- From the last line to the first, each in front of what has been read.
  obtain ⟨k₄, m₄, h⟩ := h.field .position (digit rest) (Toml.value_index _ position rest)
  obtain ⟨k₃, m₃, h⟩ := h.field .value (Toml.skipSpace_quote _ _)
    (Toml.value_quote _ (Address.render e.value).toList _)
  obtain ⟨k₂, m₂, h⟩ := h.field .target (Toml.skipSpace_quote _ _)
    (Toml.value_quote _ (Address.render e.target).toList _)
  obtain ⟨k₁, m₁, h⟩ := h.field .name (Toml.skipSpace_quote _ _)
    (Toml.value_quote _ e.name.toList _)
  obtain ⟨keyMark, mark, h⟩ := h.header
  rw [← bound, ← lines_append] at h
  simp only [String.ofList_toList] at h
  refine ⟨keyMark, mark, _, [_, _, _, _], .mk m₁ m₂ m₃ m₄, ?_, h⟩
  exact .cons ⟨k₁, rfl⟩ (.cons ⟨k₂, rfl⟩ (.cons ⟨k₃, rfl⟩ (.cons ⟨k₄, rfl⟩ .nil)))

/-- The statements of a text that is made of the lines of entries, with an empty line in between. -/
theorem reads_entries {es : List Entry}
    (bound : ∀ e ∈ es, ∃ position : Position, e.position.toNat = position.index) :
    ∃ items ss, Spells es items ss ∧ Reads (List.intercalate ['\n'] (es.map Entry.lines)) ss := by
  induction es with
  | nil => exact ⟨[], [], .nil, Toml.reads_nil⟩
  | cons e es ih =>
      obtain ⟨position, here⟩ := bound e List.mem_cons_self
      obtain ⟨items, ss, spelt, read⟩ := ih fun e h => bound e (List.mem_cons_of_mem _ h)
      have behind : ∃ rest, List.intercalate ['\n'] ((e :: es).map Entry.lines) =
          e.lines ++ rest ∧ Reads rest ss := by
        cases es with
        | nil =>
            cases spelt
            exact ⟨[], by rw [List.map_singleton, List.intercalate_singleton, List.append_nil],
              Toml.reads_nil⟩
        | cons e' es =>
            refine ⟨_, ?_, read.newline⟩
            rw [List.map_cons, List.map_cons, List.intercalate_cons_cons, List.append_assoc]
            rfl
      obtain ⟨rest, text, later⟩ := behind
      obtain ⟨keyMark, mark, fields, group, held, set, whole⟩ := reads_entry here later
      rw [text]
      exact ⟨_, _, .cons keyMark mark held set spelt, whole⟩

/-! Carrying out statements -/

/-- The fields of a document that has nothing but the tables of entries. -/
def tables (mark : Mark) (items : List (Mark × Fields)) : Fields :=
  [("trampoline", mark, .tables items)]

/-- A change to the open table is one to the latest element. -/
theorem edit_latest {change : Fields.Edit} {inner changed : Fields}
    (h : change .header inner = some changed) (keyMark place mark : Mark)
    (items : List (Mark × Fields)) :
    Fields.edit .implicit change [⟨"trampoline", keyMark⟩] .header
        (tables place (items ++ [(mark, inner)])) =
      some (tables place (items ++ [(mark, changed)])) := by
  have found : Fields.lookup? (tables place (items ++ [(mark, inner)])) "trampoline" =
      some (place, .tables (items ++ [(mark, inner)])) := rfl
  rw [Fields.edit, found]
  simp only [List.getLast?_concat, List.dropLast_concat, Fields.edit, h, Option.bind_eq_bind,
    Option.bind_some]
  rfl

/-- A bare key that is not there yet is added to a table that has a header. -/
theorem set_of_fresh {name : String} {fields : Fields}
    (fresh : Fields.lookup? fields name = none) (keyMark mark : Mark) (v : Toml.Value) :
    Fields.set ⟨[], ⟨name, keyMark⟩⟩ mark v .header fields =
      some (fields ++ [(name, mark, v)]) := by
  simp [Fields.set, Fields.edit, fresh]

/-- Statements that set new fields add them to the latest element, in order. -/
theorem carryOut_sets {fields : Fields} {group : List Statement}
    (set : List.Forall₂ Sets fields group) (keyMark place mark : Mark)
    (items : List (Mark × Fields)) (inner : Fields)
    (distinct : ((inner ++ fields).map Prod.fst).Nodup) (rest : List Statement) :
    Fields.carryOut [⟨"trampoline", keyMark⟩] (tables place (items ++ [(mark, inner)]))
        (group ++ rest) =
      Fields.carryOut [⟨"trampoline", keyMark⟩]
        (tables place (items ++ [(mark, inner ++ fields)])) rest := by
  induction set generalizing inner with
  | nil => rw [List.append_nil, List.nil_append]
  | @cons field s fields group first others ih =>
      obtain ⟨name, at', v⟩ := field
      obtain ⟨k, rfl⟩ := first
      have fresh : Fields.lookup? inner name = none := by
        apply Fields.lookup?_eq_none_iff.2
        rw [List.map_append, List.nodup_append] at distinct
        exact fun taken => distinct.2.2 name taken name List.mem_cons_self rfl
      have step := edit_latest (set_of_fresh fresh k at' v) keyMark place mark items
      rw [List.append_cons] at distinct
      have later := ih (inner ++ [(name, at', v)]) distinct
      rw [List.append_assoc, List.cons_append, List.nil_append] at later
      rw [List.cons_append, Fields.carryOut, step]
      exact later

theorem Holds.distinct {e : Entry} {fields : Fields} (h : Holds e fields) :
    (fields.map Prod.fst).Nodup := by
  cases h
  exact (by decide : ["name", "target", "value", "position"].Nodup)

/-- Behind elements that are there already, the statements of entries add one for each. -/
theorem carryOut_of_spells {es : List Entry} {items : List (Mark × Fields)} {ss : List Statement}
    (h : Spells es items ss) (opened : List Toml.Key) (place : Mark)
    (before : List (Mark × Fields)) :
    Fields.carryOut opened (tables place before) ss = some (tables place (before ++ items)) := by
  induction h generalizing opened before with
  | nil => rw [List.append_nil, Fields.carryOut]
  | @cons e fields group es items ss keyMark mark held set rest ih =>
      have element : Fields.edit .implicit (Fields.openElement ⟨"trampoline", keyMark⟩ mark) []
          .header (tables place before) = some (tables place (before ++ [(mark, [])])) := rfl
      have filled := carryOut_sets set keyMark place mark before [] held.distinct ss
      rw [List.nil_append] at filled
      rw [List.cons_append, Fields.carryOut, element]
      have later := ih [⟨"trampoline", keyMark⟩] (before ++ [(mark, fields)])
      rw [List.append_assoc, List.cons_append, List.nil_append] at later
      exact filled.trans later

/-- The first header makes the array that the others add to. -/
theorem ofStatements_of_spells {es : List Entry} {items : List (Mark × Fields)}
    {ss : List Statement} (h : Spells es items ss) (some : es ≠ []) :
    ∃ place, Fields.ofStatements ss = .some (tables place items) := by
  cases h with
  | nil => exact absurd rfl some
  | @cons e fields group es items ss keyMark mark held set rest =>
      refine ⟨mark, ?_⟩
      have element : Fields.edit .implicit (Fields.openElement ⟨"trampoline", keyMark⟩ mark) []
          .header [] = .some (tables mark ([] ++ [(mark, [])])) := rfl
      have filled := carryOut_sets set keyMark mark mark [] [] held.distinct ss
      have later := carryOut_of_spells rest [⟨"trampoline", keyMark⟩] mark [(mark, fields)]
      rw [Fields.ofStatements, List.cons_append, Fields.carryOut, element]
      exact filled.trans later

/-! Reading the tables -/

theorem readAddress_render (mark : Mark) (address : UInt64) :
    readAddress mark (.string (Address.render address)) = .ok address := by
  rw [readAddress, Address.parse_render]
  rfl

theorem readTable_of_holds {e : Entry} {fields : Fields} (h : Holds e fields) (mark : Mark) :
    readTable mark fields = .ok e := by
  obtain ⟨nameMark, targetMark, valueMark, positionMark⟩ := h
  have name (d : Draft) : d.read "name" nameMark (.string e.name) =
      .ok { d with name := some e.name } := rfl
  have target (d : Draft) : d.read "target" targetMark (.string (Address.render e.target)) =
      .ok { d with target := some e.target } := by
    have field : Field.ofKey? "target" = some .target := rfl
    simp only [Draft.read, field, readAddress_render]
    rfl
  have value (d : Draft) : d.read "value" valueMark (.string (Address.render e.value)) =
      .ok { d with value := some e.value } := by
    have field : Field.ofKey? "value" = some .value := rfl
    simp only [Draft.read, field, readAddress_render]
    rfl
  have position (d : Draft) : d.read "position" positionMark (.integer e.position.toNat) =
      .ok { d with position := some e.position } := by
    have read : readPosition positionMark (.integer e.position.toNat) =
        .ok (.ofNat e.position.toNat) := rfl
    have field : Field.ofKey? "position" = some .position := rfl
    simp only [Draft.read, field, read, UInt64.ofNat_toNat]
    rfl
  simp only [readTable, List.foldlM_cons, List.foldlM_nil, name, target, value, position]
  rfl

theorem readEntries_of_spells {es : List Entry} {items : List (Mark × Fields)}
    {ss : List Statement} (h : Spells es items ss) (mark : Mark) :
    readEntries mark (.tables items) = .ok es := by
  rw [readEntries]
  induction h with
  | nil => rfl
  | cons keyMark mark held set rest ih =>
      rw [List.mapM_cons, ih]
      dsimp only
      rw [readTable_of_holds held]
      rfl

theorem parse?_entries {es : List Entry} (some : es ≠ []) {ss : List Statement}
    (h : Reads (List.intercalate ['\n'] (es.map Entry.lines)) ss) :
    Toml.parse? (.ofList (List.intercalate ['\n'] (es.map Entry.lines))) =
      Fields.ofStatements ss := by
  have start : ∃ s, List.intercalate ['\n'] (es.map Entry.lines) = '[' :: s := by
    cases es with
    | nil => exact absurd rfl some
    | cons e es =>
        have first := lines_append e []
        rw [List.append_nil] at first
        cases es with
        | nil => exact ⟨_, by rw [List.map_singleton, List.intercalate_singleton, first]; rfl⟩
        | cons e' es =>
            rw [List.map_cons, List.map_cons, List.intercalate_cons_cons, first]
            exact ⟨_, rfl⟩
  have unmarked : Toml.dropByteOrderMark (List.intercalate ['\n'] (es.map Entry.lines)) =
      List.intercalate ['\n'] (es.map Entry.lines) := by
    obtain ⟨s, first⟩ := start
    rw [first]
    rfl
  simp only [Toml.parse?, String.toList_ofList, unmarked, h _ (Nat.lt_succ_self _),
    Option.bind_eq_bind, Option.bind_some]

theorem parse_text {m : Manifest} (valid : m.validate = .ok ()) : parse m.text = .ok m := by
  obtain ⟨es⟩ := m
  have bound := bindable_of_flawAfter? (validate_eq_ok.1 valid)
  by_cases none : es = []
  · subst none
    rfl
  · have written : text ⟨es⟩ = .ofList (List.intercalate ['\n'] (es.map Entry.lines)) := by
      cases es with
      | nil => exact absurd rfl none
      | cons e es => rfl
    obtain ⟨items, ss, spelt, read⟩ := reads_entries bound
    obtain ⟨place, built⟩ := ofStatements_of_spells spelt none
    have found : Fields.lookup? (tables place items) "trampoline" =
        some (place, .tables items) := rfl
    have held : ofFields (tables place items) = .ok ⟨es⟩ := by
      rw [ofFields, found]
      dsimp only
      rw [readEntries_of_spells spelt]
      rfl
    rw [written]
    exact parse_eq_ok_iff.2 ⟨_, (parse?_entries none read).trans built, held, valid⟩

end Manifest
end Prebind
