import Prebind.Toml.Document

/-!
The trees that documents stand for. In a tree that has been read, integers fit in 64 bits with a
sign and no table has two fields of one name, at any level. Scanned values are such trees, and so is
what the statements build of them.
-/

namespace Prebind
namespace Toml

/-- A tree has only integers in range, and its tables have only one field of each name. -/
inductive Value.Proper : Value → Prop
  | string (s : String) : Proper (.string s)
  | integer {i : Int} (least : -0x8000000000000000 ≤ i) (greatest : i < 0x8000000000000000) :
      Proper (.integer i)
  | float (x : Double) : Proper (.float x)
  | boolean (b : Bool) : Proper (.boolean b)
  | dateTime (text : String) : Proper (.dateTime text)
  | array {items : List (Mark × Value)} (proper : ∀ item ∈ items, Proper item.2) :
      Proper (.array items)
  | table {style : Style} {fields : List (String × Mark × Value)}
      (distinct : (fields.map Prod.fst).Nodup) (proper : ∀ field ∈ fields, Proper field.2.2) :
      Proper (.table style fields)
  | tables {items : List (Mark × List (String × Mark × Value))}
      (proper : ∀ item ∈ items, Proper (.table .header item.2)) : Proper (.tables items)

namespace Fields

structure Proper (fields : Fields) : Prop where
  distinct : (fields.map Prod.fst).Nodup
  values : ∀ field ∈ fields, field.2.2.Proper

theorem proper_table_iff {style : Style} {fields : Fields} :
    (Value.table style fields).Proper ↔ fields.Proper := by
  constructor
  · intro h
    cases h with
    | table distinct values => exact ⟨distinct, values⟩
  · rintro ⟨distinct, values⟩
    exact .table distinct values

theorem proper_tables_iff {items : List (Mark × Fields)} :
    (Value.tables items).Proper ↔ ∀ item ∈ items, Proper item.2 := by
  constructor
  · intro h
    cases h with
    | tables proper => exact fun item among => proper_table_iff.1 (proper item among)
  · exact fun proper => .tables fun item among => proper_table_iff.2 (proper item among)

/-! Changes of one table -/

theorem proper_nil : Proper [] :=
  ⟨List.nodup_nil, nofun⟩

section

variable {fields : Fields} {name : String} {mark : Mark} {v : Value} (h : fields.Proper)

include h

theorem Proper.of_lookup? (found : lookup? fields name = some (mark, v)) : v.Proper :=
  h.values _ (mem_of_lookup? found)

theorem Proper.concat (absent : lookup? fields name = none) (proper : v.Proper) :
    Proper (fields ++ [(name, mark, v)]) := by
  constructor
  · rw [List.map_append, List.nodup_append]
    refine ⟨h.distinct, List.nodup_cons.2 ⟨List.not_mem_nil, List.nodup_nil⟩, ?_⟩
    intro other taken last among same
    rw [same, List.mem_singleton.1 among] at taken
    exact lookup?_eq_none_iff.1 absent taken
  · intro field among
    obtain among | last := List.mem_append.1 among
    · exact h.values field among
    · cases List.mem_singleton.1 last
      exact proper

theorem Proper.replace (proper : v.Proper) : Proper (replace fields name v) := by
  constructor
  · have names : (Fields.replace fields name v).map Prod.fst = fields.map Prod.fst := by
      rw [Fields.replace, List.map_map]
      refine List.map_congr_left fun field _ => ?_
      dsimp only [Function.comp_apply]
      split <;> rfl
    rw [names]
    exact h.distinct
  · intro field among
    obtain ⟨old, there, rfl⟩ := List.mem_map.1 among
    dsimp only
    split
    · exact proper
    · exact h.values old there

theorem Proper.erase : Proper (erase fields name) :=
  ⟨(List.filter_sublist.map Prod.fst).nodup h.distinct,
    fun field among => h.values field ((List.mem_filter.1 among).1)⟩

end

theorem lookup?_erase (fields : Fields) (name : String) :
    lookup? (erase fields name) name = none := by
  rw [lookup?_eq_none_iff]
  intro taken
  obtain ⟨field, among, rfl⟩ := List.mem_map.1 taken
  simpa using (List.mem_filter.1 among).2

/-! Edits -/

/-- An edit makes proper tables of proper tables. -/
def Keeps (change : Edit) : Prop :=
  ∀ style fields fields', Proper fields → change style fields = some fields' → Proper fields'

theorem keeps_edit {change : Edit} (keeps : Keeps change) (made : Style) (keys : List Key) :
    Keeps (edit made change keys) := by
  induction keys with
  | nil => exact keeps
  | cons key keys ih =>
      intro style fields fields' proper done
      rw [edit] at done
      split at done
      · next absent =>
        obtain ⟨inner, changed, same⟩ := Option.bind_eq_some_iff.1 done
        cases same
        exact proper.concat absent (proper_table_iff.2 (ih _ _ _ proper_nil changed))
      · next mark style inner found =>
        split at done
        · cases done
        · obtain ⟨changed, edited, same⟩ := Option.bind_eq_some_iff.1 done
          cases same
          have before := proper_table_iff.1 (proper.of_lookup? found)
          exact proper.replace (proper_table_iff.2 (ih _ _ _ before edited))
      · next mark items found =>
        obtain ⟨⟨at', inner⟩, last, done⟩ := Option.bind_eq_some_iff.1 done
        obtain ⟨changed, edited, same⟩ := Option.bind_eq_some_iff.1 done
        cases same
        have before := proper_tables_iff.1 (proper.of_lookup? found)
        refine proper.replace (proper_tables_iff.2 fun item among => ?_)
        obtain among | latest := List.mem_append.1 among
        · exact before item (List.dropLast_subset items among)
        · cases List.mem_singleton.1 latest
          exact ih _ _ _ (before _ (List.mem_of_getLast? last)) edited
      · cases done

theorem keeps_set (path : Path) (mark : Mark) {v : Value} (h : v.Proper) :
    Keeps (set path mark v) := by
  apply keeps_edit
  intro style fields fields' proper done
  dsimp only at done
  split at done
  · cases done
  · split at done
    · cases done
    · next fresh =>
      cases done
      exact proper.concat (Option.not_isSome_iff_eq_none.1 fresh) h

theorem keeps_openTable (key : Key) (mark : Mark) : Keeps (openTable key mark) := by
  intro style fields fields' proper done
  rw [openTable] at done
  split at done
  · next absent =>
    cases done
    exact proper.concat absent (proper_table_iff.2 proper_nil)
  · next at' inner found =>
    cases done
    have mentioned := proper_table_iff.1 (proper.of_lookup? found)
    exact proper.erase.concat (lookup?_erase fields key.name) (proper_table_iff.2 mentioned)
  · cases done

theorem keeps_openElement (key : Key) (mark : Mark) : Keeps (openElement key mark) := by
  intro style fields fields' proper done
  rw [openElement] at done
  split at done
  · next absent =>
    cases done
    refine proper.concat absent (proper_tables_iff.2 fun item among => ?_)
    cases List.mem_singleton.1 among
    exact proper_nil
  · next at' items found =>
    cases done
    have before := proper_tables_iff.1 (proper.of_lookup? found)
    refine proper.replace (proper_tables_iff.2 fun item among => ?_)
    obtain among | latest := List.mem_append.1 among
    · exact before item among
    · cases List.mem_singleton.1 latest
      exact proper_nil
  · cases done

theorem proper_ofPairs {pairs : List (Path × Mark × Value)} {fields : Fields}
    (h : ∀ pair ∈ pairs, pair.2.2.Proper) (made : ofPairs pairs = some fields) :
    fields.Proper := by
  unfold ofPairs at made
  -- Fields are added to those that are there already.
  have proper := proper_nil
  generalize ([] : Fields) = start at made proper
  induction pairs generalizing start with
  | nil =>
      cases made
      exact proper
  | cons pair pairs ih =>
      rw [List.foldlM_cons] at made
      obtain ⟨next, first, made⟩ := Option.bind_eq_some_iff.1 made
      obtain ⟨value, values⟩ := List.forall_mem_cons.1 h
      exact ih values next made (keeps_set _ _ value _ _ _ proper first)

end Fields

def Statement.Proper : Statement → Prop
  | .field _ _ v => v.Proper
  | .table .. | .element .. => True

theorem Fields.proper_carryOut {statements : List Statement} {opened : List Key}
    {fields fields' : Fields} (h : ∀ s ∈ statements, s.Proper) (proper : fields.Proper)
    (done : carryOut opened fields statements = some fields') : fields'.Proper := by
  induction statements generalizing opened fields with
  | nil =>
      cases done
      exact proper
  | cons s statements ih =>
      obtain ⟨first, others⟩ := List.forall_mem_cons.1 h
      cases s with
      | table path mark =>
          obtain ⟨next, edited, done⟩ := Option.bind_eq_some_iff.1 done
          have keeps := keeps_edit (keeps_openTable path.key mark) .implicit path.parents
          exact ih others (keeps _ _ _ proper edited) done
      | element path mark =>
          obtain ⟨next, edited, done⟩ := Option.bind_eq_some_iff.1 done
          have keeps := keeps_edit (keeps_openElement path.key mark) .implicit path.parents
          exact ih others (keeps _ _ _ proper edited) done
      | field path mark v =>
          obtain ⟨next, edited, done⟩ := Option.bind_eq_some_iff.1 done
          have keeps := keeps_edit (keeps_set path mark first) .implicit opened
          exact ih others (keeps _ _ _ proper edited) done

/-! Scanning -/

/-- Whatever a scanner gives has a property. -/
def Yields {α : Type} (scan : Scanner α) (P : α → Prop) : Prop :=
  ∀ s x rest, scan s = some (x, rest) → P x

theorem proper_of_checked {i : Int} {rest : List Char} {v : Value} {rest' : List Char}
    (h : Number.checked i rest = some (v, rest')) : v.Proper := by
  rw [Number.checked, Option.ite_none_right_eq_some] at h
  obtain ⟨fits, same⟩ := h
  cases same
  rw [Number.fits, Bool.and_eq_true, decide_eq_true_iff, decide_eq_true_iff] at fits
  exact .integer fits.1 fits.2

theorem yields_integer : Yields Number.integer Value.Proper := by
  intro s v rest scanned
  unfold Number.integer at scanned
  split at scanned <;>
    · obtain ⟨_, _, checked⟩ := Option.bind_eq_some_iff.1 scanned
      exact proper_of_checked checked

theorem yields_decimal : Yields Number.decimal Value.Proper := by
  intro s v rest scanned
  unfold Number.decimal at scanned
  generalize Number.sign s = signed at scanned
  obtain ⟨⟨ds, s⟩, _, scanned⟩ := Option.bind_eq_some_iff.1 scanned
  obtain ⟨⟨fs, s⟩, _, scanned⟩ := Option.bind_eq_some_iff.1 scanned
  obtain ⟨⟨e, s⟩, _, scanned⟩ := Option.bind_eq_some_iff.1 scanned
  dsimp only at scanned
  split at scanned
  · cases scanned
  · split at scanned
    · cases scanned
    · cases scanned
      exact .float _

theorem yields_special : Yields Number.special Value.Proper := by
  intro s v rest scanned
  unfold Number.special at scanned
  split at scanned
  · cases scanned
    exact .float _
  · cases scanned
    exact .float _
  · cases scanned

theorem yields_float : Yields Number.float Value.Proper := by
  intro s v rest scanned
  obtain scanned | ⟨-, scanned⟩ := Option.or_eq_some_iff.1 scanned
  · exact yields_decimal _ _ _ scanned
  · exact yields_special _ _ _ scanned

theorem yields_dateTime : Yields DateTime.scan Value.Proper := by
  intro s v rest scanned
  obtain ⟨_, _, same⟩ := Option.bind_eq_some_iff.1 scanned
  cases same
  exact .dateTime _

theorem yields_scalar : Yields scalar Value.Proper := by
  intro s v rest scanned
  unfold scalar at scanned
  split at scanned
  · cases scanned
    exact .boolean _
  · cases scanned
    exact .boolean _
  · obtain ⟨_, _, same⟩ := Option.bind_eq_some_iff.1 scanned
    cases same
    exact .string _
  · obtain ⟨_, _, same⟩ := Option.bind_eq_some_iff.1 scanned
    cases same
    exact .string _
  · rw [Option.or_eq_some_iff, Option.or_eq_some_iff] at scanned
    obtain (scanned | ⟨-, scanned⟩) | ⟨-, scanned⟩ := scanned
    · exact yields_dateTime _ _ _ scanned
    · exact yields_float _ _ _ scanned
    · exact yields_integer _ _ _ scanned

section

variable {scan : Scanner Value} (yields : Yields scan Value.Proper)

include yields

theorem yields_elements (n : Nat) :
    Yields (elements scan n) fun items => ∀ item ∈ items, item.2.Proper := by
  induction n with
  | zero => exact fun _ _ _ scanned => nomatch scanned
  | succ n ih =>
      intro s items rest scanned
      obtain ⟨s, _, scanned⟩ := Option.bind_eq_some_iff.1 scanned
      split at scanned
      · cases scanned
        exact nofun
      · obtain ⟨⟨v, after⟩, first, scanned⟩ := Option.bind_eq_some_iff.1 scanned
        obtain ⟨_, _, scanned⟩ := Option.bind_eq_some_iff.1 scanned
        have proper := yields _ _ _ first
        split at scanned
        · obtain ⟨⟨others, _⟩, more, same⟩ := Option.bind_eq_some_iff.1 scanned
          cases same
          exact List.forall_mem_cons.2 ⟨proper, ih _ _ _ more⟩
        · cases scanned
          exact List.forall_mem_singleton.2 proper
        · cases scanned

theorem yields_pair : Yields (pair scan) fun field => field.2.2.Proper := by
  intro s field rest scanned
  obtain ⟨⟨p, _⟩, _, scanned⟩ := Option.bind_eq_some_iff.1 scanned
  dsimp only at scanned
  split at scanned
  · obtain ⟨⟨v, _⟩, first, same⟩ := Option.bind_eq_some_iff.1 scanned
    cases same
    exact yields _ _ _ first
  · cases scanned

theorem yields_pairs (n : Nat) :
    Yields (pairs scan n) fun fields => ∀ field ∈ fields, field.2.2.Proper := by
  induction n with
  | zero => exact fun _ _ _ scanned => nomatch scanned
  | succ n ih =>
      intro s fields rest scanned
      obtain ⟨⟨field, _⟩, first, scanned⟩ := Option.bind_eq_some_iff.1 scanned
      have proper := yields_pair yields _ _ _ first
      dsimp only at scanned
      split at scanned
      · obtain ⟨⟨others, _⟩, more, same⟩ := Option.bind_eq_some_iff.1 scanned
        cases same
        exact List.forall_mem_cons.2 ⟨proper, ih _ _ _ more⟩
      · cases scanned
        exact List.forall_mem_singleton.2 proper
      · cases scanned

theorem yields_braced : Yields (braced scan) Value.Proper := by
  intro s v rest scanned
  unfold braced at scanned
  split at scanned
  · cases scanned
    exact Fields.proper_table_iff.2 Fields.proper_nil
  · obtain ⟨⟨ps, _⟩, read, scanned⟩ := Option.bind_eq_some_iff.1 scanned
    obtain ⟨fields, made, same⟩ := Option.bind_eq_some_iff.1 scanned
    cases same
    have proper := yields_pairs yields _ _ _ _ read
    exact Fields.proper_table_iff.2 (Fields.proper_ofPairs proper made)

end

theorem yields_value (depth : Nat) : Yields (value depth) Value.Proper := by
  induction depth with
  | zero =>
      intro s v rest scanned
      unfold value at scanned
      split at scanned
      · cases scanned
      · cases scanned
      · exact yields_scalar _ _ _ scanned
  | succ depth ih =>
      intro s v rest scanned
      unfold value at scanned
      split at scanned
      · obtain ⟨⟨items, _⟩, read, same⟩ := Option.map_eq_some_iff.1 scanned
        cases same
        exact .array (yields_elements ih _ _ _ _ read)
      · exact yields_braced ih _ _ _ scanned
      · exact yields_scalar _ _ _ scanned

theorem yields_statement : Yields statement Statement.Proper := by
  intro s read rest scanned
  unfold statement at scanned
  split at scanned
  · obtain ⟨_, _, scanned⟩ := Option.bind_eq_some_iff.1 scanned
    dsimp only at scanned
    split at scanned
    · obtain ⟨_, _, same⟩ := Option.map_eq_some_iff.1 scanned
      cases same
      trivial
    · cases scanned
  · obtain ⟨_, _, scanned⟩ := Option.bind_eq_some_iff.1 scanned
    dsimp only at scanned
    split at scanned
    · obtain ⟨_, _, same⟩ := Option.map_eq_some_iff.1 scanned
      cases same
      trivial
    · cases scanned
  · obtain ⟨⟨⟨p, mark, v⟩, _⟩, first, scanned⟩ := Option.bind_eq_some_iff.1 scanned
    obtain ⟨_, _, same⟩ := Option.map_eq_some_iff.1 scanned
    cases same
    exact yields_pair (yields_value _) _ _ _ first

theorem proper_of_statements {n : Nat} {s : List Char} {ss : List Statement}
    (scanned : statements n s = some ss) : ∀ s ∈ ss, s.Proper := by
  induction n generalizing s ss with
  | zero => cases scanned
  | succ n ih =>
      rw [statements] at scanned
      split at scanned
      · cases scanned
        exact nofun
      · obtain ⟨_, _, scanned⟩ := Option.bind_eq_some_iff.1 scanned
        exact ih scanned
      · split at scanned
        · exact ih scanned
        · obtain ⟨⟨first, _⟩, read, scanned⟩ := Option.bind_eq_some_iff.1 scanned
          obtain ⟨more, others, same⟩ := Option.bind_eq_some_iff.1 scanned
          cases same
          exact List.forall_mem_cons.2 ⟨yields_statement _ _ _ read, ih others⟩

/-- All that is read of a text is proper. -/
theorem proper_of_parse? {text : String} {fields : Fields} (read : parse? text = some fields) :
    fields.Proper := by
  obtain ⟨ss, scanned, made⟩ := Option.bind_eq_some_iff.1 read
  exact Fields.proper_carryOut (proper_of_statements scanned) Fields.proper_nil made

end Toml
end Prebind
