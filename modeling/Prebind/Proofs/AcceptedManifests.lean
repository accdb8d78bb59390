import Mathlib.Data.List.Forall2
import Mathlib.Data.List.Nodup
import Prebind.Proofs.DocumentTrees
import Prebind.Proofs.ManifestListings

/-!
Which documents are manifests, and which they are. An element tells values for the four fields, by
their keys in a table and by their places in an array. If these values fit, it describes one entry.
A document is a manifest just if its elements describe entries, one each, and these are valid.
-/

namespace Prebind
namespace Manifest

open Toml (Fields Mark)

/-! Fields -/

namespace Field

/-- What is held under a field. -/
def Content : Field → Type
  | .name => String
  | .target | .value | .position => UInt64

/-- The place of a field in an entry in array form. -/
def index : Field → Nat
  | .name => 0
  | .target => 1
  | .value => 2
  | .position => 3

theorem ofKey?_key (field : Field) : ofKey? field.key = some field := by
  cases field <;> rfl

theorem key_of_ofKey? {key : String} {field : Field} (h : ofKey? key = some field) :
    key = field.key := by
  unfold ofKey? at h
  split at h <;> cases h <;> rfl

theorem key_injective {f g : Field} (h : f.key = g.key) : f = g := by
  have same := ofKey?_key f
  rw [h, ofKey?_key] at same
  exact (Option.some.inj same).symm

end Field

def Entry.get (e : Entry) : (field : Field) → field.Content
  | .name => e.name
  | .target => e.target
  | .value => e.value
  | .position => e.position

/-! What elements tell -/

/-- An address is given as a number or as a text of one. -/
inductive StandsFor : Toml.Value → UInt64 → Prop
  | integer (address : UInt64) : StandsFor (.integer address.toNat) address
  | text {s : String} {address : UInt64} (h : Address.parse s = .ok address) :
      StandsFor (.string s) address

/-- A value is a form of what a field holds. -/
def Fits : (field : Field) → Toml.Value → field.Content → Prop
  | .name, v, s => v = .string s
  | .target, v, address | .value, v, address => StandsFor v address
  | .position, v, index => v = .integer (UInt64.toNat index)

/-- An element tells a value for a field. -/
inductive Tells : Toml.Value → Field → Toml.Value → Prop
  | table {style : Toml.Style} {fields : Fields} {field : Field} {mark : Mark} {v : Toml.Value}
      (h : (field.key, mark, v) ∈ fields) : Tells (.table style fields) field v
  | array {items : List (Mark × Toml.Value)} {field : Field} {mark : Mark} {v : Toml.Value}
      (h : items[field.index]? = some (mark, v)) : Tells (.array items) field v

/-- An element tells what a field holds, in some form. -/
def Gives (element : Toml.Value) (field : Field) (x : field.Content) : Prop :=
  ∃ v, Tells element field v ∧ Fits field v x

def Describes (element : Toml.Value) (e : Entry) : Prop :=
  ∀ field, Gives element field (e.get field)

/-! Reading one value -/

section

variable {mark : Mark} {v : Toml.Value}

theorem readName_eq_ok_iff {s : String} : readName mark v = .ok s ↔ v = .string s := by
  cases v with
  | string t => simp only [readName, Except.ok.injEq, Toml.Value.string.injEq]
  | _ => exact ⟨nofun, nofun⟩

/-- An integer of a document that is not negative is a word, as it fits in 64 bits with a sign. -/
theorem toNat_ofNat_of_proper {n : Nat} (h : (Toml.Value.integer n).Proper) :
    (UInt64.ofNat n).toNat = n := by
  cases h with
  | integer _ greatest =>
      have word : n < 0x10000000000000000 := by omega
      exact UInt64.toNat_ofNat_of_lt' word

theorem readPosition_eq_ok_iff (proper : v.Proper) {w : UInt64} :
    readPosition mark v = .ok w ↔ v = .integer w.toNat := by
  constructor
  · intro read
    unfold readPosition at read
    split at read
    · cases read
      rw [toNat_ofNat_of_proper proper]
      rfl
    · cases read
    · cases read
  · rintro rfl
    exact congrArg Except.ok UInt64.ofNat_toNat

theorem readAddress_eq_ok_iff (proper : v.Proper) {w : UInt64} :
    readAddress mark v = .ok w ↔ StandsFor v w := by
  constructor
  · intro read
    unfold readAddress at read
    split at read
    · next n =>
      cases read
      have same := StandsFor.integer (.ofNat n)
      rwa [toNat_ofNat_of_proper proper] at same
    · next s =>
      cases parsed : Address.parse s with
      | error e =>
          rw [parsed] at read
          cases read
      | ok address =>
          rw [parsed] at read
          cases read
          exact .text parsed
    · cases read
  · rintro (_ | parsed)
    · exact congrArg Except.ok UInt64.ofNat_toNat
    · rw [readAddress, parsed]
      rfl

def readField (mark : Mark) (v : Toml.Value) : (field : Field) → Read field.Content
  | .name => readName mark v
  | .target | .value => readAddress mark v
  | .position => readPosition mark v

theorem readField_eq_ok_iff (proper : v.Proper) {field : Field} {x : field.Content} :
    readField mark v field = .ok x ↔ Fits field v x := by
  cases field with
  | name => exact readName_eq_ok_iff
  | target | value => exact readAddress_eq_ok_iff proper
  | position => exact readPosition_eq_ok_iff proper

end

/-! Reading a table -/

namespace Draft

def get (d : Draft) : (field : Field) → Option field.Content
  | .name => d.name
  | .target => d.target
  | .value => d.value
  | .position => d.position

def put (d : Draft) : (field : Field) → field.Content → Draft
  | .name, s => { d with name := some s }
  | .target, address => { d with target := some address }
  | .value, address => { d with value := some address }
  | .position, index => { d with position := some index }

theorem get_put_self (d : Draft) (field : Field) (x : field.Content) :
    (d.put field x).get field = some x := by
  cases field <;> rfl

theorem get_put_of_ne (d : Draft) {field other : Field} (h : other ≠ field) (x : field.Content) :
    (d.put field x).get other = d.get other := by
  cases field <;> cases other <;> first | rfl | exact absurd rfl h

theorem get_empty (field : Field) : ({} : Draft).get field = none := by
  cases field <;> rfl

theorem read_key (d : Draft) (field : Field) (mark : Mark) (v : Toml.Value) :
    d.read field.key mark v = do return d.put field (← readField mark v field) := by
  cases field <;> rfl

/-- A value is read into the field that has its key, if there is one. -/
theorem read_cases {d next : Draft} {key : String} {mark : Mark} {v : Toml.Value}
    (h : d.read key mark v = .ok next) :
    (∃ field x, key = field.key ∧ readField mark v field = .ok x ∧ next = d.put field x) ∨
      (∀ field : Field, key ≠ field.key) ∧ next = d := by
  cases known : Field.ofKey? key with
  | some field =>
      obtain rfl := Field.key_of_ofKey? known
      rw [read_key] at h
      obtain ⟨x, read, same⟩ := bind_eq_ok_iff.1 h
      exact .inl ⟨field, x, rfl, read, (Except.ok.inj same).symm⟩
  | none =>
      simp only [Draft.read, known] at h
      refine .inr ⟨?_, (Except.ok.inj h).symm⟩
      rintro field rfl
      rw [Field.ofKey?_key] at known
      cases known

theorem require_eq_ok_iff {α : Type} {mark : Mark} {field : Field} {o : Option α} {x : α} :
    require mark field o = .ok x ↔ o = some x := by
  cases o with
  | none => exact ⟨nofun, nofun⟩
  | some y => simp only [require, Except.ok.injEq, Option.some.injEq]

theorem finish_eq_ok_iff {d : Draft} {mark : Mark} {e : Entry} :
    d.finish mark = .ok e ↔ ∀ field, d.get field = some (e.get field) := by
  constructor
  · intro finished
    obtain ⟨name, hname, finished⟩ := bind_eq_ok_iff.1 finished
    obtain ⟨target, htarget, finished⟩ := bind_eq_ok_iff.1 finished
    obtain ⟨value, hvalue, finished⟩ := bind_eq_ok_iff.1 finished
    obtain ⟨position, hposition, finished⟩ := bind_eq_ok_iff.1 finished
    cases finished
    intro field
    cases field with
    | name => exact require_eq_ok_iff.1 hname
    | target => exact require_eq_ok_iff.1 htarget
    | value => exact require_eq_ok_iff.1 hvalue
    | position => exact require_eq_ok_iff.1 hposition
  · intro told
    have name : d.name = some e.name := told .name
    have target : d.target = some e.target := told .target
    have value : d.value = some e.value := told .value
    have position : d.position = some e.position := told .position
    rw [finish, name, target, value, position]
    rfl

/-- The fields of a table, read one after the other. -/
def readAll (d : Draft) (fields : Fields) : Read Draft :=
  fields.foldlM (fun d field => d.read field.1 field.2.1 field.2.2) d

theorem readAll_cons (d : Draft) (key : String) (mark : Mark) (v : Toml.Value) (fields : Fields) :
    d.readAll ((key, mark, v) :: fields) =
      d.read key mark v >>= fun next => next.readAll fields := by
  rw [readAll, List.foldlM_cons]
  rfl

section

variable {d d' : Draft} {fields : Fields} {field : Field}

/-- What a draft holds in the end was there already, or has been read under the key of the field. -/
theorem exists_of_get_readAll (h : d.readAll fields = .ok d') {x : field.Content}
    (held : d'.get field = some x) :
    d.get field = some x ∨
      ∃ mark v, (field.key, mark, v) ∈ fields ∧ readField mark v field = .ok x := by
  induction fields generalizing d with
  | nil =>
      cases h
      exact .inl held
  | cons first fields ih =>
      obtain ⟨key, mark, v⟩ := first
      rw [readAll_cons] at h
      obtain ⟨next, read, h⟩ := bind_eq_ok_iff.1 h
      obtain before | ⟨mark', v', among, found⟩ := ih h
      · obtain ⟨other, y, rfl, found, rfl⟩ | ⟨-, rfl⟩ := read_cases read
        · by_cases same : field = other
          · subst same
            rw [get_put_self] at before
            cases before
            exact .inr ⟨mark, v, List.mem_cons_self, found⟩
          · rw [get_put_of_ne d same] at before
            exact .inl before
        · exact .inl before
      · exact .inr ⟨mark', v', List.mem_cons_of_mem _ among, found⟩

/-- What a draft holds stays held, and all that has been read is held. -/
theorem get_readAll_ne_none (h : d.readAll fields = .ok d')
    (some : d.get field ≠ none ∨ field.key ∈ fields.map Prod.fst) : d'.get field ≠ none := by
  induction fields generalizing d with
  | nil =>
      cases h
      obtain held | among := some
      · exact held
      · cases among
  | cons first fields ih =>
      obtain ⟨key, mark, v⟩ := first
      rw [readAll_cons] at h
      obtain ⟨next, read, h⟩ := bind_eq_ok_iff.1 h
      apply ih h
      rw [List.map_cons, List.mem_cons] at some
      obtain ⟨other, y, rfl, -, rfl⟩ | ⟨unknown, rfl⟩ := read_cases read
      · by_cases same : field = other
        · subst same
          rw [get_put_self]
          exact .inl (Option.some_ne_none y)
        · rw [get_put_of_ne d same]
          have elsewhere : field.key ≠ other.key := fun key => same (Field.key_injective key)
          exact some.imp_right fun among => among.resolve_left elsewhere
      · exact some.imp_right fun among => among.resolve_left fun key => unknown field key.symm

/-- All of a table is read if no value stands under the key of a field that cannot hold it. -/
theorem exists_readAll (readable : ∀ (field : Field) (mark : Mark) (v : Toml.Value),
      (field.key, mark, v) ∈ fields → ∃ x, readField mark v field = .ok x) (d : Draft) :
    ∃ d', d.readAll fields = .ok d' := by
  induction fields generalizing d with
  | nil => exact ⟨d, rfl⟩
  | cons first fields ih =>
      obtain ⟨key, mark, v⟩ := first
      have later := ih fun field mark v among =>
        readable field mark v (List.mem_cons_of_mem _ among)
      rw [readAll_cons]
      cases known : Field.ofKey? key with
      | none =>
          obtain ⟨d', others⟩ := later d
          refine ⟨d', bind_eq_ok_iff.2 ⟨d, ?_, others⟩⟩
          simp only [Draft.read, known]
      | some field =>
          obtain rfl := Field.key_of_ofKey? known
          obtain ⟨x, found⟩ := readable field mark v List.mem_cons_self
          obtain ⟨d', others⟩ := later (d.put field x)
          refine ⟨d', bind_eq_ok_iff.2 ⟨d.put field x, ?_, others⟩⟩
          rw [read_key, found]
          rfl

end

end Draft

variable {e : Entry}

theorem eq_of_distinct {fields : Fields} (distinct : (fields.map Prod.fst).Nodup) {key : String}
    {mark mark' : Mark} {v v' : Toml.Value} (h : (key, mark, v) ∈ fields)
    (h' : (key, mark', v') ∈ fields) : v = v' :=
  congrArg (·.2.2) (List.inj_on_of_nodup_map distinct h h' rfl)

theorem readTable_eq_ok_iff {fields : Fields} (proper : fields.Proper) (mark : Mark)
    (style : Toml.Style) : readTable mark fields = .ok e ↔ Describes (.table style fields) e := by
  have read : readTable mark fields = ({} : Draft).readAll fields >>= Draft.finish mark := rfl
  rw [read, bind_eq_ok_iff]
  constructor
  · rintro ⟨d, all, finished⟩ field
    have held := Draft.finish_eq_ok_iff.1 finished field
    obtain before | ⟨at', v, among, found⟩ := Draft.exists_of_get_readAll all held
    · rw [Draft.get_empty] at before
      cases before
    · exact ⟨v, .table among, (readField_eq_ok_iff (proper.values _ among)).1 found⟩
  · intro described
    -- There is only one value under a key, so that all of them can be read.
    have found (field : Field) (at' : Mark) (v : Toml.Value)
        (among : (field.key, at', v) ∈ fields) : readField at' v field = .ok (e.get field) := by
      obtain ⟨w, ⟨there⟩, fits⟩ := described field
      rw [eq_of_distinct proper.distinct among there]
      exact (readField_eq_ok_iff (proper.values _ there)).2 fits
    obtain ⟨d, all⟩ :=
      Draft.exists_readAll (fun field at' v among => ⟨_, found field at' v among⟩) {}
    refine ⟨d, all, Draft.finish_eq_ok_iff.2 fun field => ?_⟩
    obtain ⟨w, ⟨there⟩, -⟩ := described field
    have some := Draft.get_readAll_ne_none all (.inr (List.mem_map_of_mem there))
    obtain ⟨x, held⟩ := Option.ne_none_iff_exists'.1 some
    obtain before | ⟨at', v, among, found'⟩ := Draft.exists_of_get_readAll all held
    · rw [Draft.get_empty] at before
      cases before
    · rw [found field at' v among] at found'
      cases found'
      exact held

/-! Reading an array -/

section

variable {items : List (Mark × Toml.Value)} (proper : ∀ item ∈ items, item.2.Proper)

include proper

theorem gives_of_place (field : Field) {at' mark : Mark} {v : Toml.Value} {x : field.Content}
    (here : items[field.index]? = some (at', v)) (read : readField mark v field = .ok x) :
    Gives (.array items) field x :=
  ⟨v, .array here, (readField_eq_ok_iff (proper _ (List.mem_of_getElem? here))).1 read⟩

/-- What is given is read, whichever place is shown if it is not. -/
theorem place_of_gives {field : Field} {x : field.Content} (h : Gives (.array items) field x) :
    ∃ at' v, items[field.index]? = some (at', v) ∧ ∀ mark, readField mark v field = .ok x := by
  obtain ⟨v, told, fits⟩ := h
  cases told with
  | array here =>
      have value := proper _ (List.mem_of_getElem? here)
      exact ⟨_, v, here, fun mark => (readField_eq_ok_iff value).2 fits⟩

theorem readArray_eq_ok_iff (mark : Mark) :
    readArray mark items = .ok e ↔ Describes (.array items) e := by
  constructor
  · intro read
    unfold readArray at read
    split at read
    · next here0 =>
      obtain ⟨name, hname, read⟩ := bind_eq_ok_iff.1 read
      split at read
      · next here1 =>
        obtain ⟨target, htarget, read⟩ := bind_eq_ok_iff.1 read
        split at read
        · next here2 =>
          obtain ⟨value, hvalue, read⟩ := bind_eq_ok_iff.1 read
          split at read
          · next here3 =>
            obtain ⟨position, hposition, read⟩ := bind_eq_ok_iff.1 read
            cases read
            intro field
            cases field with
            | name => exact gives_of_place proper .name here0 hname
            | target => exact gives_of_place proper .target here1 htarget
            | value => exact gives_of_place proper .value here2 hvalue
            | position => exact gives_of_place proper .position here3 hposition
          · cases read
        · cases read
      · cases read
    · cases read
  · intro described
    obtain ⟨at0, v0, here0, read0⟩ := place_of_gives proper (described .name)
    obtain ⟨at1, v1, here1, read1⟩ := place_of_gives proper (described .target)
    obtain ⟨at2, v2, here2, read2⟩ := place_of_gives proper (described .value)
    obtain ⟨at3, v3, here3, read3⟩ := place_of_gives proper (described .position)
    have name : readName at0 v0 = .ok e.name := read0 at0
    have target : readAddress mark v1 = .ok e.target := read1 mark
    have value : readAddress mark v2 = .ok e.value := read2 mark
    have position : readPosition at3 v3 = .ok e.position := read3 at3
    dsimp only [Field.index] at here0 here1 here2 here3
    simp only [readArray, here0, here1, here2, here3, name, target, value, position]
    rfl

end

theorem readEntry_eq_ok_iff {item : Mark × Toml.Value} (proper : item.2.Proper) :
    readEntry item = .ok e ↔ Describes item.2 e := by
  obtain ⟨mark, v⟩ := item
  cases v with
  | table style fields =>
      exact readTable_eq_ok_iff (Toml.Fields.proper_table_iff.1 proper) mark style
  | array items =>
      cases proper with
      | array proper => exact readArray_eq_ok_iff proper mark
  | _ =>
      constructor
      · nofun
      · intro described
        obtain ⟨_, told, -⟩ := described .name
        cases told

/-! Reading a document -/

/-- The elements of an array, however it is written. -/
def elements? : Toml.Value → Option (List Toml.Value)
  | .array items => some (items.map Prod.snd)
  | .tables items => some (items.map fun item => .table .header item.2)
  | _ => none

/-- A document has an array of these elements. -/
def Lists (fields : Fields) (elements : List Toml.Value) : Prop :=
  ∃ mark v, ("trampoline", mark, v) ∈ fields ∧ elements? v = some elements

def ListsNothing (fields : Fields) : Prop :=
  "trampoline" ∉ fields.map Prod.fst

/-- The elements of a document describe entries, one each and in order. -/
def Records (fields : Fields) (es : List Entry) : Prop :=
  ListsNothing fields ∧ es = [] ∨
    ∃ elements, Lists fields elements ∧ List.Forall₂ Describes elements es

theorem readEntries_eq_ok_iff {v : Toml.Value} (proper : v.Proper) (mark : Mark) {es : List Entry} :
    readEntries mark v = .ok es ↔
      ∃ elements, elements? v = some elements ∧ List.Forall₂ Describes elements es := by
  have single {elements : List Toml.Value} :
      (∃ others, some elements = some others ∧ List.Forall₂ Describes others es) ↔
        List.Forall₂ Describes elements es := by
    simp only [Option.some.injEq, exists_eq_left']
  cases v with
  | array items =>
      cases proper with
      | array proper =>
          rw [elements?, single, List.forall₂_map_left_iff]
          exact mapM_eq_ok_iff fun item among e => readEntry_eq_ok_iff (proper item among)
  | tables items =>
      have proper := Toml.Fields.proper_tables_iff.1 proper
      rw [elements?, single, List.forall₂_map_left_iff]
      exact mapM_eq_ok_iff fun item among e =>
        readTable_eq_ok_iff (proper item among) item.1 .header
  | _ =>
      constructor
      · nofun
      · rintro ⟨_, none, -⟩
        cases none

theorem ofFields_eq_ok_iff {fields : Fields} (proper : fields.Proper) {m : Manifest} :
    ofFields fields = .ok m ↔ Records fields m.entries := by
  obtain ⟨es⟩ := m
  rw [ofFields]
  split
  · next absent =>
    have nothing := Fields.lookup?_eq_none_iff.1 absent
    constructor
    · intro same
      cases same
      exact .inl ⟨nothing, rfl⟩
    · rintro (⟨-, rfl⟩ | ⟨_, ⟨mark, v, among, -⟩, -⟩)
      · rfl
      · exact absurd (List.mem_map_of_mem among) nothing
  · next mark v found =>
    have there := Fields.mem_of_lookup? found
    have value := proper.values _ there
    constructor
    · intro read
      cases entries : readEntries mark v with
      | error e =>
          rw [entries] at read
          cases read
      | ok es' =>
          rw [entries] at read
          cases read
          obtain ⟨elements, array, described⟩ := (readEntries_eq_ok_iff value mark).1 entries
          exact .inr ⟨elements, ⟨mark, v, there, array⟩, described⟩
    · rintro (⟨nothing, -⟩ | ⟨elements, ⟨mark', v', there', array⟩, described⟩)
      · exact absurd (List.mem_map_of_mem there) nothing
      · rw [eq_of_distinct proper.distinct there' there] at array
        rw [(readEntries_eq_ok_iff value mark).2 ⟨elements, array, described⟩]
        rfl

/-! Valid entries -/

theorem flawAfter?_eq_none_iff {names : List String} {es : List Entry} :
    flawAfter? names es = none ↔
      (∀ e ∈ es, e.position = 2 ∨ e.position = 3 ∨ e.position = 4) ∧
        (es.map Entry.name).Nodup ∧ ∀ e ∈ es, e.name ∉ names := by
  induction es generalizing names with
  | nil => exact ⟨fun _ => ⟨nofun, List.nodup_nil, nofun⟩, fun _ => rfl⟩
  | cons e es ih =>
      rw [flawAfter?_cons_eq_none, ih, Position.exists_ofIndex?_iff, List.map_cons, List.nodup_cons,
        List.forall_mem_cons, List.forall_mem_cons]
      constructor
      · rintro ⟨bindable, fresh, others, distinct, apart⟩
        refine ⟨⟨bindable, others⟩, ⟨?_, distinct⟩, fresh, ?_⟩
        · intro taken
          obtain ⟨other, among, same⟩ := List.mem_map.1 taken
          exact apart other among (same ▸ List.mem_cons_self)
        · exact fun other among taken => apart other among (List.mem_cons_of_mem _ taken)
      · rintro ⟨⟨bindable, others⟩, ⟨first, distinct⟩, fresh, apart⟩
        refine ⟨bindable, fresh, others, distinct, fun other among taken => ?_⟩
        obtain same | taken := List.mem_cons.1 taken
        · exact first (same ▸ List.mem_map_of_mem among)
        · exact apart other among taken

theorem validate_eq_ok_iff {m : Manifest} :
    m.validate = .ok () ↔
      (∀ e ∈ m.entries, e.position = 2 ∨ e.position = 3 ∨ e.position = 4) ∧
        (m.entries.map Entry.name).Nodup := by
  rw [validate_eq_ok, flaw?, flawAfter?_eq_none_iff]
  constructor
  · exact fun ⟨bindable, distinct, _⟩ => ⟨bindable, distinct⟩
  · exact fun ⟨bindable, distinct⟩ => ⟨bindable, distinct, fun _ _ => List.not_mem_nil⟩

/-! Documents that say the same -/

/-- Two values are the same, or forms of the same. -/
def SameContent (field : Field) (v w : Toml.Value) : Prop :=
  v = w ∨ ∃ x, Fits field v x ∧ Fits field w x

/-- What an element tells for the four fields another one tells too, perhaps in other forms. -/
def Covers (v w : Toml.Value) : Prop :=
  ∀ field u, Tells v field u → ∃ u', Tells w field u' ∧ SameContent field u u'

def Alike (v w : Toml.Value) : Prop :=
  Covers v w ∧ Covers w v

/-- Two documents have no array, or arrays of elements that are alike one by one. -/
def SayTheSame (fields fields' : Fields) : Prop :=
  ListsNothing fields ∧ ListsNothing fields' ∨
    ∃ elements elements', Lists fields elements ∧ Lists fields' elements' ∧
      List.Forall₂ Alike elements elements'

theorem StandsFor.unique {v : Toml.Value} {a b : UInt64} (h : StandsFor v a) (h' : StandsFor v b) :
    a = b := by
  generalize same : v = w at h'
  cases h with
  | integer =>
      cases h' with
      | integer => exact UInt64.toNat_inj.1 (Int.ofNat.inj (Toml.Value.integer.inj same))
      | text => cases same
  | text parsed =>
      cases h' with
      | integer => cases same
      | text parsed' =>
          cases same
          exact Except.ok.inj (parsed.symm.trans parsed')

theorem Fits.unique {field : Field} {v : Toml.Value} {x y : field.Content} (h : Fits field v x)
    (h' : Fits field v y) : x = y := by
  cases field with
  | name => exact Toml.Value.string.inj (h.symm.trans h')
  | target | value => exact StandsFor.unique h h'
  | position => exact UInt64.toNat_inj.1 (Int.ofNat.inj (Toml.Value.integer.inj (h.symm.trans h')))

theorem Covers.gives {v w : Toml.Value} (h : Covers v w) {field : Field} {x : field.Content}
    (gives : Gives v field x) : Gives w field x := by
  obtain ⟨u, told, fits⟩ := gives
  obtain ⟨u', told', rfl | ⟨y, fits', same⟩⟩ := h field u told
  · exact ⟨u, told', fits⟩
  · rw [fits.unique fits']
    exact ⟨u', told', same⟩

theorem SameContent.symm {field : Field} {v w : Toml.Value} (h : SameContent field v w) :
    SameContent field w v := by
  obtain rfl | ⟨x, fits, fits'⟩ := h
  · exact .inl rfl
  · exact .inr ⟨x, fits', fits⟩

/-- A table covers another one if there is the same under each of the four keys. -/
theorem covers_table {style style' : Toml.Style} {fields fields' : Fields}
    (distinct : (fields.map Prod.fst).Nodup)
    (same : ∀ field : Field, ∃ mark v mark' v', (field.key, mark, v) ∈ fields ∧
      (field.key, mark', v') ∈ fields' ∧ SameContent field v v') :
    Covers (.table style fields) (.table style' fields') := by
  rintro field u ⟨told⟩
  obtain ⟨mark, v, mark', v', there, there', content⟩ := same field
  rw [eq_of_distinct distinct told there]
  exact ⟨v', .table there', content⟩

theorem alike_table {style style' : Toml.Style} {fields fields' : Fields}
    (distinct : (fields.map Prod.fst).Nodup) (distinct' : (fields'.map Prod.fst).Nodup)
    (same : ∀ field : Field, ∃ mark v mark' v', (field.key, mark, v) ∈ fields ∧
      (field.key, mark', v') ∈ fields' ∧ SameContent field v v') :
    Alike (.table style fields) (.table style' fields') := by
  refine ⟨covers_table distinct same, covers_table distinct' fun field => ?_⟩
  obtain ⟨mark, v, mark', v', there, there', content⟩ := same field
  exact ⟨mark', v', mark, v, there', there, content.symm⟩

theorem Alike.describes_iff {v w : Toml.Value} (h : Alike v w) : Describes v e ↔ Describes w e :=
  ⟨fun described field => h.1.gives (described field),
    fun described field => h.2.gives (described field)⟩

theorem forall₂_describes_iff {vs ws : List Toml.Value} (alike : List.Forall₂ Alike vs ws)
    {es : List Entry} : List.Forall₂ Describes vs es ↔ List.Forall₂ Describes ws es := by
  induction alike generalizing es with
  | nil => rfl
  | cons first _ ih =>
      rw [List.forall₂_cons_left_iff, List.forall₂_cons_left_iff]
      simp only [first.describes_iff, ih]

theorem Lists.unique {fields : Fields} (distinct : (fields.map Prod.fst).Nodup)
    {elements elements' : List Toml.Value} (h : Lists fields elements)
    (h' : Lists fields elements') : elements = elements' := by
  obtain ⟨mark, v, there, array⟩ := h
  obtain ⟨mark', v', there', array'⟩ := h'
  rw [eq_of_distinct distinct there there', array'] at array
  exact (Option.some.inj array).symm

theorem Lists.records_iff {fields : Fields} (distinct : (fields.map Prod.fst).Nodup)
    {elements : List Toml.Value} (h : Lists fields elements) {es : List Entry} :
    Records fields es ↔ List.Forall₂ Describes elements es := by
  constructor
  · rintro (⟨nothing, -⟩ | ⟨elements', h', described⟩)
    · obtain ⟨mark, v, there, -⟩ := h
      exact absurd (List.mem_map_of_mem there) nothing
    · rwa [h.unique distinct h']
  · exact fun described => .inr ⟨elements, h, described⟩

theorem ListsNothing.records_iff {fields : Fields} (h : ListsNothing fields) {es : List Entry} :
    Records fields es ↔ es = [] := by
  constructor
  · rintro (⟨-, none⟩ | ⟨elements, ⟨mark, v, there, -⟩, -⟩)
    · exact none
    · exact absurd (List.mem_map_of_mem there) h
  · exact fun none => .inl ⟨h, none⟩

theorem SayTheSame.records_iff {fields fields' : Fields} (h : SayTheSame fields fields')
    (proper : fields.Proper) (proper' : fields'.Proper) {es : List Entry} :
    Records fields es ↔ Records fields' es := by
  obtain ⟨nothing, nothing'⟩ | ⟨elements, elements', lists, lists', alike⟩ := h
  · rw [nothing.records_iff, nothing'.records_iff]
  · rw [lists.records_iff proper.distinct, lists'.records_iff proper'.distinct,
      forall₂_describes_iff alike]

theorem parse_eq_ok_iff_of_tree {text : String} {fields : Fields}
    (read : Toml.parse? text = some fields) {m : Manifest} :
    parse text = .ok m ↔ Records fields m.entries ∧
      (∀ e ∈ m.entries, e.position = 2 ∨ e.position = 3 ∨ e.position = 4) ∧
        (m.entries.map Entry.name).Nodup := by
  have proper := Toml.proper_of_parse? read
  rw [parse_eq_ok_iff, ← validate_eq_ok_iff, ← ofFields_eq_ok_iff proper, read]
  simp only [Option.some.injEq, exists_eq_left']

/-- A text is read as a manifest just if it is a document, the elements of its array describe the
entries, and these are valid. Nothing else of the document counts: it is read as the same manifest
with the fields of its elements in another order or among others, and with its addresses in other
forms. -/
theorem parse_decided_by_elements (text : String) (m : Manifest) :
    (parse text = .ok m ↔ ∃ fields, Toml.parse? text = some fields ∧ Records fields m.entries ∧
      (∀ e ∈ m.entries, e.position = 2 ∨ e.position = 3 ∨ e.position = 4) ∧
        (m.entries.map Entry.name).Nodup) ∧
    ∀ other fields fields', Toml.parse? text = some fields → Toml.parse? other = some fields' →
      SayTheSame fields fields' → (parse other = .ok m ↔ parse text = .ok m) := by
  constructor
  · constructor
    · intro parsed
      obtain ⟨fields, read, -⟩ := parse_eq_ok_iff.1 parsed
      exact ⟨fields, read, (parse_eq_ok_iff_of_tree read).1 parsed⟩
    · rintro ⟨fields, read, records⟩
      exact (parse_eq_ok_iff_of_tree read).2 records
  · intro other fields fields' read read' same
    rw [parse_eq_ok_iff_of_tree read, parse_eq_ok_iff_of_tree read',
      same.records_iff (Toml.proper_of_parse? read) (Toml.proper_of_parse? read')]

/-- The fields come the other way round and among others, and the addresses as texts. -/
theorem parse_decided_by_elements_in_another_order :
    parse "[[trampoline]]\nname = 'a'\ntarget = 16\nvalue = 2\nposition = 3" =
        .ok ⟨[⟨"a", 16, 2, 3⟩]⟩ ∧
      parse "[[trampoline]]\nposition = 3\nx = 1\nvalue = ' 0_2'\ntarget = '0X10'\nname = 'a'" =
        .ok ⟨[⟨"a", 16, 2, 3⟩]⟩ := by
  have parsed : parse "[[trampoline]]\nname = 'a'\ntarget = 16\nvalue = 2\nposition = 3" =
      .ok ⟨[⟨"a", 16, 2, 3⟩]⟩ := by rfl
  have read : Toml.parse? "[[trampoline]]\nname = 'a'\ntarget = 16\nvalue = 2\nposition = 3" =
      some [("trampoline", 60, .tables [(60, [("name", 38, .string "a"),
        ("target", 25, .integer 16), ("value", 14, .integer 2),
        ("position", 1, .integer 3)])])] := by
    rfl
  have read' : Toml.parse?
      "[[trampoline]]\nposition = 3\nx = 1\nvalue = ' 0_2'\ntarget = '0X10'\nname = 'a'" =
      some [("trampoline", 75, .tables [(75, [("position", 49, .integer 3), ("x", 43, .integer 1),
        ("value", 33, .string " 0_2"), ("target", 17, .string "0X10"),
        ("name", 3, .string "a")])])] := by
    rfl
  have sixteen : SameContent .target (.integer 16) (.string "0X10") :=
    .inr ⟨(16 : UInt64), .integer 16, .text rfl⟩
  have two : SameContent .value (.integer 2) (.string " 0_2") :=
    .inr ⟨(2 : UInt64), .integer 2, .text rfl⟩
  refine ⟨parsed, ((parse_decided_by_elements _ _).2 _ _ _ read read' (.inr ?_)).2 parsed⟩
  refine ⟨_, _, ⟨_, _, .head _, rfl⟩, ⟨_, _, .head _, rfl⟩, .cons ?_ .nil⟩
  refine alike_table (by decide) (by decide) fun field => ?_
  cases field with
  | name => exact ⟨_, _, _, _, .head _, .tail _ (.tail _ (.tail _ (.tail _ (.head _)))), .inl rfl⟩
  | target => exact ⟨_, _, _, _, .tail _ (.head _), .tail _ (.tail _ (.tail _ (.head _))), sixteen⟩
  | value => exact ⟨_, _, _, _, .tail _ (.tail _ (.head _)), .tail _ (.tail _ (.head _)), two⟩
  | position => exact ⟨_, _, _, _, .tail _ (.tail _ (.tail _ (.head _))), .head _, .inl rfl⟩

end Manifest
end Prebind
