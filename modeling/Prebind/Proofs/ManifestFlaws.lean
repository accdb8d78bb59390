import Prebind.Proofs.AcceptedManifests
import Prebind.Proofs.TableSizes

/-!
Flaws of a manifest and refusals of its table. The check of a manifest and the table that its
entries are pushed to each look for positions and names in their own way. They find the same entry,
the first that has anything to be blamed for, and blame it for the same, its position before its
name.
-/

namespace Prebind
namespace Manifest

/-! The first entry to be blamed -/

/-- The position of an entry exists. -/
def Entry.Bindable (e : Entry) : Prop :=
  e.position = 2 ∨ e.position = 3 ∨ e.position = 4

/-- What is said of an entry that comes behind the given names: the flaw in its manifest, and the
error of its table. The name does not count where there is no position. -/
inductive Blamed (names : List String) (e : Entry) : Flaw → TableError → Prop where
  | position (lacking : ¬ e.Bindable) :
      Blamed names e (.position e.name e.position) (.bind (.noPosition e.position.toNat))
  | duplicate (bindable : e.Bindable) (taken : e.name ∈ names) :
      Blamed names e (.duplicate e.name) (.duplicate e.name)

/-- Behind entries that nothing is said of comes one that is blamed. -/
structure FirstBlamed (m : Manifest) (before : List Entry) (e : Entry) (flaw : Flaw)
    (cause : TableError) : Prop where
  here : ∃ after, m.entries = before ++ e :: after
  bindable : ∀ b ∈ before, b.Bindable
  distinct : (before.map Entry.name).Nodup
  blamed : Blamed (before.map Entry.name) e flaw cause

variable {names : List String} {e : Entry} {flaw : Flaw} {cause : TableError}

theorem Blamed.congr {others : List String} (h : Blamed names e flaw cause)
    (same : ∀ name, name ∈ names ↔ name ∈ others) : Blamed others e flaw cause := by
  cases h with
  | position lacking => exact .position lacking
  | duplicate bindable taken => exact .duplicate bindable ((same _).1 taken)

theorem isNone_ofIndex?_iff : (Position.ofIndex? e.position.toNat).isNone ↔ ¬ e.Bindable := by
  rw [Entry.Bindable, ← Position.exists_ofIndex?_iff, Option.isNone_iff_eq_none,
    Option.eq_none_iff_forall_ne_some, not_exists]

theorem flawAfter?_cons_of_blamed (h : Blamed names e flaw cause) (rest : List Entry) :
    flawAfter? names (e :: rest) = some flaw := by
  rw [flawAfter?]
  cases h with
  | position lacking => rw [if_pos (isNone_ofIndex?_iff.2 lacking)]
  | duplicate bindable taken =>
      rw [if_neg fun lacking => isNone_ofIndex?_iff.1 lacking bindable, if_pos taken]

theorem flawAfter?_append {before : List Entry} (flawless : flawAfter? names before = none)
    (rest : List Entry) :
    flawAfter? names (before ++ rest) =
      flawAfter? ((before.map Entry.name).reverse ++ names) rest := by
  induction before generalizing names with
  | nil => rfl
  | cons b before ih =>
      obtain ⟨bindable, fresh, later⟩ := flawAfter?_cons_eq_none.1 flawless
      have bound := (Position.exists_ofIndex?_iff _).1 bindable
      rw [List.cons_append, flawAfter?, if_neg fun lacking => isNone_ofIndex?_iff.1 lacking bound,
        if_neg fresh, ih later, List.map_cons, List.reverse_cons, List.append_assoc]
      rfl

theorem exists_blamed {es : List Entry} (h : flawAfter? names es = some flaw) :
    ∃ before e after cause, es = before ++ e :: after ∧ flawAfter? names before = none ∧
      Blamed ((before.map Entry.name).reverse ++ names) e flaw cause := by
  induction es generalizing names with
  | nil => cases h
  | cons e es ih =>
      rw [flawAfter?] at h
      split at h
      · next lacking =>
        cases h
        exact ⟨[], e, es, _, rfl, rfl, .position (isNone_ofIndex?_iff.1 lacking)⟩
      · next found =>
        have bindable := not_not.1 fun lacking => found (isNone_ofIndex?_iff.2 lacking)
        split at h
        · next taken =>
          cases h
          exact ⟨[], e, es, _, rfl, rfl, .duplicate bindable taken⟩
        · next fresh =>
          obtain ⟨before, other, after, cause, rfl, flawless, blamed⟩ := ih h
          refine ⟨e :: before, other, after, cause, rfl, ?_, ?_⟩
          · exact flawAfter?_cons_eq_none.2
              ⟨(Position.exists_ofIndex?_iff _).2 bindable, fresh, flawless⟩
          · rwa [List.map_cons, List.reverse_cons, List.append_assoc]

theorem validate_eq_error_iff {m : Manifest} :
    m.validate = .error flaw ↔ ∃ before e cause, FirstBlamed m before e flaw cause := by
  have flawed : m.validate = .error flaw ↔ flawAfter? [] m.entries = some flaw := by
    rw [validate, flaw?]
    cases flawAfter? [] m.entries <;> simp
  rw [flawed]
  constructor
  · intro h
    obtain ⟨before, e, after, cause, split, flawless, blamed⟩ := exists_blamed h
    obtain ⟨bindable, distinct, -⟩ := flawAfter?_eq_none_iff.1 flawless
    exact ⟨before, e, cause, ⟨after, split⟩, bindable, distinct,
      blamed.congr (by simp)⟩
  · rintro ⟨before, e, cause, ⟨after, split⟩, bindable, distinct, blamed⟩
    have flawless : flawAfter? [] before = none :=
      flawAfter?_eq_none_iff.2 ⟨bindable, distinct, fun _ _ => List.not_mem_nil⟩
    rw [split, flawAfter?_append flawless]
    exact flawAfter?_cons_of_blamed (blamed.congr (by simp)) after

/-! The push of an entry -/

/-- The push that an entry asks for. -/
def Entry.request (e : Entry) : Table.Request :=
  ⟨e.name, e.target, e.value, e.position⟩

/-- While there is room, a table refuses an entry for what it is blamed for behind its own names. -/
theorem Blamed.refused {t : Table} (laid : t.WellFormed)
    (free : t.entries.length ≠ t.capacity.toNat)
    (h : Blamed (t.entries.map Table.Entry.name) e flaw cause) :
    e.request.push t = .ok (.error cause) t := by
  obtain ⟨answer, u, pushed, decided⟩ := laid.push_decided e.request
  have refused : answer = .error cause := by
    cases h with
    | position lacking => exact decided.no_position lacking
    | duplicate bindable taken =>
        obtain ⟨other, among, same⟩ := List.mem_map.1 taken
        exact decided.duplicate bindable free ⟨other, among, same⟩
  rw [pushed, refused, decided.unchanged cause refused]

end Manifest

namespace Table

theorem length_run (requests : List Request) (t : Table) :
    (run requests t).1.length = requests.length := by
  induction requests generalizing t with
  | nil => rfl
  | cons r rest ih =>
      rw [run]
      cases r.push t <;> exact congrArg Nat.succ (ih _)

end Table

namespace Listing

open Manifest (Blamed FirstBlamed)

variable {t u : Table} {es : List Manifest.Entry} {e : Manifest.Entry}

theorem pushAll_append (pushed : pushAll es t = .ok (.ok ()) u) (rest : List Manifest.Entry) :
    pushAll (es ++ rest) t = pushAll rest u := by
  induction es generalizing t with
  | nil =>
      cases pushed
      rfl
  | cons e es ih =>
      rw [List.cons_append]
      simp only [pushAll] at pushed ⊢
      split at pushed
      · cases pushed
      · cases pushed
      · exact ih pushed

theorem pushAll_cons_of_refused {cause : TableError}
    (refused : e.request.push t = .ok (.error cause) u) (rest : List Manifest.Entry) :
    pushAll (e :: rest) t = .ok (.error (.entry e.name cause)) u := by
  have pushed : t.push e.name e.target e.value e.position = .ok (.error cause) u := refused
  simp only [pushAll, pushed]

/-- Entries that are all taken are a history of pushes that all succeed. -/
theorem run_of_pushAll (pushed : pushAll es t = .ok (.ok ()) u) :
    (Table.run (es.map Manifest.Entry.request) t).2 = u ∧
      ∀ answer ∈ (Table.run (es.map Manifest.Entry.request) t).1,
        ∃ offset, answer = .ok (.ok offset) := by
  induction es generalizing t with
  | nil =>
      cases pushed
      exact ⟨rfl, fun _ => nofun⟩
  | cons e es ih =>
      simp only [pushAll] at pushed
      split at pushed
      · cases pushed
      · cases pushed
      · next offset next taken =>
        have first : e.request.push t = .ok (.ok offset) next := taken
        obtain ⟨behind, answers⟩ := ih pushed
        rw [List.map_cons, Table.run_cons_of_ok first]
        exact ⟨behind, List.forall_mem_cons.2 ⟨⟨offset, rfl⟩, answers⟩⟩

theorem names_of_made {made : List Table.Entry} (h : List.Forall₂ Made es made) :
    made.map Table.Entry.name = es.map Manifest.Entry.name := by
  induction h with
  | nil => rfl
  | cons first _ ih => rw [List.map_cons, List.map_cons, first.name, ih]

/-- The first push of a history that is refused is the one at this place. -/
structure StopsAt (answers : List Table.Answer) (i : Nat) (cause : TableError) : Prop where
  before : ∀ j < i, ∃ offset, answers[j]? = some (.ok (.ok offset))
  here : answers[i]? = some (.ok (.error cause))

/-- Where entries are taken and the next one is refused, the history of their pushes stops. -/
theorem stopsAt_of_refused {cause : TableError} (pushed : pushAll es t = .ok (.ok ()) u)
    (refused : e.request.push u = .ok (.error cause) u) (rest : List Manifest.Entry) :
    StopsAt (Table.run ((es ++ e :: rest).map Manifest.Entry.request) t).1 es.length cause := by
  obtain ⟨behind, taken⟩ := run_of_pushAll pushed
  have count : (Table.run (es.map Manifest.Entry.request) t).1.length = es.length := by
    rw [Table.length_run, List.length_map]
  rw [List.map_append, List.map_cons, Table.run_append, behind, Table.run_cons_of_ok refused]
  constructor
  · intro j earlier
    have inside := count.symm ▸ earlier
    obtain ⟨offset, answered⟩ := taken _ (List.getElem_mem inside)
    refine ⟨offset, ?_⟩
    rw [List.getElem?_append_left inside, List.getElem?_eq_getElem inside, answered]
  · rw [List.getElem?_append_right (Nat.le_of_eq count), count, Nat.sub_self]
    rfl

/-- Entries without a flaw are all taken by a new table that has room for them. -/
theorem pushAll_of_new (laid : t.WellFormed) (empty : t.entries = [])
    (flawless : Manifest.flawAfter? [] es = none) (room : es.length ≤ t.capacity.toNat) :
    ∃ u, pushAll es t = .ok (.ok ()) u ∧ u.WellFormed ∧ u.capacity = t.capacity ∧
      List.Forall₂ Made es u.entries := by
  have known : ∀ made ∈ t.entries, made.name ∈ ([] : List String) := by simp [empty]
  have enough : t.entries.length + es.length ≤ t.capacity.toNat := by simpa [empty] using room
  obtain ⟨u, made, pushed, laid', entries, matching⟩ :=
    pushAll_of_flawless laid known flawless enough
  rw [empty, List.nil_append] at entries
  have kept := (laid.run (es.map Manifest.Entry.request)).2.1
  rw [(run_of_pushAll pushed).1] at kept
  exact ⟨u, pushed, laid', kept, entries ▸ matching⟩

section

variable {m : Manifest} {capacity : UInt64} {grants : UInt64 → Bool}
  (counted : capacity.toNat = m.entries.length)
  (created : Table.create capacity grants = .ok (.ok t))
include counted created

/-- The entries of a manifest without a flaw are all taken. -/
theorem taken_of_valid (valid : m.validate = .ok ()) :
    ∃ u, pushAll m.entries t = .ok (.ok ()) u := by
  obtain ⟨laid, sized, empty⟩ := Table.wellFormed_of_create created
  have room : m.entries.length ≤ t.capacity.toNat := by simp [sized, counted]
  obtain ⟨u, pushed, -⟩ := pushAll_of_new laid empty (Manifest.validate_eq_ok.1 valid) room
  exact ⟨u, pushed⟩

/-- Entries in front of the first that is blamed are all taken, and that one is refused. -/
theorem stops_of_firstBlamed {before : List Manifest.Entry} {flaw : Manifest.Flaw}
    {cause : TableError} (h : FirstBlamed m before e flaw cause) :
    StopsAt (Table.run (m.entries.map Manifest.Entry.request) t).1 before.length cause ∧
      ∃ u, pushAll m.entries t = .ok (.error (.entry e.name cause)) u := by
  obtain ⟨laid, sized, empty⟩ := Table.wellFormed_of_create created
  obtain ⟨after, split⟩ := h.here
  have room : before.length < t.capacity.toNat := by simp [sized, counted, split]
  have flawless : Manifest.flawAfter? [] before = none :=
    Manifest.flawAfter?_eq_none_iff.2 ⟨h.bindable, h.distinct, fun _ _ => List.not_mem_nil⟩
  obtain ⟨u, pushed, laid', kept, matching⟩ :=
    pushAll_of_new laid empty flawless (Nat.le_of_lt room)
  have free : u.entries.length ≠ u.capacity.toNat := by
    rw [kept, ← matching.length_eq]
    exact Nat.ne_of_lt room
  have refused : e.request.push u = .ok (.error cause) u :=
    Blamed.refused laid' free ((names_of_made matching).symm ▸ h.blamed)
  rw [split]
  exact ⟨stopsAt_of_refused pushed refused after, u,
    (pushAll_append pushed _).trans (pushAll_cons_of_refused refused after)⟩

end

theorem ofManifest_of_pushAll {m : Manifest} {capacity : UInt64} {system : System}
    {cause : BuildError} (counted : capacity.toNat = m.entries.length)
    (created : Table.create capacity system.grants = .ok (.ok t)) (config : Config)
    (pushed : pushAll m.entries t = .ok (.error cause) u) :
    ofManifest system m config = .ok (.error cause) := by
  rw [← UInt64.ofNat_toNat (x := capacity), counted] at created
  simp only [ofManifest, created, pushed]

/-- If the size of the region is a word, entries that no table takes fail to be listed. -/
theorem fails_of_pushAll {m : Manifest} {system : System} {cause : BuildError}
    (held : 30 * m.entries.length + 15 < UInt64.size)
    (pushed : ∀ t, Table.create (.ofNat m.entries.length) system.grants = .ok (.ok t) →
      ∃ u, pushAll m.entries t = .ok (.error cause) u) (config : Config) :
    ∃ failure, ofManifest system m config = .ok (.error failure) := by
  cases made : Table.create (.ofNat m.entries.length) system.grants with
  | error f =>
      have beyond := (Table.create_eq_fault_iff.1 made).2
      rw [UInt64.toNat_ofNat_of_lt' (by omega)] at beyond
      exact absurd held (Nat.not_lt_of_le beyond)
  | ok answer =>
      cases answer with
      | error e =>
          refine ⟨.table e, ?_⟩
          simp only [ofManifest, made]
      | ok t =>
          obtain ⟨u, refused⟩ := pushed t made
          refine ⟨cause, ?_⟩
          simp only [ofManifest, made, refused]

end Listing

namespace Manifest

open Listing (StopsAt ofManifest)

/-- The texts of a flaw and of a failure name the same entry, and its position where it is that
they are about. -/
structure SameReason (e : Entry) (flaw : Flaw) (failure : BuildError) : Prop where
  position : ¬ e.Bindable →
    flaw.message = "trampoline '" ++ e.name ++ "': position " ++ toString e.position.toNat ++
      " is not 2, 3 or 4" ∧
    failure.message = "trampoline '" ++ e.name ++ "': " ++
      ("invalid argument position " ++ toString e.position.toNat ++ " (expected 2, 3 or 4)")
  name : e.Bindable →
    flaw.message = "duplicate trampoline name '" ++ e.name ++ "'" ∧
    failure.message = "trampoline '" ++ e.name ++ "': " ++ ("duplicate trampoline name: " ++ e.name)

theorem Blamed.sameReason (h : Blamed names e flaw cause) :
    SameReason e flaw (.entry e.name cause) := by
  cases h with
  | position lacking => exact ⟨fun _ => ⟨rfl, rfl⟩, fun bindable => absurd bindable lacking⟩
  | duplicate bindable taken => exact ⟨fun lacking => absurd bindable lacking, fun _ => ⟨rfl, rfl⟩⟩

/-- The check of a manifest passes just if all positions exist and no name comes twice, and just if
a table with room for its entries takes them all. Else there is a first entry that is blamed, and
the check tells of it. The table takes the entries in front of this one and refuses it for the same
reason, so that there are no listings either. They fail and meet no fault as long as the size of
such a table is a word, and entries that are held in memory take more room than that. -/
theorem validate_agrees_with_table (m : Manifest) :
    (m.validate = .ok () ↔
      (∀ e ∈ m.entries, e.Bindable) ∧ (m.entries.map Entry.name).Nodup) ∧
    (∀ (capacity : UInt64) (grants : UInt64 → Bool) (t : Table),
      capacity.toNat = m.entries.length → Table.create capacity grants = .ok (.ok t) →
        (m.validate = .ok () ↔ ∀ answer ∈ (Table.run (m.entries.map Entry.request) t).1,
          ∃ offset, answer = .ok (.ok offset))) ∧
    (∀ flaw, m.validate = .error flaw ↔ ∃ before e cause, FirstBlamed m before e flaw cause) ∧
    ∀ before e flaw cause, FirstBlamed m before e flaw cause →
      SameReason e flaw (.entry e.name cause) ∧
      (30 * m.entries.length + 15 < UInt64.size →
        ∀ system config, ∃ failure, ofManifest system m config = .ok (.error failure)) ∧
      ∀ (capacity : UInt64) (system : System) (t : Table), capacity.toNat = m.entries.length →
        Table.create capacity system.grants = .ok (.ok t) →
          StopsAt (Table.run (m.entries.map Entry.request) t).1 before.length cause ∧
          ∀ config, ofManifest system m config = .ok (.error (.entry e.name cause)) := by
  refine ⟨validate_eq_ok_iff,
    fun capacity grants t counted created => ⟨fun valid => ?_, fun taken => ?_⟩,
    fun flaw => validate_eq_error_iff, fun before e flaw cause first =>
    ⟨first.blamed.sameReason, fun held system config => ?_,
      fun capacity system t counted created => ?_⟩⟩
  · obtain ⟨u, pushed⟩ := Listing.taken_of_valid counted created valid
    exact (Listing.run_of_pushAll pushed).2
  · cases checked : m.validate with
    | ok => rfl
    | error flaw =>
        obtain ⟨before, e, cause, first⟩ := validate_eq_error_iff.1 checked
        obtain ⟨stopped, -⟩ := Listing.stops_of_firstBlamed counted created first
        obtain ⟨offset, same⟩ := taken _ (List.mem_of_getElem? stopped.here)
        cases same
  · have counted := UInt64.toNat_ofNat_of_lt' (show m.entries.length < UInt64.size by omega)
    exact Listing.fails_of_pushAll held
      (fun t created => (Listing.stops_of_firstBlamed counted created first).2) config
  · obtain ⟨stopped, u, pushed⟩ := Listing.stops_of_firstBlamed counted created first
    exact ⟨stopped, fun config => Listing.ofManifest_of_pushAll counted created config pushed⟩

/-- The second entry has both flaws, and the last one has the name of the first. -/
theorem validate_agrees_with_table_position_first :
    let m : Manifest := ⟨[⟨"a", 1, 2, 3⟩, ⟨"a", 4, 5, 9⟩, ⟨"a", 6, 7, 2⟩]⟩
    m.validate = .error (.position "a" 9) ∧
      ofManifest .bare m {} = .ok (.error (.entry "a" (.bind (.noPosition 9)))) := by
  intro m
  have first : FirstBlamed m [⟨"a", 1, 2, 3⟩] ⟨"a", 4, 5, 9⟩ (.position "a" 9)
      (.bind (.noPosition 9)) :=
    { here := ⟨_, rfl⟩
      bindable := by
        intro b among
        rw [List.mem_singleton.1 among]
        exact .inr (.inl rfl)
      distinct := List.nodup_singleton _
      blamed := .position (by unfold Entry.Bindable; decide) }
  have required : Table.requiredSize? 3 = some 105 := by decide
  have created : Table.create 3 = .ok (.ok { region := ⟨.filled 4096 0⟩, capacity := 3 }) :=
    Table.create_of_required required (by decide) (by decide) (by decide)
  obtain ⟨-, -, checked, table⟩ := validate_agrees_with_table m
  exact ⟨(checked _).2 ⟨_, _, _, first⟩, ((table _ _ _ _ first).2.2 3 .bare _ rfl created).2 {}⟩

end Manifest
end Prebind
