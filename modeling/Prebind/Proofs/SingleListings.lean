import Prebind.Proofs.ManifestFlaws

/-!
One trampoline by itself and the trampolines of a manifest. The one is made in a scratch buffer of
just its size, the others in the region of a table, where they are looked up by their names. What is
shown of a trampoline is the same either way: no listing depends on what stood in the scratch buffer
or on which entries are around, but for the address, the offset and the name.
-/

namespace Prebind

/-- The manifest of one trampoline, under the name of those that are made by themselves. -/
def Manifest.alone (target value index : UInt64) : Manifest :=
  ⟨[⟨"trampoline", target, value, index⟩]⟩

namespace Listing

open Manifest (alone)

/-! The scratch buffer -/

section

variable {target value index : UInt64} {system : System} {config : Config}

/-- The scratch buffer has room for the trampoline and the margin. -/
theorem writeSingle_of_position {position : Position}
    (found : Position.ofIndex? index.toNat = some position) :
    let scratch := Buffer.filled (.ofNat (Trampoline.size + Instruction.maxLength)) config.fill
    let a : Assembler := { cursor := { buffer := scratch } }
    writeSingle target value index config =
      .ok (.ok 0) ((a.announce target value position).after
        (Assembler.trampolineCode target value position)) := by
  intro scratch a
  have room : Trampoline.size ≤ a.cursor.remaining := (by decide : 30 ≤ 45 - 15 - 0)
  exact Assembler.tryBind_of_room found room

theorem writeSingle_of_no_position (target value : UInt64) (config : Config)
    (lacking : Position.ofIndex? index.toNat = none) :
    ∃ buffer, writeSingle target value index config =
      .ok (.error (.noPosition index.toNat)) { cursor := { buffer } } :=
  ⟨_, Assembler.tryBind_of_no_position _ lacking⟩

/-- All that the scratch buffer held before lies behind the trampoline. -/
theorem single_of_position {position : Position}
    (found : Position.ofIndex? index.toNat = some position) :
    single system target value index config = .ok (.ok (make "trampoline" position target value 0
      (config.base.getD system.scratch) (Trampoline.bytes target value position))) := by
  let scratch := Buffer.filled (.ofNat (Trampoline.size + Instruction.maxLength)) config.fill
  let a : Assembler := { cursor := { buffer := scratch } }
  let code := Trampoline.bytes target value position
  have fits : a.cursor.position.toNat + code.length ≤ a.cursor.buffer.length := by
    rw [Trampoline.length_bytes]
    exact (by decide : 0 + 30 ≤ 45)
  have written : writeSingle target value index config = .ok (.ok 0) _ :=
    writeSingle_of_position found
  have place : (a.cursor.put code).position.toNat = code.length :=
    (Cursor.position_put fits).trans (Nat.zero_add _)
  have stored :
      (a.cursor.put code).buffer.bytes.take (a.cursor.put code).position.toNat = code := by
    have whole : (a.cursor.put code).buffer.bytes =
        [] ++ code ++ scratch.bytes.drop (0 + code.length) := Buffer.bytes_overwrite fits
    rw [place, whole, List.nil_append, List.take_left]
  simp only [single, written, found, UInt64.add_zero]
  exact congrArg (fun code => Except.ok (Except.ok
    (make "trampoline" position target value 0 (config.base.getD system.scratch) code))) stored

theorem single_of_no_position (lacking : ¬ (index = 2 ∨ index = 3 ∨ index = 4)) :
    single system target value index config = .ok (.error (.noPosition index.toNat)) := by
  rw [← Position.exists_ofIndex?_iff] at lacking
  have none : Position.ofIndex? index.toNat = none :=
    Option.eq_none_iff_forall_ne_some.2 fun position found => lacking ⟨position, found⟩
  obtain ⟨_, refused⟩ := writeSingle_of_no_position target value config none
  simp only [single, refused]

/-- A trampoline of its own is shown or has no position, and the scratch buffer has no say in it. -/
theorem single_cases (system : System) (target value index : UInt64) (config : Config) :
    (∃ position, Position.ofIndex? index.toNat = some position ∧
      single system target value index config = .ok (.ok (make "trampoline" position target value 0
        (config.base.getD system.scratch) (Trampoline.bytes target value position)))) ∨
    (¬ (index = 2 ∨ index = 3 ∨ index = 4) ∧
      single system target value index config = .ok (.error (.noPosition index.toNat))) := by
  by_cases bindable : index = 2 ∨ index = 3 ∨ index = 4
  · obtain ⟨position, found⟩ := (Position.exists_ofIndex?_iff index).2 bindable
    exact .inl ⟨position, found, single_of_position found⟩
  · exact .inr ⟨bindable, single_of_no_position bindable⟩

end

/-! The table -/

/-- Entries that a table has taken are behind its own, in order. -/
theorem pushAll_eq_ok {entries : List Manifest.Entry} {t u : Table} (laid : t.WellFormed)
    (pushed : pushAll entries t = .ok (.ok ()) u) :
    u.WellFormed ∧ ∃ made, u.entries = t.entries ++ made ∧ List.Forall₂ Made entries made := by
  induction entries generalizing t with
  | nil =>
      cases pushed
      exact ⟨laid, [], (List.append_nil _).symm, .nil⟩
  | cons e rest ih =>
      simp only [pushAll] at pushed
      split at pushed
      · cases pushed
      · cases pushed
      · next offset next taken =>
        have first : e.request.push t = .ok (.ok offset) next := taken
        obtain ⟨position, found⟩ := laid.position_of_answer first
        obtain ⟨answer, next', again, laid', -, -, grown⟩ := laid.push e.request
        rw [first] at again
        cases again
        obtain ⟨laidLast, made, entries, matching⟩ := ih laid' pushed
        let made' : Table.Entry := ⟨e.name, e.target, e.value, position, offset⟩
        have new : e.request.entry? (.ok (.ok offset)) = some made' := by
          simp only [Table.Request.entry?, found]
          rfl
        refine ⟨laidLast, made' :: made, ?_, .cons ⟨rfl, rfl, rfl, found⟩ matching⟩
        rw [entries, grown, new, List.append_assoc]
        rfl

/-- Listings of a manifest come from a table that has taken all its entries. -/
theorem table_of_ofManifest {m : Manifest} {system : System} {config : Config}
    {listings : List Listing} (built : ofManifest system m config = .ok (.ok listings)) :
    ∃ t : Table, t.WellFormed ∧ List.Forall₂ Made m.entries t.entries ∧
      t.entries.mapM (ofEntry t (config.base.getD system.region)) = .ok listings := by
  simp only [ofManifest] at built
  split at built
  · cases built
  · cases built
  · next t created =>
    split at built
    · cases built
    · cases built
    · next u pushed =>
      obtain ⟨laid, -, empty⟩ := Table.wellFormed_of_create created
      obtain ⟨laid', made, entries, matching⟩ := pushAll_eq_ok laid pushed
      rw [empty, List.nil_append] at entries
      exact ⟨u, laid', entries ▸ matching, Except.ok.inj built⟩

/-- The listings of a manifest show its entries from the base address on. -/
theorem shows_of_ofManifest {m : Manifest} {system : System} {config : Config} {base : UInt64}
    {listings : List Listing} (based : config.base.getD system.region = base)
    (built : ofManifest system m config = .ok (.ok listings)) :
    listings.length = m.entries.length ∧ ∀ (i : Nat) (e : Manifest.Entry),
      m.entries[i]? = some e → ∃ l, listings[i]? = some l ∧ l.Shows e base i := by
  obtain ⟨t, laid, matching, shown⟩ := table_of_ofManifest built
  rw [based] at shown
  exact shows_of_mapM laid matching shown

/-- A listing that shows an entry at some place is that of the entry by itself at its address. -/
theorem Shows.single {l : Listing} {e : Manifest.Entry} {base : UInt64} {i : Nat}
    (h : l.Shows e base i) (system : System) (config : Config) :
    ∃ address : UInt64, address.toNat = base.toNat + 30 * i ∧
      Listing.single system e.target e.value e.position { config with base := some address } =
        .ok (.ok { l with name := "trampoline", offset := 0 }) := by
  obtain ⟨address, sum, shown⟩ := h.address
  obtain ⟨position, found, index, register, bytes⟩ := h.bound
  have place := Position.ofIndex?_eq_some.1 found
  refine ⟨address, sum, ?_⟩
  rw [single_of_position found, make, h.target, h.value, shown, index, register, bytes, place]
  rfl

/-- Each entry of a manifest is listed as it would be by itself at its address. -/
theorem listed_alone {m : Manifest} {system : System} {config : Config} {base : UInt64}
    {listings : List Listing}
    (built : ofManifest system m { config with base := some base } = .ok (.ok listings)) :
    listings.length = m.entries.length ∧
    ∀ (i : Nat) (e : Manifest.Entry), m.entries[i]? = some e →
      ∃ (l : Listing) (address : UInt64), listings[i]? = some l ∧
        address.toNat = base.toNat + 30 * i ∧ l.name = e.name ∧ l.offset = 30 * i ∧
        single system e.target e.value e.position { config with base := some address } =
          .ok (.ok { l with name := "trampoline", offset := 0 }) := by
  have based : { config with base := some base }.base.getD system.region = base := rfl
  obtain ⟨count, shows⟩ := shows_of_ofManifest based built
  refine ⟨count, fun i e there => ?_⟩
  obtain ⟨l, listed, h⟩ := shows i e there
  obtain ⟨address, sum, shown⟩ := h.single system config
  exact ⟨l, address, listed, sum, h.name, h.offset, shown⟩

/-! A manifest of one entry -/

/-- A region of one page is mapped, if the system grants it. -/
theorem map_of_page {size : UInt64} {grants : UInt64 → Bool} (positive : size ≠ 0)
    (rounded : Region.roundUp? Region.pageSize size = some 4096) (granted : grants 4096 = true) :
    Region.map size Region.pageSize grants = .ok ⟨.filled 4096 0⟩ := by
  simp only [Region.map, if_neg positive, rounded, if_pos granted]

/-- The only entry of a manifest is shown at the base address, and no address is beyond that. -/
theorem ofManifest_entry {e : Manifest.Entry} {position : Position} {system : System}
    (found : Position.ofIndex? e.position.toNat = some position)
    (granted : system.grants 4096 = true) (config : Config) :
    ofManifest system ⟨[e]⟩ config = .ok (.ok [make e.name position e.target e.value 0
      (config.base.getD system.region) (Trampoline.bytes e.target e.value position)]) := by
  have flawless : (⟨[e]⟩ : Manifest).flaw? = none := by
    simp [Manifest.flaw?, Manifest.flawAfter?, found]
  have mapped : Region.map 45 Region.pageSize system.grants = .ok ⟨.filled 4096 0⟩ :=
    map_of_page (by decide) (by decide) granted
  obtain ⟨u, laid, matching, built⟩ := ofManifest_of_flawless flawless rfl mapped config
  let base := config.base.getD system.region
  obtain ⟨made, _, same, none, entries⟩ := List.forall₂_cons_left_iff.1 matching
  obtain rfl := List.forall₂_nil_left_iff.1 none
  have among : made ∈ u.entries := entries ▸ List.mem_singleton_self made
  have placed : made.offset = 0 := laid.placed 0 made (entries ▸ rfl)
  have bound : made.position = position := Option.some.inj (same.position.symm.trans found)
  have word : Word.ofNat? (base.toNat + made.offset) = some base :=
    Word.ofNat?_eq_some.2 (by rw [placed, Nat.add_zero])
  have shown : ofEntry u base made = .ok (make e.name position e.target e.value 0 base
      (Trampoline.bytes e.target e.value position)) := by
    rw [← same.name, ← bound, ← same.function, ← same.argument, ← placed, ofEntry_eq laid among,
      word]
    rfl
  rw [built, entries, List.mapM_cons, shown]
  rfl

section

variable {target value index base : UInt64} {system : System} {config : Config}
  (granted : system.grants 4096 = true)
include granted

theorem ofManifest_alone_of_position {position : Position} {l : Listing}
    (found : Position.ofIndex? index.toNat = some position)
    (shown : single system target value index { config with base := some base } = .ok (.ok l)) :
    ofManifest system (alone target value index) { config with base := some base } =
      .ok (.ok [l]) := by
  rw [single_of_position found] at shown
  cases shown
  exact ofManifest_entry found granted _

theorem ofManifest_alone_of_no_position (lacking : ¬ (index = 2 ∨ index = 3 ∨ index = 4)) :
    ofManifest system (alone target value index) config =
      .ok (.error (.entry "trampoline" (.bind (.noPosition index.toNat)))) := by
  have first : Manifest.FirstBlamed (alone target value index) []
      ⟨"trampoline", target, value, index⟩ _ _ :=
    ⟨⟨[], rfl⟩, fun _ => nofun, List.nodup_nil, .position lacking⟩
  have required : Table.requiredSize? 1 = some 45 := by decide
  have created : Table.create 1 system.grants =
      .ok (.ok { region := ⟨.filled 4096 0⟩, capacity := 1 }) :=
    Table.create_of_map required (map_of_page (by decide) (by decide) granted)
  obtain ⟨-, u, refused⟩ := stops_of_firstBlamed rfl created first
  exact ofManifest_of_pushAll rfl created config refused

end

/-- A trampoline by itself is shown just if its position exists, whatever its scratch buffer is
filled with; there is no fault and no shortage. If it is said where the code is loaded, the manifest
of this one trampoline has the same listing, or fails with the same text behind the name, as long as
the system grants a page. Each listing of a manifest is, but for name and offset, that of its entry
by itself at the address of the entry. -/
theorem single_agrees_with_manifest (system : System) (target value index base : UInt64)
    (config : Config) :
    let based : Config := { config with base := some base }
    ((∃ l, single system target value index config = .ok (.ok l)) ↔
      index = 2 ∨ index = 3 ∨ index = 4) ∧
    (∀ f, single system target value index config ≠ .error f) ∧
    (∀ e, single system target value index config = .ok (.error e) ↔
      ¬ (index = 2 ∨ index = 3 ∨ index = 4) ∧ e = .noPosition index.toNat) ∧
    (∀ fill, single system target value index { config with fill } =
      single system target value index config) ∧
    (system.grants 4096 = true →
      (∀ l, single system target value index based = .ok (.ok l) →
        ofManifest system (alone target value index) based = .ok (.ok [l])) ∧
      ∀ e, single system target value index based = .ok (.error e) →
        ∃ cause, ofManifest system (alone target value index) based = .ok (.error cause) ∧
          cause.message = "trampoline 'trampoline': " ++ e.message) ∧
    ∀ (m : Manifest) (listings : List Listing), ofManifest system m based = .ok (.ok listings) →
      listings.length = m.entries.length ∧
      ∀ (i : Nat) (e : Manifest.Entry), m.entries[i]? = some e →
        ∃ (l : Listing) (address : UInt64), listings[i]? = some l ∧
          address.toNat = base.toNat + 30 * i ∧ l.name = e.name ∧ l.offset = 30 * i ∧
          single system e.target e.value e.position { config with base := some address } =
            .ok (.ok { l with name := "trampoline", offset := 0 }) := by
  intro based
  obtain ⟨position, found, shown⟩ | ⟨lacking, refused⟩ :=
    single_cases system target value index config
  · have bindable := (Position.exists_ofIndex?_iff index).1 ⟨position, found⟩
    refine ⟨iff_of_true ⟨_, shown⟩ bindable, by simp [shown], by simp [shown, bindable],
      fun fill => shown ▸ single_of_position found,
      fun granted => ⟨fun l shown' => ofManifest_alone_of_position granted found shown',
        fun e failed => ?_⟩, fun m listings built => listed_alone built⟩
    rw [single_of_position found] at failed
    cases failed
  · refine ⟨by simp [refused, lacking], by simp [refused], by simp [refused, lacking, eq_comm],
      fun fill => refused ▸ single_of_no_position lacking,
      fun granted => ⟨fun l shown => ?_, fun e failed => ?_⟩,
      fun m listings built => listed_alone built⟩
    · rw [single_of_no_position lacking] at shown
      cases shown
    · rw [single_of_no_position lacking] at failed
      cases failed
      exact ⟨_, ofManifest_alone_of_no_position granted lacking, rfl⟩

end Listing
end Prebind
