import Mathlib.Data.List.Forall2
import Prebind.Listing
import Prebind.Manifest.Reader
import Prebind.Proofs.Pushes

/-!
Listings of a manifest that has been read. The manifest is valid, so that the table takes each of
its entries; the table is laid out, so that each of its entries has code. All that is left to go
wrong is the address of an entry, which may be no word.
-/

namespace Prebind

/-! Lists of answers -/

section Answers

variable {α β ε : Type} {f : α → Except ε β}

theorem bind_eq_ok_iff {x : Except ε α} {b : β} :
    (x >>= f) = .ok b ↔ ∃ a, x = .ok a ∧ f a = .ok b := by
  cases x with
  | ok a =>
      constructor
      · exact fun h => ⟨a, rfl, h⟩
      · rintro ⟨_, same, h⟩
        cases same
        exact h
  | error e =>
      constructor
      · nofun
      · rintro ⟨_, same, -⟩
        cases same

theorem mapM_eq_ok_iff {R : α → β → Prop} {xs : List α} {ys : List β}
    (h : ∀ x ∈ xs, ∀ y, f x = .ok y ↔ R x y) : xs.mapM f = .ok ys ↔ List.Forall₂ R xs ys := by
  induction xs generalizing ys with
  | nil =>
      rw [List.mapM_nil, List.forall₂_nil_left_iff]
      exact ⟨fun same => (Except.ok.inj same).symm, fun none => congrArg Except.ok none.symm⟩
  | cons x xs ih =>
      obtain ⟨first, others⟩ := List.forall_mem_cons.1 h
      rw [List.mapM_cons, bind_eq_ok_iff, List.forall₂_cons_left_iff]
      constructor
      · rintro ⟨y, read, rest⟩
        obtain ⟨zs, more, same⟩ := bind_eq_ok_iff.1 rest
        exact ⟨y, zs, (first y).1 read, (ih others).1 more, (Except.ok.inj same).symm⟩
      · rintro ⟨y, zs, related, more, rfl⟩
        exact ⟨y, (first y).2 related, bind_eq_ok_iff.2 ⟨zs, (ih others).2 more, rfl⟩⟩

/-- The error is that of the first element that has one. -/
theorem mapM_eq_error {xs : List α} {e : ε} (h : xs.mapM f = .error e) :
    ∃ (i : Nat) (x : α), xs[i]? = some x ∧ f x = .error e ∧
      ∀ j < i, ∀ z, xs[j]? = some z → ∃ y, f z = .ok y := by
  induction xs with
  | nil => cases h
  | cons x rest ih =>
      rw [List.mapM_cons] at h
      cases first : f x with
      | error e' =>
          rw [first] at h
          cases h
          exact ⟨0, x, rfl, first, fun j hj => absurd hj (Nat.not_lt_zero j)⟩
      | ok y =>
          cases others : rest.mapM f with
          | ok zs =>
              rw [first, others] at h
              cases h
          | error e' =>
              rw [first, others] at h
              cases h
              obtain ⟨i, z, there, failed, before⟩ := ih others
              refine ⟨i + 1, z, there, failed, fun j hj w hw => ?_⟩
              cases j with
              | zero =>
                  cases hw
                  exact ⟨y, first⟩
              | succ j => exact before j (Nat.lt_of_succ_lt_succ hj) w hw

end Answers

/-! Manifests without a flaw -/

namespace Manifest

theorem flaw?_of_parse {text : String} {m : Manifest} (h : parse text = .ok m) :
    m.flaw? = none := by
  obtain ⟨_, _, _, valid⟩ := parse_eq_ok_iff.1 h
  exact validate_eq_ok.1 valid

end Manifest

namespace Listing

/-- A table's entry is what a manifest's entry asks for. -/
structure Made (e : Manifest.Entry) (made : Table.Entry) : Prop where
  name : made.name = e.name
  function : made.function = e.target
  argument : made.argument = e.value
  position : Position.ofIndex? e.position.toNat = some made.position

/-- A table with room takes every entry of a list that has no flaw behind its own names. -/
theorem pushAll_of_flawless {names : List String} {entries : List Manifest.Entry} {t : Table}
    (h : t.WellFormed) (known : ∀ e ∈ t.entries, e.name ∈ names)
    (flawless : Manifest.flawAfter? names entries = none)
    (room : t.entries.length + entries.length ≤ t.capacity.toNat) :
    ∃ u made, pushAll entries t = .ok (.ok ()) u ∧ u.WellFormed ∧ u.entries = t.entries ++ made ∧
      List.Forall₂ Made entries made := by
  induction entries generalizing names t with
  | nil => exact ⟨t, [], rfl, h, (List.append_nil _).symm, .nil⟩
  | cons e rest ih =>
      obtain ⟨⟨position, bindable⟩, fresh, later⟩ := Manifest.flawAfter?_cons_eq_none.1 flawless
      rw [List.length_cons] at room
      have free : t.entries.length ≠ t.capacity.toNat := by omega
      -- The names that the check has seen cover those of the table.
      have apart : ∀ other ∈ t.entries, other.name ≠ e.name :=
        fun other among same => fresh (same ▸ known other among)
      obtain ⟨pushed, extended⟩ := h.push_of_fresh e.target e.value bindable free apart
      let first : Table.Entry :=
        ⟨e.name, e.target, e.value, position, t.entries.length * Trampoline.size⟩
      let next := t.extend e.name e.target e.value position
      have grown : next.entries = t.entries ++ [first] := rfl
      have known' : ∀ other ∈ next.entries, other.name ∈ e.name :: names := by
        intro other among
        rw [grown, List.mem_append, List.mem_singleton] at among
        obtain among | rfl := among
        · exact List.mem_cons_of_mem _ (known other among)
        · exact List.mem_cons_self
      have room' : next.entries.length + rest.length ≤ next.capacity.toNat := by
        rw [grown, List.length_append, List.length_singleton, Nat.add_assoc, Nat.add_comm 1]
        exact room
      obtain ⟨u, made, others, laid, entries, matching⟩ := ih extended known' later room'
      refine ⟨u, first :: made, ?_, laid, ?_, .cons ⟨rfl, rfl, rfl, bindable⟩ matching⟩
      · simp only [pushAll, pushed]
        exact others
      · rw [entries, grown, List.append_assoc]
        rfl

/-- On a table with this layout, all that can go wrong with an entry is its address. -/
theorem ofEntry_eq {t : Table} (h : t.WellFormed) {e : Table.Entry} (he : e ∈ t.entries)
    (base : UInt64) :
    ofEntry t base e =
      match Word.ofNat? (base.toNat + e.offset) with
      | none => .error (.address e.name base e.offset)
      | some address =>
        .ok (make e.name e.position e.function e.argument e.offset address e.code) := by
  cases located : Word.ofNat? (base.toNat + e.offset) with
  | none => simp only [ofEntry, located]
  | some address => simp only [ofEntry, located, h.code?_of_mem he]

/-- A listing shows an entry of a manifest, the one at place `i` from a base address on. -/
structure Shows (l : Listing) (e : Manifest.Entry) (base : UInt64) (i : Nat) : Prop where
  name : l.name = e.name
  target : l.target = Address.render e.target
  value : l.value = Address.render e.value
  offset : l.offset = 30 * i
  address : ∃ address : UInt64, address.toNat = base.toNat + 30 * i ∧
    l.address = Address.render address
  bound : ∃ position, Position.ofIndex? e.position.toNat = some position ∧
    l.position = e.position.toNat ∧ l.register = position.register.name ∧
    l.bytes = Hex.spaced (Trampoline.bytes e.target e.value position)

theorem ofEntry_of_overflow {t : Table} (h : t.WellFormed) {e : Manifest.Entry}
    {made : Table.Entry} (matching : Made e made) {i : Nat} (there : t.entries[i]? = some made)
    {base : UInt64} (beyond : UInt64.size ≤ base.toNat + 30 * i) :
    ofEntry t base made = .error (.address e.name base (30 * i)) := by
  have placed : made.offset = 30 * i := h.placed i made there
  have none : Word.ofNat? (base.toNat + 30 * i) = none := Word.ofNat?_eq_none.2 beyond
  rw [ofEntry_eq h (List.mem_of_getElem? there), placed, none, matching.name]

theorem ofEntry_of_word {t : Table} (h : t.WellFormed) {e : Manifest.Entry}
    {made : Table.Entry} (matching : Made e made) {i : Nat} (there : t.entries[i]? = some made)
    {base : UInt64} (fits : base.toNat + 30 * i < UInt64.size) :
    ∃ l, ofEntry t base made = .ok l ∧ l.Shows e base i := by
  have placed : made.offset = 30 * i := h.placed i made there
  have located : Word.ofNat? (base.toNat + 30 * i) = some (.ofNat (base.toNat + 30 * i)) :=
    if_pos fits
  have index := Position.ofIndex?_eq_some.1 matching.position
  refine ⟨_, by rw [ofEntry_eq h (List.mem_of_getElem? there), placed, located], ?_⟩
  exact {
    name := matching.name
    target := congrArg Address.render matching.function
    value := congrArg Address.render matching.argument
    offset := rfl
    address := ⟨_, Word.ofNat?_eq_some.1 located, rfl⟩
    bound := by
      refine ⟨_, matching.position, index.symm, rfl, ?_⟩
      rw [← matching.function, ← matching.argument]
      rfl }

/-! All entries of a table -/

section

variable {entries : List Manifest.Entry} {t : Table} {base : UInt64}

theorem overflow_of_mapM {cause : BuildError} (h : t.WellFormed)
    (matching : List.Forall₂ Made entries t.entries)
    (failed : t.entries.mapM (ofEntry t base) = .error cause) :
    ∃ (i : Nat) (e : Manifest.Entry), entries[i]? = some e ∧
      cause = .address e.name base (30 * i) ∧ UInt64.size ≤ base.toNat + 30 * i ∧
        ∀ j < i, base.toNat + 30 * j < UInt64.size := by
  obtain ⟨i, made, there, answer, before⟩ := mapM_eq_error failed
  obtain ⟨e, asked, same⟩ := getElem?_of_forall₂ matching.flip there
  have beyond : UInt64.size ≤ base.toNat + 30 * i := by
    refine Nat.not_lt.1 fun fits => ?_
    obtain ⟨l, shown, -⟩ := ofEntry_of_word h same there fits
    rw [shown] at answer
    cases answer
  rw [ofEntry_of_overflow h same there beyond] at answer
  refine ⟨i, e, asked, (Except.error.inj answer).symm, beyond, fun j hj => ?_⟩
  refine Nat.not_le.1 fun beyond' => ?_
  have inside : j < t.entries.length :=
    Nat.lt_trans hj (List.getElem?_eq_some_iff.1 there).1
  have there' : t.entries[j]? = some t.entries[j] := List.getElem?_eq_getElem inside
  obtain ⟨e', -, same'⟩ := getElem?_of_forall₂ matching.flip there'
  obtain ⟨l, shown⟩ := before j hj _ there'
  rw [ofEntry_of_overflow h same' there' beyond'] at shown
  cases shown

theorem shows_of_mapM {listings : List Listing} (h : t.WellFormed)
    (matching : List.Forall₂ Made entries t.entries)
    (shown : t.entries.mapM (ofEntry t base) = .ok listings) :
    listings.length = entries.length ∧ ∀ (i : Nat) (e : Manifest.Entry),
      entries[i]? = some e → ∃ l, listings[i]? = some l ∧ l.Shows e base i := by
  have answers := (mapM_eq_ok_iff fun _ _ _ => Iff.rfl).1 shown
  refine ⟨answers.length_eq.symm.trans matching.length_eq.symm, fun i e asked => ?_⟩
  obtain ⟨made, there, same⟩ := getElem?_of_forall₂ matching asked
  obtain ⟨l, listed, answer⟩ := getElem?_of_forall₂ answers there
  refine ⟨l, listed, ?_⟩
  obtain fits | beyond := Nat.lt_or_ge (base.toNat + 30 * i) (UInt64.size)
  · obtain ⟨l', answer', shows⟩ := ofEntry_of_word h same there fits
    cases Except.ok.inj (answer.symm.trans answer')
    exact shows
  · rw [ofEntry_of_overflow h same there beyond] at answer
    cases answer

theorem mapM_fails_iff (h : t.WellFormed) (matching : List.Forall₂ Made entries t.entries) :
    (∃ cause, t.entries.mapM (ofEntry t base) = .error cause) ↔
      1 ≤ entries.length ∧ UInt64.size ≤ base.toNat + 30 * (entries.length - 1) := by
  constructor
  · rintro ⟨cause, failed⟩
    obtain ⟨i, e, there, -, beyond, -⟩ := overflow_of_mapM h matching failed
    have inside : i < entries.length := (List.getElem?_eq_some_iff.1 there).1
    omega
  · rintro ⟨some, beyond⟩
    cases result : t.entries.mapM (ofEntry t base) with
    | error cause => exact ⟨cause, rfl⟩
    | ok listings =>
        obtain ⟨l, -, shows⟩ := (shows_of_mapM h matching result).2
          (entries.length - 1) _ (List.getElem?_eq_getElem (by omega))
        obtain ⟨address, sum, -⟩ := shows.address
        have bound := address.toNat_lt_size
        omega

end

/-- The table of a manifest without a flaw, if its region can be mapped. -/
theorem table_of_flawless {m : Manifest} {size : UInt64} {grants : UInt64 → Bool}
    {region : Region .writable} (flawless : m.flaw? = none)
    (needed : size.toNat = 30 * m.entries.length + 15)
    (mapped : Region.map size Region.pageSize grants = .ok region) :
    ∃ t u, Table.create (.ofNat m.entries.length) grants = .ok (.ok t) ∧
      pushAll m.entries t = .ok (.ok ()) u ∧ u.WellFormed ∧
        List.Forall₂ Made m.entries u.entries := by
  have small := size.toNat_lt_size
  have count : (UInt64.ofNat m.entries.length).toNat = m.entries.length :=
    UInt64.toNat_ofNat_of_lt' (by omega)
  have required : Table.requiredSize? (.ofNat m.entries.length) = some size := by
    apply Table.requiredSize?_eq_some
    rw [count]
    exact needed
  have created := Table.create_of_map required mapped
  obtain ⟨wellFormed, -, -⟩ := Table.wellFormed_of_create created
  obtain ⟨u, made, pushed, laid, entries, matching⟩ :=
    pushAll_of_flawless wellFormed (fun _ => nofun) flawless
      (by rw [count]; exact Nat.le_of_eq (Nat.zero_add _))
  rw [List.nil_append] at entries
  exact ⟨_, u, created, pushed, laid, entries ▸ matching⟩

/-- The listings of a manifest without a flaw come from its table, if the region can be mapped. -/
theorem ofManifest_of_flawless {m : Manifest} {system : System} {size : UInt64}
    {region : Region .writable} (flawless : m.flaw? = none)
    (needed : size.toNat = 30 * m.entries.length + 15)
    (mapped : Region.map size Region.pageSize system.grants = .ok region) (config : Config) :
    ∃ t : Table, t.WellFormed ∧ List.Forall₂ Made m.entries t.entries ∧
      ofManifest system m config =
        .ok (t.entries.mapM (ofEntry t (config.base.getD system.region))) := by
  obtain ⟨t, u, created, pushed, laid, matching⟩ := table_of_flawless flawless needed mapped
  refine ⟨u, laid, matching, ?_⟩
  simp only [ofManifest, created, pushed]

/-- A manifest that has been read is made into listings of all its entries in order, unless the
address of an entry is no word. Then the first such entry is named. There is no fault and no other
error, if only the region of the table can be mapped. The addresses start where the code is said to
be loaded, or at the region if nothing is said. -/
theorem shown_or_address_of_parse {text : String} {m : Manifest} {system : System} {config : Config}
    {base size : UInt64} {region : Region .writable}
    (parsed : Manifest.parse text = .ok m) (based : config.base.getD system.region = base)
    (needed : size.toNat = 30 * m.entries.length + 15)
    (mapped : Region.map size Region.pageSize system.grants = .ok region) :
    ∃ result, ofManifest system m config = .ok result ∧
      ((∃ cause, result = .error cause) ↔
        1 ≤ m.entries.length ∧ UInt64.size ≤ base.toNat + 30 * (m.entries.length - 1)) ∧
      (∀ cause, result = .error cause → ∃ (i : Nat) (e : Manifest.Entry),
        m.entries[i]? = some e ∧ cause = .address e.name base (30 * i) ∧
          UInt64.size ≤ base.toNat + 30 * i ∧ ∀ j < i, base.toNat + 30 * j < UInt64.size) ∧
      ∀ listings, result = .ok listings → listings.length = m.entries.length ∧
        ∀ (i : Nat) (e : Manifest.Entry), m.entries[i]? = some e →
          ∃ l, listings[i]? = some l ∧ l.Shows e base i := by
  obtain ⟨t, laid, matching, built⟩ :=
    ofManifest_of_flawless (Manifest.flaw?_of_parse parsed) needed mapped config
  rw [based] at built
  exact ⟨_, built, mapM_fails_iff laid matching, fun _ => overflow_of_mapM laid matching,
    fun _ => shows_of_mapM laid matching⟩

theorem shown_or_address_of_parse_near_the_top :
    let m : Manifest := ⟨[⟨"a", 1, 2, 3⟩, ⟨"b", 4, 5, 2⟩]⟩
    let config : Config := { base := some 0xFFFFFFFFFFFFFFF0 }
    Manifest.parse "trampoline = [['a', 1, 2, 3], ['b', '0x4', 5, 2]]" = .ok m ∧
      ofManifest .bare m config = .ok (.error (.address "b" 0xFFFFFFFFFFFFFFF0 30)) := by
  intro m config
  have parsed : Manifest.parse "trampoline = [['a', 1, 2, 3], ['b', '0x4', 5, 2]]" = .ok m := rfl
  have based : config.base.getD System.bare.region = 0xFFFFFFFFFFFFFFF0 := rfl
  have mapped : Region.map 75 Region.pageSize System.bare.grants = .ok ⟨.filled 4096 0⟩ := rfl
  obtain ⟨result, built, fails, named, -⟩ :=
    shown_or_address_of_parse parsed based (by decide) mapped
  obtain ⟨cause, failed⟩ := fails.2 (by decide)
  refine ⟨parsed, ?_⟩
  rw [built, failed]
  obtain ⟨i, e, there, rfl, beyond, -⟩ := named cause failed
  match i, there, beyond with
  | 0, _, beyond => exact absurd beyond (by decide)
  | 1, there, _ =>
      cases there
      rfl

end Listing
end Prebind
