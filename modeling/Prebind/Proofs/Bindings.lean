import Prebind.Proofs.Emission

/-!
The two ways to write a trampoline. One finds out whether there is room before it starts, the other
by losing the margin on its way. They agree in any state: where the one writes, so does the other,
to the same effect, and where the one refuses, the other meets a fault.
-/

namespace Prebind
namespace Assembler

variable {function argument index : UInt64} {a : Assembler}

/-! Room -/

/-- A trampoline that is not written meets a fault. -/
theorem emitTrampoline_of_short {position : Position}
    (short : a.cursor.remaining < Trampoline.size) :
    ∃ f b, emitTrampoline function argument position a = .error f b := by
  cases written : emitTrampoline function argument position a with
  | error f b => exact ⟨f, b, rfl⟩
  | ok entry b =>
      have room := (Cursor.le_remaining_iff (by decide)).2 (emitTrampoline_eq_ok written).1
      omega

theorem position_of_bind {entry : UInt64} {b : Assembler}
    (written : bind function argument index a = .ok entry b) :
    entry = a.cursor.position ∧
      b.cursor.position.toNat = a.cursor.position.toNat + Trampoline.size := by
  cases hp : Position.ofIndex? index.toNat with
  | none =>
      rw [bind_of_no_position _ hp] at written
      cases written
  | some position =>
      rw [bind_of_position hp] at written
      obtain ⟨room, place, put⟩ := emitTrampoline_eq_ok written
      have size := Trampoline.length_bytes function argument position
      refine ⟨place, ?_⟩
      rw [put, Cursor.position_put (by omega), size]

/-- The fallible binding grants what the other binding does, refuses what the other faults over, and
has no third way to end. -/
theorem tryBind_cases (function argument index : UInt64) (a : Assembler) :
    (∃ entry b, tryBind function argument index a = .ok (.ok entry) b ∧
      bind function argument index a = .ok entry b) ∨
    (∃ e f b, tryBind function argument index a = .ok (.error e) a ∧
      bind function argument index a = .error f b) := by
  cases hp : Position.ofIndex? index.toNat with
  | none => exact .inr ⟨_, _, _, tryBind_of_no_position a hp, bind_of_no_position a hp⟩
  | some position =>
      rw [bind_of_position hp]
      by_cases room : Trampoline.size ≤ a.cursor.remaining
      · have enough := (Cursor.le_remaining_iff (by decide)).1 room
        exact .inl ⟨_, _, tryBind_of_room hp room, emitTrampoline_of_room enough⟩
      · have short := Nat.lt_of_not_le room
        obtain ⟨f, b, fault⟩ : ∃ f b, emitTrampoline function argument position a = .error f b :=
          emitTrampoline_of_short short
        exact .inr ⟨_, f, b, tryBind_of_shortage hp short, fault⟩

/-! Refusals -/

variable {e : BindError} {b : Assembler}

theorem tryBind_eq_error_iff_of_not_bindable (h : ¬ (index = 2 ∨ index = 3 ∨ index = 4)) :
    tryBind function argument index a = .ok (.error e) b ↔
      e = .noPosition index.toNat ∧ b = a := by
  have none : Position.ofIndex? index.toNat = none := by
    rw [← Position.exists_ofIndex?_iff] at h
    exact Option.eq_none_iff_forall_ne_some.2 fun p found => h ⟨p, found⟩
  rw [tryBind_of_no_position a none]
  constructor
  · intro same
    cases same
    exact ⟨rfl, rfl⟩
  · rintro ⟨rfl, rfl⟩
    rfl

theorem tryBind_eq_error_iff_of_bindable (h : index = 2 ∨ index = 3 ∨ index = 4) :
    tryBind function argument index a = .ok (.error e) b ↔
      a.cursor.buffer.length <
        a.cursor.position.toNat + Trampoline.size + Instruction.maxLength ∧
      e = .shortage ⟨Trampoline.size, a.cursor.remaining⟩ ∧ b = a := by
  obtain ⟨p, found⟩ := (Position.exists_ofIndex?_iff index).2 h
  rw [← Nat.not_le, ← Cursor.le_remaining_iff (by decide)]
  by_cases room : Trampoline.size ≤ a.cursor.remaining
  · rw [tryBind_of_room found room]
    exact ⟨fun same => (by cases same), fun refused => absurd room refused.1⟩
  · rw [tryBind_of_shortage found (Nat.lt_of_not_le room)]
    constructor
    · intro same
      cases same
      exact ⟨room, rfl, rfl⟩
    · rintro ⟨-, rfl, rfl⟩
      rfl

/-- In any state, wherever its cursor stands, the fallible binding answers without a fault, and it
answers with an error just where the other binding meets a fault. The error tells of the position if
there is none, else of the room if the trampoline and the margin behind it do not fit, and leaves
all as it was. Without an error both bindings give the place of the cursor and leave the same state
behind. -/
theorem tryBind_agrees_with_bind (function argument index : UInt64) (a : Assembler) :
    let length := a.cursor.buffer.length
    let position := a.cursor.position.toNat
    let bindable := index = 2 ∨ index = 3 ∨ index = 4
    let available := (max 0 ((length : Int) - 15 - position)).toNat
    (∃ answer b, tryBind function argument index a = .ok answer b) ∧
    ((∃ e b, tryBind function argument index a = .ok (.error e) b) ↔
      ∃ f b, bind function argument index a = .error f b) ∧
    (¬ bindable → ∀ e b, tryBind function argument index a = .ok (.error e) b ↔
      e = .noPosition index.toNat ∧ b = a) ∧
    (bindable → ∀ e b, tryBind function argument index a = .ok (.error e) b ↔
      length < position + 45 ∧ e = .shortage ⟨30, available⟩ ∧ b = a) ∧
    ∀ entry b, tryBind function argument index a = .ok (.ok entry) b →
      bind function argument index a = .ok entry b ∧ entry = a.cursor.position ∧
        b.cursor.position.toNat = position + 30 := by
  intro length position bindable available
  have counted : a.cursor.remaining = available := by
    simp only [available, length, position, Cursor.remaining, Instruction.maxLength]
    omega
  have unbindable (h : ¬ bindable) (e : BindError) (b : Assembler) :
      tryBind function argument index a = .ok (.error e) b ↔
        e = .noPosition index.toNat ∧ b = a :=
    tryBind_eq_error_iff_of_not_bindable h
  have short (h : bindable) (e : BindError) (b : Assembler) :
      tryBind function argument index a = .ok (.error e) b ↔
        length < position + 45 ∧ e = .shortage ⟨30, available⟩ ∧ b = a := by
    rw [← counted]
    exact tryBind_eq_error_iff_of_bindable h
  obtain ⟨entry, b, granted, written⟩ | ⟨e, f, b, refused, fault⟩ :=
    tryBind_cases function argument index a
  · refine ⟨⟨_, _, granted⟩, iff_of_false ?_ ?_, unbindable, short, ?_⟩
    · rintro ⟨e, c, refused⟩
      rw [granted] at refused
      cases refused
    · rintro ⟨f, c, fault⟩
      rw [written] at fault
      cases fault
    · intro entry' c same
      rw [granted] at same
      cases same
      exact ⟨written, position_of_bind written⟩
  · refine ⟨⟨_, _, refused⟩, iff_of_true ⟨e, a, refused⟩ ⟨f, b, fault⟩, unbindable, short, ?_⟩
    intro entry c granted
    rw [refused] at granted
    cases granted

end Assembler
end Prebind
