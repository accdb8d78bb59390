import Prebind.Proofs.Writing

/-!
Asking for room before anything is written. The room is counted by subtractions that stop at zero,
while a move looks for the margin behind it, by sums that may be no words. The two agree wherever
the cursor stands, except that moving by nothing asks for a margin and no room.
-/

namespace Prebind
namespace Cursor

variable {c : Cursor}

theorem ensure_eq_ok_iff {n : Nat} : c.ensure n = .ok () ↔ n ≤ c.remaining := by
  rw [ensure]
  split <;> simp_all

theorem ensure_eq_error_iff {n : Nat} {s : Shortage} :
    c.ensure n = .error s ↔ c.remaining < n ∧ s = ⟨n, c.remaining⟩ := by
  rw [ensure]
  split
  · next room => exact iff_of_false nofun fun short => Nat.not_lt.2 room short.1
  · next short =>
    rw [Except.error.injEq, eq_comm]
    exact (and_iff_right (Nat.lt_of_not_le short)).symm

/-- What is refused is refused over the greatest room that is granted. -/
theorem isGreatest_of_shortage {n : Nat} {s : Shortage} (refused : c.ensure n = .error s) :
    c.ensure s.available = .ok () ∧ ∀ m, c.ensure m = .ok () → m ≤ s.available := by
  obtain ⟨-, rfl⟩ := ensure_eq_error_iff.1 refused
  exact ⟨ensure_eq_ok_iff.2 (Nat.le_refl _), fun m granted => ensure_eq_ok_iff.1 granted⟩

theorem advance_eq_ok_iff {size : UInt64} :
    (∃ d, advance size c = .ok () d) ↔
      c.position.toNat + size.toNat + Instruction.maxLength ≤ c.buffer.length := by
  have small := c.buffer.length_lt
  by_cases sum : c.position.toNat + size.toNat < UInt64.size
  · rw [advance_of_sum sum, ← Word.toNat_add_of_lt sum]
    dsimp only
    split
    · next margin => exact iff_of_true ⟨_, rfl⟩ margin
    · next lost => exact iff_of_false nofun lost
  · rw [advance_of_overflow (Nat.le_of_not_lt sum)]
    exact iff_of_false nofun (by omega)

theorem write_eq_ok_iff {bytes : List UInt8} :
    (∃ d, write bytes c = .ok () d) ↔
      c.position.toNat + bytes.length + Instruction.maxLength ≤ c.buffer.length :=
  ⟨fun ⟨_, written⟩ => (write_eq_ok written).1, fun room => ⟨_, write_of_room room⟩⟩

/-- An action faults just if it does not end normally. -/
theorem exists_fault_iff {α : Type} {x : Action α} :
    (∃ f d, x c = .error f d) ↔ ¬ ∃ r d, x c = .ok r d := by
  cases x c with
  | ok r d => exact iff_of_false nofun (not_not_intro ⟨r, d, rfl⟩)
  | error f d => exact iff_of_true ⟨f, d, rfl⟩ nofun

/-- In any state, wherever the cursor stands, room for at least one byte is granted just if a move
by as many bytes keeps the margin, and just if writing any such bytes does. A refusal tells what was
asked for and the greatest room that is granted. Room for nothing is always granted, but a move by
nothing and a write of nothing fault where there is no margin. -/
theorem ensure_agrees_with_margin (c : Cursor) (n : UInt64) :
    (1 ≤ n.toNat →
      (c.ensure n.toNat = .ok () ↔ ∃ d, advance n c = .ok () d) ∧
      ∀ bytes : List UInt8, bytes.length = n.toNat →
        (c.ensure n.toNat = .ok () ↔ ∃ d, write bytes c = .ok () d)) ∧
    (∀ s, c.ensure n.toNat = .error s → s.requested = n.toNat ∧
      c.ensure s.available = .ok () ∧ ∀ m, c.ensure m = .ok () → m ≤ s.available) ∧
    c.ensure 0 = .ok () ∧
    ((∃ f d, advance 0 c = .error f d) ↔
      c.buffer.length < c.position.toNat + Instruction.maxLength) ∧
    ((∃ f d, write [] c = .error f d) ↔
      c.buffer.length < c.position.toNat + Instruction.maxLength) := by
  refine ⟨fun some => ⟨?_, fun bytes size => ?_⟩, fun s refused => ⟨?_, ?_⟩, ?_, ?_, ?_⟩
  · rw [ensure_eq_ok_iff, advance_eq_ok_iff, le_remaining_iff some]
  · rw [ensure_eq_ok_iff, write_eq_ok_iff, size, le_remaining_iff some]
  · rw [(ensure_eq_error_iff.1 refused).2]
  · exact isGreatest_of_shortage refused
  · exact ensure_eq_ok_iff.2 (Nat.zero_le _)
  · rw [exists_fault_iff, ← Nat.not_le]
    exact not_congr (exists_const Unit |>.trans advance_eq_ok_iff)
  · rw [exists_fault_iff, ← Nat.not_le]
    exact not_congr (exists_const Unit |>.trans write_eq_ok_iff)

end Cursor
end Prebind
