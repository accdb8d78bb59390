import Prebind.Proofs.TableLayout

/-!
Making a table for a number of trampolines. The region that they need is measured in words, and
there are three borders: a size that is no word is a fault, a size that is no word any more once it
is rounded up to whole pages is refused as such, and pages that the system does not grant are
refused by the allocation. Else there is a table, with room for all its trampolines.
-/

namespace Prebind
namespace Table

/-- The bytes that trampolines need, margin included, as a number of any size. -/
def neededSize (capacity : Nat) : Nat :=
  Trampoline.size * capacity + Instruction.maxLength

/-- The bytes of the pages that hold them. -/
def mappedSize (capacity : Nat) : Nat :=
  Region.wholePages Region.pageSize.toNat (neededSize capacity)

theorem neededSize_le_mappedSize (capacity : Nat) : neededSize capacity ≤ mappedSize capacity :=
  Region.le_wholePages (by decide) _

theorem requiredSize?_eq (capacity : UInt64) :
    requiredSize? capacity = Word.ofNat? (neededSize capacity.toNat) := by
  by_cases fits : neededSize capacity.toNat < UInt64.size
  · have needed : (UInt64.ofNat (neededSize capacity.toNat)).toNat = neededSize capacity.toNat :=
      UInt64.toNat_ofNat_of_lt' fits
    rw [requiredSize?_eq_some needed, Word.ofNat?, if_pos fits]
  · rw [Word.ofNat?, if_neg fits]
    -- Whatever the product and the sum come to is the size that is no word.
    refine Option.eq_none_iff_forall_ne_some.2 fun size required => fits ?_
    obtain ⟨product, multiplied, added⟩ := Option.bind_eq_some_iff.1 required
    have hproduct : product.toNat = capacity.toNat * Trampoline.size :=
      Word.ofNat?_eq_some.1 multiplied
    have hsize : size.toNat = product.toNat + Instruction.maxLength := Word.add?_eq_some.1 added
    have bound := size.toNat_lt_size
    rwa [hsize, hproduct, Nat.mul_comm] at bound

variable {capacity : UInt64} {grants : UInt64 → Bool}

/-- Making a table in one equation. -/
theorem create_eq (capacity : UInt64) (grants : UInt64 → Bool) :
    create capacity grants =
      if UInt64.size ≤ neededSize capacity.toNat then .error .arithmetic
      else if UInt64.size ≤ mappedSize capacity.toNat then .ok (.error (.memory .invalidSize))
      else if grants (.ofNat (mappedSize capacity.toNat)) then
        .ok (.ok { region := ⟨.filled (.ofNat (mappedSize capacity.toNat)) 0⟩, capacity })
      else .ok (.error (.memory .allocationFailed)) := by
  rw [create, requiredSize?_eq, Word.ofNat?]
  by_cases fits : neededSize capacity.toNat < UInt64.size
  · have value : (UInt64.ofNat (neededSize capacity.toNat)).toNat = neededSize capacity.toNat :=
      UInt64.toNat_ofNat_of_lt' fits
    have page : Region.pageSize.toNat = Nat.pow 2 12 := rfl
    have positive : 0 < neededSize capacity.toNat := Nat.add_pos_right _ (by decide)
    have something : UInt64.ofNat (neededSize capacity.toNat) ≠ 0 := fun zero => by
      rw [zero] at value
      exact Nat.ne_of_lt positive value
    have mapped := Region.map_eq_of_ne_zero page something grants
    rw [value] at mapped
    rw [if_pos fits, if_neg (Nat.not_le_of_lt fits)]
    by_cases word : UInt64.size ≤ mappedSize capacity.toNat
    · have refused := mapped.trans (if_pos word)
      simp only [refused, if_pos word]
    · have sized := mapped.trans (if_neg word)
      by_cases granted : grants (.ofNat (mappedSize capacity.toNat)) = true
      · have made := sized.trans (if_pos granted)
        simp only [made, if_neg word, if_pos granted]
        rfl
      · have refused := sized.trans (if_neg granted)
        simp only [refused, if_neg word, if_neg granted]
  · rw [if_neg fits, if_pos (Nat.le_of_not_lt fits)]

theorem create_eq_fault_iff {f : Fault} :
    create capacity grants = .error f ↔
      f = .arithmetic ∧ UInt64.size ≤ neededSize capacity.toNat := by
  rw [create_eq]
  split
  · next beyond => simp [beyond, eq_comm]
  · next fits =>
    refine iff_of_false ?_ fun fault => fits fault.2
    split
    · nofun
    · split <;> nofun

theorem create_eq_refused_iff {e : TableError} :
    create capacity grants = .ok (.error e) ↔
      e = .memory .invalidSize ∧ neededSize capacity.toNat < UInt64.size ∧
        UInt64.size ≤ mappedSize capacity.toNat ∨
      e = .memory .allocationFailed ∧ mappedSize capacity.toNat < UInt64.size ∧
        grants (.ofNat (mappedSize capacity.toNat)) = false := by
  have room := neededSize_le_mappedSize capacity.toNat
  rw [create_eq]
  split
  · next beyond =>
    have coarse := Nat.le_trans beyond room
    simp [Nat.not_lt_of_le beyond, Nat.not_lt_of_le coarse]
  · next fits =>
    split
    · next coarse => simp [Nat.lt_of_not_le fits, coarse, Nat.not_lt_of_le coarse, eq_comm (a := e)]
    · next word =>
      split
      · next granted => simp [word, granted]
      · next refused => simp [word, Nat.lt_of_not_le word, refused, eq_comm (a := e)]

theorem size_of_create {t : Table} (h : create capacity grants = .ok (.ok t)) :
    t.region.size = mappedSize capacity.toNat := by
  rw [create_eq] at h
  split at h
  · cases h
  · split at h
    · cases h
    · next word =>
      split at h
      · cases h
        have value := UInt64.toNat_ofNat_of_lt' (Nat.lt_of_not_le word)
        rw [Region.size_filled, value]
      · cases h

/-- The answer to each number of trampolines, whatever the system grants. A fault is met just where
the bytes that they need are no word. All others are answered: with an invalid size where the pages
for these bytes are no word, with a failed allocation where the system does not grant the pages, and
else with an empty table in a blank region that is large enough. -/
theorem create_decided_by_size (capacity : UInt64) (grants : UInt64 → Bool) :
    (∀ f, create capacity grants = .error f ↔
      f = .arithmetic ∧ UInt64.size ≤ 30 * capacity.toNat + 15) ∧
    (30 * capacity.toNat + 15 < UInt64.size → ∃ answer, create capacity grants = .ok answer) ∧
    let whole := Region.wholePages 4096 (30 * capacity.toNat + 15)
    (∀ e, create capacity grants = .ok (.error e) ↔
      e = .memory .invalidSize ∧ 30 * capacity.toNat + 15 < UInt64.size ∧ UInt64.size ≤ whole ∨
      e = .memory .allocationFailed ∧ whole < UInt64.size ∧ grants (.ofNat whole) = false) ∧
    ∀ t, create capacity grants = .ok (.ok t) →
      30 * capacity.toNat + 15 ≤ t.region.size ∧ t.region.size = whole ∧
        t.region.buffer.bytes = List.replicate whole 0 ∧
        t.capacity = capacity ∧ t.entries = [] := by
  refine ⟨fun f => create_eq_fault_iff, fun fits => ?_, fun e => create_eq_refused_iff,
    fun t made => ?_⟩
  · cases made : create capacity grants with
    | ok answer => exact ⟨answer, rfl⟩
    | error f => exact absurd (create_eq_fault_iff.1 made).2 (Nat.not_le_of_lt fits)
  · obtain ⟨laid, same, none⟩ := wellFormed_of_create made
    have sized := size_of_create made
    have blank := laid.bytes
    rw [none, List.flatMap_nil, List.nil_append, sized] at blank
    exact ⟨sized ▸ neededSize_le_mappedSize capacity.toNat, sized, blank, same, none⟩

/-- The least number whose bytes are no word has neither a table nor an error. -/
theorem not_answered_beyond_words :
    create 614891469123651721 = .error .arithmetic ∧
      ¬ ∀ capacity : UInt64,
        (∃ t, create capacity = .ok (.ok t) ∧ 30 * capacity.toNat + 15 ≤ t.region.size) ∨
        ∃ e, create capacity = .ok (.error e) := by
  have fault : create 614891469123651721 = .error .arithmetic := rfl
  refine ⟨fault, fun answered => ?_⟩
  obtain ⟨t, made, -⟩ | ⟨e, refused⟩ := answered 614891469123651721
  · rw [fault] at made
    cases made
  · rw [fault] at refused
    cases refused

end Table
end Prebind
