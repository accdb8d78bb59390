import Mathlib.Order.Bounds.Defs
import Prebind.Memory.Region

/-!
Rounding a size up to whole pages. Clearing the bits below a power of two takes off the remainder,
so that the rounded size is the last multiple of the page not above the size and a page less one.
This is the least multiple not below the size, and a region has it or is not made.
-/

namespace Prebind
namespace Region

/-- The bits outside of a mask and those inside add up to the word. -/
theorem toNat_and_not_add_and (w mask : UInt64) :
    (w &&& ~~~mask).toNat + (w &&& mask).toNat = w.toNat := by
  obtain ⟨b⟩ := w
  obtain ⟨m⟩ := mask
  have apart : (b &&& ~~~m) &&& (b &&& m) = 0#64 := by
    ext i hi
    cases hm : m[i] <;> simp [hm]
  have whole : (b &&& ~~~m) ||| (b &&& m) = b := by
    ext i hi
    simp [← Bool.and_or_distrib_left]
  have sum : (b &&& ~~~m) + (b &&& m) = b := (BitVec.add_eq_or_of_and_eq_zero _ _ apart).trans whole
  calc (b &&& ~~~m).toNat + (b &&& m).toNat
      = ((b &&& ~~~m) + (b &&& m)).toNat := (BitVec.toNat_add_of_and_eq_zero apart).symm
    _ = b.toNat := by rw [sum]

variable {page size whole : UInt64} {k : Nat}

theorem toNat_pred (h : page.toNat = Nat.pow 2 k) : (page - 1).toNat = page.toNat - 1 := by
  have positive : 1 ≤ page.toNat := h ▸ Nat.two_pow_pos k
  have hle : (1 : UInt64) ≤ page := UInt64.le_iff_toNat_le.2 positive
  exact UInt64.toNat_sub_of_le _ _ hle

theorem toNat_and_not_pred (w : UInt64) (h : page.toNat = Nat.pow 2 k) :
    (w &&& ~~~(page - 1)).toNat = w.toNat - w.toNat % page.toNat := by
  have low : (w &&& (page - 1)).toNat = w.toNat % page.toNat := by
    rw [UInt64.toNat_and, toNat_pred h, h]
    exact Nat.and_two_pow_sub_one_eq_mod ..
  have sum := toNat_and_not_add_and w (page - 1)
  omega

theorem toNat_roundUp? (h : page.toNat = Nat.pow 2 k) (rounded : roundUp? page size = some whole) :
    whole.toNat =
      size.toNat + (page.toNat - 1) - (size.toNat + (page.toNat - 1)) % page.toNat := by
  obtain ⟨sum, hsum, rfl⟩ := Option.map_eq_some_iff.1 rounded
  rw [toNat_and_not_pred sum h, Word.add?_eq_some.1 hsum, toNat_pred h]

theorem le_of_roundUp? (h : page.toNat = Nat.pow 2 k) (rounded : roundUp? page size = some whole) :
    size.toNat ≤ whole.toNat := by
  have positive : 0 < page.toNat := h ▸ Nat.two_pow_pos k
  have rest := Nat.mod_lt (size.toNat + (page.toNat - 1)) positive
  rw [toNat_roundUp? h rounded]
  omega

/-- The least multiple of a page that is not below a size, whether or not it is a word. -/
def wholePages (page size : Nat) : Nat :=
  page * ((size + (page - 1)) / page)

theorem le_wholePages {page : Nat} (positive : 0 < page) (size : Nat) :
    size ≤ wholePages page size := by
  have rest := Nat.mod_lt (size + (page - 1)) positive
  have split := Nat.div_add_mod (size + (page - 1)) page
  rw [wholePages]
  omega

theorem wholePages_lt {page : Nat} (positive : 0 < page) (size : Nat) :
    wholePages page size < size + page := by
  have split := Nat.div_add_mod (size + (page - 1)) page
  rw [wholePages]
  omega

theorem isLeast_wholePages {page : Nat} (positive : 0 < page) (size : Nat) :
    IsLeast {n | page ∣ n ∧ size ≤ n} (wholePages page size) := by
  refine ⟨⟨Nat.dvd_mul_right .., le_wholePages positive size⟩, ?_⟩
  rintro n ⟨⟨pages, rfl⟩, room⟩
  -- Less than a page above the size is less than a page above each multiple that holds it.
  have near : wholePages page size < page * (pages + 1) :=
    calc wholePages page size
        < size + page := wholePages_lt positive size
      _ ≤ page * pages + page := Nat.add_le_add_right room page
      _ = page * (pages + 1) := (Nat.mul_succ page pages).symm
  exact Nat.mul_le_mul_left page (Nat.le_of_lt_succ (Nat.lt_of_mul_lt_mul_left near))

/-- Words are rounded as numbers are. Where the addition already leads beyond the largest word, so
does the rounding, since that border is a multiple of each page. -/
theorem roundUp?_eq (h : page.toNat = Nat.pow 2 k) :
    roundUp? page size = Word.ofNat? (wholePages page.toNat size.toNat) := by
  have small : k ≤ 64 := by
    refine Nat.le_of_not_lt fun large => ?_
    have bound := page.toNat_lt
    have more := Nat.pow_le_pow_right (by decide : 0 < 2) (Nat.le_of_lt large)
    rw [h] at bound
    exact Nat.lt_irrefl _ (Nat.lt_of_lt_of_le bound more)
  cases rounded : roundUp? page size with
  | none =>
      have beyond := Word.add?_eq_none.1 (Option.map_eq_none_iff.1 rounded)
      rw [toNat_pred h] at beyond
      have divides : page.toNat ∣ UInt64.size := h ▸ Nat.pow_dvd_pow 2 small
      have border := Nat.mul_le_mul_left page.toNat (Nat.div_le_div_right (c := page.toNat) beyond)
      rw [Nat.mul_div_cancel' divides] at border
      exact (Word.ofNat?_eq_none.2 border).symm
  | some whole =>
      have value := toNat_roundUp? h rounded
      have split := Nat.div_add_mod (size.toNat + (page.toNat - 1)) page.toNat
      refine (Word.ofNat?_eq_some.2 ?_).symm
      rw [value, wholePages]
      omega

/-- A size whose pages are no word is refused, and any other is left to the system. -/
theorem map_eq_of_ne_zero (h : page.toNat = Nat.pow 2 k) (something : size ≠ 0)
    (grants : UInt64 → Bool) :
    map size page grants =
      let whole := wholePages page.toNat size.toNat
      if UInt64.size ≤ whole then .error .invalidSize
      else if grants (.ofNat whole) then .ok ⟨.filled (.ofNat whole) 0⟩
      else .error .allocationFailed := by
  rw [map, if_neg something, roundUp?_eq h, Word.ofNat?]
  by_cases fits : wholePages page.toNat size.toNat < UInt64.size
  · rw [if_pos fits, if_neg (Nat.not_le_of_lt fits)]
  · rw [if_neg fits, if_pos (Nat.le_of_not_lt fits)]

theorem map_eq_invalidSize_iff (h : page.toNat = Nat.pow 2 k) (grants : UInt64 → Bool) :
    map size page grants = .error .invalidSize ↔
      size = 0 ∨ UInt64.size ≤ wholePages page.toNat size.toNat := by
  by_cases zero : size = 0
  · exact iff_of_true (if_pos zero) (.inl zero)
  · rw [map_eq_of_ne_zero h zero]
    dsimp only
    split
    · next beyond => exact iff_of_true rfl (.inr beyond)
    · next fits =>
      refine iff_of_false ?_ (not_or_intro zero fits)
      split <;> nofun

theorem size_filled {access : Access} (size : UInt64) (byte : UInt8) :
    (⟨.filled size byte⟩ : Region access).size = size.toNat :=
  rfl

/-- A region that is mapped has the rounded size and holds zeros. -/
theorem map_eq_ok {grants : UInt64 → Bool} {r : Region .writable}
    (h : map size page grants = .ok r) :
    ∃ whole, roundUp? page size = some whole ∧ r.buffer = .filled whole 0 := by
  simp only [map] at h
  split at h
  · cases h
  · split at h
    · cases h
    · next whole rounded =>
      split at h
      · cases h
        exact ⟨whole, rounded, rfl⟩
      · cases h

theorem function?_eq_some_iff {r : Region .executable} {width offset entry : Nat} :
    r.function? width offset = some entry ↔ entry = offset ∧ offset < r.size ∧ width = 8 := by
  rw [function?]
  split
  · next inside => simp [inside, eq_comm]
  · next outside => simp [outside]

/-- The answer to each size, whatever power of two a page has and whatever the system grants. A size
is invalid just if it is zero, or if the least multiple of a page that is not below it is no word.
Else the addition and the mask come to this multiple, less than a page above the size, and the
answer depends on nothing but whether the system grants it. A region that is made has this size, and
where it may be executed it holds functions at just the offsets below it. -/
theorem map_decided_by_whole_pages (power : page.toNat.isPowerOfTwo) (size : UInt64)
    (grants : UInt64 → Bool) :
    let whole := wholePages page.toNat size.toNat
    IsLeast {n | page.toNat ∣ n ∧ size.toNat ≤ n} whole ∧
    (map size page grants = .error .invalidSize ↔ size = 0 ∨ UInt64.size ≤ whole) ∧
    (size ≠ 0 → whole < UInt64.size →
      0 < whole ∧ size.toNat ≤ whole ∧ whole < size.toNat + page.toNat ∧
      ∃ asked, roundUp? page size = some asked ∧ asked.toNat = whole ∧
        (grants asked = false → map size page grants = .error .allocationFailed) ∧
        (grants asked = true → ∃ r code, map size page grants = .ok r ∧ r.size = whole ∧
          r.protect = .ok code ∧ ∀ width offset entry, code.function? width offset = some entry ↔
            entry = offset ∧ offset < whole ∧ width = 8)) := by
  obtain ⟨k, h⟩ := power
  have positive : 0 < page.toNat := h ▸ Nat.two_pow_pos k
  intro whole
  refine ⟨isLeast_wholePages positive _, map_eq_invalidSize_iff h grants, fun something fits => ?_⟩
  have room : size.toNat ≤ whole := le_wholePages positive _
  have nonzero : 0 < size.toNat :=
    Nat.pos_of_ne_zero fun zero => something (UInt64.toNat_inj.1 zero)
  have value : (UInt64.ofNat whole).toNat = whole := UInt64.toNat_ofNat_of_lt' fits
  have answer := (map_eq_of_ne_zero h something grants).trans (if_neg (Nat.not_le_of_lt fits))
  refine ⟨Nat.lt_of_lt_of_le nonzero room, room, wholePages_lt positive _, .ofNat whole, ?_, value,
    fun refused => ?_, fun granted => ?_⟩
  · exact (roundUp?_eq h).trans (Word.ofNat?_eq_some.2 value)
  · exact answer.trans (if_neg (Bool.eq_false_iff.1 refused))
  · let blank := Buffer.filled (.ofNat whole) 0
    refine ⟨⟨blank⟩, ⟨blank⟩, answer.trans (if_pos granted), value, rfl, ?_⟩
    intro width offset entry
    rw [function?_eq_some_iff, size_filled, value]

/-- A byte more than 64 pages takes 65, and a byte more than the largest size in whole pages is
invalid. -/
theorem map_decided_by_whole_pages_one_byte_behind :
    pageSize.toNat.isPowerOfTwo ∧
      (∃ r code, map 0x40001 = .ok r ∧ r.size = 0x41000 ∧ r.protect = .ok code ∧
        code.function? 8 0x40FFF = some 0x40FFF ∧ code.function? 8 0x41000 = none) ∧
      map 0xFFFFFFFFFFFFF001 = .error .invalidSize := by
  have power : pageSize.toNat.isPowerOfTwo := ⟨12, rfl⟩
  obtain ⟨-, -, answered⟩ := map_decided_by_whole_pages power 0x40001 hasRoom
  obtain ⟨-, -, -, asked, -, value, -, granted⟩ := answered (by decide) (by decide)
  have room : asked.toNat < limit := value ▸ by decide
  obtain ⟨r, code, made, size, allowed, found⟩ := granted (decide_eq_true room)
  refine ⟨power, ⟨r, code, made, size, allowed, (found 8 _ _).2 ⟨rfl, by decide, rfl⟩, ?_⟩, ?_⟩
  · refine Option.eq_none_iff_forall_ne_some.2 fun entry called => ?_
    exact absurd ((found 8 _ entry).1 called).2.1 (by decide)
  · obtain ⟨-, invalid, -⟩ := map_decided_by_whole_pages power 0xFFFFFFFFFFFFF001 hasRoom
    exact invalid.2 (.inr (by decide))

end Region
end Prebind
