import Mathlib.Tactic.IntervalCases
import Prebind.Text.Numeral

/-!
Numerals are read back as the words they were written from, and pairs of hexadecimal digits as the
bytes that they show.
-/

namespace Prebind
namespace Hex

theorem digit?_digitChar {d : Nat} (small : d < 16) : digit? d.digitChar = some d := by
  interval_cases d <;> rfl

theorem digit?_pair {b : UInt8} {c : Char} (h : c ∈ pair b) : ∃ d, digit? c = some d := by
  have byte := b.toNat_lt
  obtain rfl | rfl : c = (b.toNat / 16).digitChar ∨ c = (b.toNat % 16).digitChar := by
    simpa [pair] using h
  · exact ⟨_, digit?_digitChar (by omega)⟩
  · exact ⟨_, digit?_digitChar (by omega)⟩

theorem readJoined?_flatMap_pair (bs : List UInt8) : readJoined? (bs.flatMap pair) = some bs := by
  induction bs with
  | nil => rfl
  | cons b rest ih =>
      have byte := b.toNat_lt
      have high : digit? (b.toNat / 16).digitChar = some (b.toNat / 16) :=
        digit?_digitChar (by omega)
      have low : digit? (b.toNat % 16).digitChar = some (b.toNat % 16) :=
        digit?_digitChar (by omega)
      have whole : UInt8.ofNat (16 * (b.toNat / 16) + b.toNat % 16) = b := by
        rw [Nat.div_add_mod, UInt8.ofNat_toNat]
      simp only [List.flatMap_cons, pair, List.cons_append, List.nil_append, readJoined?, high, low,
        ih, Option.bind_eq_bind, Option.bind_some, whole]
      rfl

end Hex

namespace Numeral

variable {radix : Nat}

theorem digit?_digitChar (atMost : radix ≤ 16) {d : Nat} (small : d < radix) :
    digit? radix d.digitChar = some d := by
  rw [digit?, Hex.digit?_digitChar (by omega)]
  exact Option.filter_eq_some_iff.2 ⟨rfl, decide_eq_true small⟩

theorem exists_digit_of_mem_toDigits (atLeast : 1 < radix) {n : Nat} {c : Char}
    (h : c ∈ radix.toDigits n) : ∃ d < radix, c = d.digitChar := by
  induction n using Nat.strongRecOn with
  | ind n ih =>
      rw [Nat.toDigits_eq_if atLeast] at h
      split at h
      · next small => exact ⟨n, small, List.mem_singleton.1 h⟩
      · next large =>
        obtain h | h := List.mem_append.1 h
        · exact ih (n / radix) (Nat.div_lt_self (by omega) atLeast) h
        · exact ⟨n % radix, Nat.mod_lt n (by omega), List.mem_singleton.1 h⟩

theorem digitChar_injective {d e : Nat} (hd : d < 16) (he : e < 16)
    (same : d.digitChar = e.digitChar) : d = e := by
  have read := Hex.digit?_digitChar hd
  rw [same, Hex.digit?_digitChar he] at read
  exact (Option.some.inj read).symm

theorem toDigits_injective (atLeast : 1 < radix) (atMost : radix ≤ 16) {m n : Nat}
    (same : radix.toDigits m = radix.toDigits n) : m = n := by
  induction m using Nat.strongRecOn generalizing n with
  | ind m ih =>
      have some {k : Nat} : radix.toDigits k ≠ [] := Nat.toDigits_ne_nil
      rw [Nat.toDigits_eq_if atLeast, Nat.toDigits_eq_if atLeast (n := n)] at same
      split at same <;> split at same
      · exact digitChar_injective (by omega) (by omega) (List.singleton_inj.1 same)
      · exact absurd (List.append_eq_singleton_iff.1 same.symm) (by simp [some])
      · exact absurd (List.append_eq_singleton_iff.1 same) (by simp [some])
      · next large _ =>
        obtain ⟨front, last⟩ := List.append_inj' same rfl
        have quotients := ih (m / radix) (Nat.div_lt_self (by omega) atLeast) front
        have remainders := digitChar_injective
          (Nat.lt_of_lt_of_le (Nat.mod_lt m (by omega)) atMost)
          (Nat.lt_of_lt_of_le (Nat.mod_lt n (by omega)) atMost) (List.singleton_inj.1 last)
        rw [← Nat.div_add_mod m radix, quotients, remainders, Nat.div_add_mod]

theorem readDigits_append {value middle : Nat} {s t : List Char}
    (h : readDigits radix value s = .ok middle) :
    readDigits radix value (s ++ t) = readDigits radix middle t := by
  induction s generalizing value with
  | nil =>
      cases h
      rfl
  | cons c rest ih =>
      rw [List.cons_append]
      simp only [readDigits] at h ⊢
      cases found : digit? radix c with
      | none =>
          rw [found] at h
          cases h
      | some d =>
          simp only [found] at h ⊢
          split at h
          · next fits =>
            rw [if_pos fits]
            exact ih h
          · cases h

theorem readDigits_digitChar (atMost : radix ≤ 16) {value d : Nat} (small : d < radix)
    (fits : value * radix + d < UInt64.size) :
    readDigits radix value [d.digitChar] = .ok (value * radix + d) := by
  simp only [readDigits, digit?_digitChar atMost small, if_pos fits]

theorem readDigits_toDigits (atLeast : 1 < radix) (atMost : radix ≤ 16) {n : Nat}
    (word : n < UInt64.size) : readDigits radix 0 (radix.toDigits n) = .ok n := by
  induction n using Nat.strongRecOn with
  | ind n ih =>
      by_cases small : n < radix
      · rw [Nat.toDigits_of_lt_base small,
          readDigits_digitChar atMost small (by omega), Nat.zero_mul, Nat.zero_add]
      · have less : n / radix < n := Nat.div_lt_self (by omega) atLeast
        have split : n / radix * radix + n % radix = n := Nat.div_add_mod' n radix
        have front := ih (n / radix) less (by omega)
        rw [Nat.toDigits_of_base_le atLeast (by omega), readDigits_append front,
          readDigits_digitChar atMost (Nat.mod_lt n (by omega)) (by omega), split]

/-- Whoever writes a word in digits can read it back. -/
theorem read_toDigits (atLeast : 1 < radix) (atMost : radix ≤ 16) (w : UInt64) :
    read radix (radix.toDigits w.toNat) = .ok w := by
  have digits := readDigits_toDigits atLeast atMost w.toNat_lt_size
  have unsigned : dropSign (radix.toDigits w.toNat) = radix.toDigits w.toNat := by
    unfold dropSign
    split
    · next c rest same =>
      -- A sign may stand in front of digits, but it is none itself.
      obtain ⟨d, small, plus⟩ := exists_digit_of_mem_toDigits atLeast
        (same ▸ List.mem_cons_self : '+' ∈ radix.toDigits w.toNat)
      have digit := Hex.digit?_digitChar (d := d) (by omega)
      rw [← plus] at digit
      cases digit
    · rfl
  rw [read, unsigned]
  split
  · next none => exact absurd none Nat.toDigits_ne_nil
  · rw [digits]
    exact congrArg Except.ok (UInt64.ofNat_toNat)

end Numeral
end Prebind
