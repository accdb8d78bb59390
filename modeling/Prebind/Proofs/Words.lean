import Prebind.Word

/-!
Words as sequences of bytes and as sequences of 16-bit parts, and sums of addresses.
-/

namespace Prebind
namespace Word

theorem add_sub_self_left (a b : UInt64) : a + b - a = b := by
  rw [UInt64.add_comm, UInt64.add_sub_cancel]

theorem toNat_add_of_lt {a b : UInt64} (h : a.toNat + b.toNat < UInt64.size) :
    (a + b).toNat = a.toNat + b.toNat := by
  rw [UInt64.toNat_add]
  exact Nat.mod_eq_of_lt h

theorem toNat_add_ofNat {a : UInt64} {n : Nat} (h : a.toNat + n < UInt64.size) :
    (a + .ofNat n).toNat = a.toNat + n := by
  have hn : (UInt64.ofNat n).toNat = n := UInt64.toNat_ofNat_of_lt' (by omega)
  rw [toNat_add_of_lt (by omega), hn]

theorem toNat_sub_of_le {a b : UInt64} (h : b.toNat ≤ a.toNat) :
    (a - b).toNat = a.toNat - b.toNat :=
  UInt64.toNat_sub_of_le _ _ (UInt64.le_iff_toNat_le.2 h)

/-- Where a sum stops at the largest word, whatever lies below that word lies below the sum. -/
theorem lt_toNat_addSat_iff {a b : UInt64} {n : Nat} (below : n + 1 < UInt64.size) :
    n < (addSat a b).toNat ↔ n < a.toNat + b.toNat := by
  cases sum : add? a b with
  | none =>
      have beyond := add?_eq_none.1 sum
      have stopped : (addSat a b).toNat + 1 = UInt64.size := by
        rw [addSat, sum]
        rfl
      omega
  | some w =>
      have exact : (addSat a b).toNat = a.toNat + b.toNat := by
        rw [addSat, sum]
        exact add?_eq_some.1 sum
      rw [exact]

/-- From any other word than `a`, the way to `a + 1` is a step shorter than that to `a`. -/
theorem toNat_sub_of_ne {a x : UInt64} (h : x ≠ a) :
    (x - a).toNat = (x - (a + 1)).toNat + 1 := by
  have apart : (x - a).toNat ≠ 0 := by
    intro none
    have zero : x - a = 0 := UInt64.toNat_inj.1 none
    exact h (by grind)
  have positive : (1 : UInt64).toNat ≤ (x - a).toNat := Nat.pos_of_ne_zero apart
  have before : x - (a + 1) = (x - a) - 1 := by grind
  rw [before, toNat_sub_of_le positive]
  exact (Nat.sub_add_cancel positive).symm

/-- From `a` itself, the way to `a + 1` goes all around. -/
theorem toNat_sub_add_one (a : UInt64) : (a - (a + 1)).toNat = UInt64.size - 1 := by
  have around : a - (a + 1) = 0xFFFFFFFFFFFFFFFF := by grind
  rw [around]
  rfl

theorem add_one_add_ofNat (a : UInt64) (i : Nat) : a + 1 + .ofNat i = a + .ofNat (i + 1) := by
  rw [UInt64.ofNat_add i 1, UInt64.add_assoc]
  exact congrArg (a + ·) (UInt64.add_comm 1 (.ofNat i))

theorem ofNat_ofBytes_bytesOf (w : UInt64) :
    UInt64.ofNat (ofBytes (bytesOf 8 w.toNat)) = w := by
  have hw : w.toNat < Nat.pow 256 8 := w.toNat_lt
  rw [ofBytes_bytesOf, Nat.mod_eq_of_lt hw, UInt64.ofNat_toNat]

theorem pow_succ_digits (k : Nat) : Nat.pow 256 (k + 1) = 256 * Nat.pow 256 k :=
  Nat.mul_comm ..

theorem bytesOf_add (j k n : Nat) :
    bytesOf (j + k) n = bytesOf j n ++ bytesOf k (n / Nat.pow 256 j) := by
  induction j generalizing n with
  | zero => simp [bytesOf]
  | succ j ih =>
      rw [Nat.succ_add, bytesOf, bytesOf, ih, List.cons_append, Nat.div_div_eq_div_mul,
        ← pow_succ_digits]

/-- Each byte of a number is one of its digits. -/
theorem getD_bytesOf (k n i : Nat) (byte : UInt8) :
    (bytesOf k n).getD i byte = if i < k then .ofNat (n / Nat.pow 256 i) else byte := by
  induction k generalizing n i with
  | zero => rfl
  | succ k ih =>
      cases i with
      | zero => simp [bytesOf]
      | succ i =>
          rw [bytesOf, List.getD_cons_succ, ih, Nat.div_div_eq_div_mul, ← pow_succ_digits]
          simp only [Nat.succ_lt_succ_iff]

theorem ofBytes_lt (bs : List UInt8) : ofBytes bs < Nat.pow 256 bs.length := by
  induction bs with
  | nil => decide
  | cons b bs ih =>
      have hb := b.toNat_lt
      rw [ofBytes, List.length_cons, Nat.pow_eq, Nat.pow_succ]
      rw [Nat.pow_eq] at ih
      omega

/-- Only as many digits count as there are bytes. -/
theorem bytesOf_mod (k n : Nat) : bytesOf k (n % Nat.pow 256 k) = bytesOf k n := by
  induction k generalizing n with
  | zero => rfl
  | succ k ih =>
      have digit : n % Nat.pow 256 (k + 1) % 256 = n % 256 :=
        Nat.mod_mod_of_dvd _ ⟨Nat.pow 256 k, pow_succ_digits k⟩
      have first : UInt8.ofNat (n % Nat.pow 256 (k + 1)) = UInt8.ofNat n := by
        apply UInt8.toNat_inj.1
        rw [UInt8.toNat_ofNat', UInt8.toNat_ofNat']
        exact digit
      have others : n % Nat.pow 256 (k + 1) / 256 = n / 256 % Nat.pow 256 k := by
        rw [pow_succ_digits, Nat.mod_mul_right_div_self]
      rw [bytesOf, bytesOf, first, others, ih]

theorem bytesOf_toUInt16 (w : UInt64) : bytesOf 2 w.toUInt16.toNat = bytesOf 2 w.toNat := by
  rw [UInt64.toNat_toUInt16]
  exact bytesOf_mod 2 w.toNat

/-- The parts of a word from the last to the first hold its bytes in order. -/
theorem flatMap_parts_reverse (w : UInt64) :
    (parts w).reverse.flatMap (fun part => bytesOf 2 part.toNat) = bytesOf 8 w.toNat := by
  have second : (w >>> 16).toNat = w.toNat / 2 ^ 16 := Nat.shiftRight_eq_div_pow w.toNat 16
  have third : (w >>> 32).toNat = w.toNat / 2 ^ 16 / 2 ^ 16 := by
    rw [Nat.div_div_eq_div_mul]
    exact Nat.shiftRight_eq_div_pow w.toNat 32
  have fourth : (w >>> 48).toNat = w.toNat / 2 ^ 16 / 2 ^ 16 / 2 ^ 16 := by
    rw [Nat.div_div_eq_div_mul, Nat.div_div_eq_div_mul]
    exact Nat.shiftRight_eq_div_pow w.toNat 48
  have digits : Nat.pow 256 2 = 2 ^ 16 := rfl
  have split : bytesOf 8 w.toNat =
      bytesOf 2 w.toNat ++ (bytesOf 2 (w.toNat / 2 ^ 16) ++
        (bytesOf 2 (w.toNat / 2 ^ 16 / 2 ^ 16) ++
          bytesOf 2 (w.toNat / 2 ^ 16 / 2 ^ 16 / 2 ^ 16))) := by
    rw [bytesOf_add 2 6, bytesOf_add 2 4, bytesOf_add 2 2, digits]
  have reversed : (parts w).reverse =
      [w.toUInt16, (w >>> 16).toUInt16, (w >>> 32).toUInt16, (w >>> 48).toUInt16] := rfl
  rw [reversed, split]
  simp only [List.flatMap_cons, List.flatMap_nil, List.append_nil, bytesOf_toUInt16, second, third,
    fourth]

end Word
end Prebind
