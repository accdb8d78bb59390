/-!
Machine words: 64-bit numbers whose sums and products are checked against the word size, and the
little-endian bytes and 16-bit parts they are stored in.
-/

namespace Prebind
namespace Word

/-- The largest word. -/
def last : UInt64 := 0xFFFFFFFFFFFFFFFF

/-- A number as a word, if it is one. -/
def ofNat? (n : Nat) : Option UInt64 :=
  if n < UInt64.size then some (.ofNat n) else none

/-- The sum, unless it is beyond the largest word. -/
def add? (a b : UInt64) : Option UInt64 :=
  ofNat? (a.toNat + b.toNat)

/-- The product, unless it is beyond the largest word. -/
def mul? (a b : UInt64) : Option UInt64 :=
  ofNat? (a.toNat * b.toNat)

/-- The sum, stopping at the largest word. -/
def addSat (a b : UInt64) : UInt64 :=
  (add? a b).getD last

theorem ofNat?_eq_some {n : Nat} {w : UInt64} : ofNat? n = some w ↔ w.toNat = n := by
  unfold ofNat?
  have hw : w.toNat < UInt64.size := w.toNat_lt_size
  constructor
  · intro h
    split at h
    next hn =>
      cases h
      exact UInt64.toNat_ofNat_of_lt' hn
    next => cases h
  · rintro rfl
    rw [if_pos hw, UInt64.ofNat_toNat]

theorem ofNat?_eq_none {n : Nat} : ofNat? n = none ↔ UInt64.size ≤ n := by
  unfold ofNat?
  split <;> simp_all

theorem add?_eq_some {a b w : UInt64} : add? a b = some w ↔ w.toNat = a.toNat + b.toNat :=
  ofNat?_eq_some

theorem add?_eq_none {a b : UInt64} : add? a b = none ↔ UInt64.size ≤ a.toNat + b.toNat :=
  ofNat?_eq_none

/-- The lowest `k` bytes of a number, the least significant first. -/
def bytesOf : Nat → Nat → List UInt8
  | 0, _ => []
  | k + 1, n => .ofNat n :: bytesOf k (n / 256)

/-- The number that little-endian bytes stand for. -/
def ofBytes : List UInt8 → Nat
  | [] => 0
  | b :: bs => b.toNat + 256 * ofBytes bs

/-- The four 16-bit parts of a word, the most significant first. -/
def parts (w : UInt64) : List UInt16 :=
  [(w >>> 48).toUInt16, (w >>> 32).toUInt16, (w >>> 16).toUInt16, w.toUInt16]

@[simp] theorem length_bytesOf (k n : Nat) : (bytesOf k n).length = k := by
  induction k generalizing n with
  | zero => rfl
  | succ k ih => simp [bytesOf, ih]

theorem ofBytes_bytesOf (k n : Nat) : ofBytes (bytesOf k n) = n % Nat.pow 256 k := by
  induction k generalizing n with
  | zero => simp [bytesOf, ofBytes, Nat.mod_one]
  | succ k ih =>
    have h : (UInt8.ofNat n).toNat = n % 256 := by simp
    have hp : Nat.pow 256 (k + 1) = 256 * Nat.pow 256 k := Nat.mul_comm ..
    rw [bytesOf, ofBytes, ih, h, hp, Nat.mod_mul]

theorem bytesOf_ofBytes (bs : List UInt8) : bytesOf bs.length (ofBytes bs) = bs := by
  induction bs with
  | nil => rfl
  | cons b bs ih =>
    have hb : b.toNat < 256 := b.toNat_lt
    have hd : (b.toNat + 256 * ofBytes bs) / 256 = ofBytes bs := by omega
    have hm : UInt8.ofNat (b.toNat + 256 * ofBytes bs) = b := by
      apply UInt8.toNat_inj.1
      simp
    rw [List.length_cons, ofBytes, bytesOf, hd, ih, hm]

end Word
end Prebind
