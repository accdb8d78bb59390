import Prebind.Word

/-!
Buffers: stretches of memory of a fixed length, with ranges of bytes that are read and replaced. A
buffer has fewer bytes than there are words, so each of its offsets is a word.
-/

namespace Prebind

structure Buffer where
  bytes : List UInt8
  /-- How many bytes there are, so that nobody has to count them. -/
  length : Nat
  length_eq : bytes.length = length
  length_lt : length < UInt64.size
  deriving DecidableEq, Repr

namespace Buffer

/-- A buffer that holds one byte everywhere. -/
def filled (size : UInt64) (byte : UInt8) : Buffer where
  bytes := List.replicate size.toNat byte
  length := size.toNat
  length_eq := List.length_replicate
  length_lt := size.toNat_lt_size

/-- The first bytes of a buffer, as a buffer of their own. -/
def front (b : Buffer) (size : Nat) : Buffer where
  bytes := b.bytes.take size
  length := min size b.length
  length_eq := by rw [List.length_take, b.length_eq]
  length_lt := by
    have := b.length_lt
    omega

/-- The buffer with bytes put in from index `i` on. Bytes that do not fit leave it as it is. -/
def overwrite (b : Buffer) (i : Nat) (bytes : List UInt8) : Buffer :=
  if h : i + bytes.length ≤ b.length then
    { bytes := b.bytes.take i ++ bytes ++ b.bytes.drop (i + bytes.length)
      length := b.length
      length_eq := by
        have := b.length_eq
        simp only [List.length_append, List.length_take, List.length_drop]
        omega
      length_lt := b.length_lt }
  else b

/-- The bytes of a range, if all of it lies in the buffer. -/
def slice? (b : Buffer) (start length : Nat) : Option (List UInt8) :=
  if start + length ≤ b.length then some ((b.bytes.drop start).take length) else none

theorem bytes_overwrite {b : Buffer} {i : Nat} {bytes : List UInt8}
    (h : i + bytes.length ≤ b.length) :
    (b.overwrite i bytes).bytes = b.bytes.take i ++ bytes ++ b.bytes.drop (i + bytes.length) := by
  unfold overwrite
  exact congrArg Buffer.bytes (dif_pos h)

@[simp] theorem length_overwrite (b : Buffer) (i : Nat) (bytes : List UInt8) :
    (b.overwrite i bytes).length = b.length := by
  unfold overwrite
  split <;> rfl

/-- What was put in is read back. -/
theorem slice?_overwrite {b : Buffer} {i : Nat} {bytes : List UInt8}
    (h : i + bytes.length ≤ b.length) :
    (b.overwrite i bytes).slice? i bytes.length = some bytes := by
  have hb := b.length_eq
  have hi : (b.bytes.take i).length = i := by
    rw [List.length_take]
    omega
  rw [slice?, length_overwrite, if_pos h, bytes_overwrite h, List.append_assoc,
    List.drop_append_of_le_length (by omega)]
  simp [List.drop_eq_nil_of_le, hi]

end Buffer
end Prebind
