import Prebind.Memory.Buffer

/-!
What a buffer holds once bytes have been put into it: these bytes in their range, and elsewhere what
was there before. Two ranges side by side that are filled in turn are one range.
-/

namespace Prebind
namespace Buffer

theorem eq_of_bytes {b c : Buffer} (h : b.bytes = c.bytes) : b = c := by
  obtain ⟨bytes, length, length_eq, _⟩ := b
  obtain ⟨_, _, rfl, _⟩ := c
  cases h
  cases length_eq
  rfl

theorem overwrite_of_outside {b : Buffer} {i : Nat} {bytes : List UInt8}
    (h : b.length < i + bytes.length) : b.overwrite i bytes = b := by
  simp only [overwrite]
  exact dif_neg (by omega)

/-- The bytes around the range stay. -/
theorem getElem?_overwrite_of_outside (b : Buffer) (i : Nat) (bytes : List UInt8) {j : Nat}
    (h : j < i ∨ i + bytes.length ≤ j) : (b.overwrite i bytes).bytes[j]? = b.bytes[j]? := by
  by_cases fits : i + bytes.length ≤ b.length
  · have hb := b.length_eq
    rw [bytes_overwrite fits]
    obtain h | h := h
    · rw [List.append_assoc, List.getElem?_append_left (by rw [List.length_take]; omega),
        List.getElem?_take_of_lt h]
    · have hl : (b.bytes.take i ++ bytes).length = i + bytes.length := by
        rw [List.length_append, List.length_take]
        omega
      rw [List.getElem?_append_right (by omega), hl, List.getElem?_drop]
      congr 1
      omega
  · rw [overwrite_of_outside (by omega)]

theorem getElem?_overwrite_of_inside {b : Buffer} {i : Nat} {bytes : List UInt8}
    (fits : i + bytes.length ≤ b.length) {j : Nat} (h : j < bytes.length) :
    (b.overwrite i bytes).bytes[i + j]? = bytes[j]? := by
  have hb := b.length_eq
  have hi : (b.bytes.take i).length = i := by
    rw [List.length_take]
    omega
  rw [bytes_overwrite fits, List.append_assoc, List.getElem?_append_right (by omega), hi,
    Nat.add_sub_cancel_left, List.getElem?_append_left h]

theorem overwrite_nil (b : Buffer) (i : Nat) : b.overwrite i [] = b := by
  by_cases fits : i + ([] : List UInt8).length ≤ b.length
  · apply eq_of_bytes
    rw [bytes_overwrite fits]
    simp
  · exact overwrite_of_outside (by omega)

theorem overwrite_append {b : Buffer} {i : Nat} {xs ys : List UInt8}
    (fits : i + (xs ++ ys).length ≤ b.length) :
    b.overwrite i (xs ++ ys) = (b.overwrite i xs).overwrite (i + xs.length) ys := by
  have hb := b.length_eq
  rw [List.length_append] at fits
  have front : (b.bytes.take i ++ xs).length = i + xs.length := by
    rw [List.length_append, List.length_take]
    omega
  have back : (b.bytes.take i ++ xs ++ b.bytes.drop (i + xs.length)).drop
      (i + xs.length + ys.length) = b.bytes.drop (i + xs.length + ys.length) := by
    rw [← List.drop_drop, List.drop_left' front, List.drop_drop]
  apply eq_of_bytes
  rw [bytes_overwrite (by rw [List.length_append]; omega),
    bytes_overwrite (by rw [length_overwrite]; omega), bytes_overwrite (by omega), back,
    List.take_left' front, List.length_append, Nat.add_assoc, List.append_assoc, List.append_assoc,
    List.append_assoc, List.append_assoc]

/-! The front of a buffer -/

/-- A front that is changed and put back is a change of the buffer. -/
theorem overwrite_front_overwrite {b : Buffer} {n i : Nat} {bytes : List UInt8}
    (fits : i + bytes.length ≤ n) (inside : n ≤ b.length) :
    b.overwrite 0 ((b.front n).overwrite i bytes).bytes = b.overwrite i bytes := by
  have hb := b.length_eq
  have held : (b.front n).bytes = b.bytes.take n := rfl
  have front : (b.front n).length = n := Nat.min_eq_left inside
  have whole : ((b.front n).overwrite i bytes).bytes.length = n := by
    rw [Buffer.length_eq, length_overwrite, front]
  have rest : (b.bytes.take n).drop (i + bytes.length) ++ b.bytes.drop n =
      b.bytes.drop (i + bytes.length) := by
    rw [← List.drop_append_of_le_length (by rw [List.length_take]; omega), List.take_append_drop]
  have start : (b.bytes.take n).take i = b.bytes.take i := by
    rw [List.take_take, Nat.min_eq_left (by omega)]
  apply eq_of_bytes
  rw [bytes_overwrite (by omega), whole, bytes_overwrite (by omega), bytes_overwrite (by omega)]
  simp only [held, List.take_zero, List.nil_append, Nat.zero_add, List.append_assoc, start, rest]

theorem overwrite_front {b : Buffer} {n : Nat} (inside : n ≤ b.length) :
    b.overwrite 0 (b.front n).bytes = b := by
  have none : (0 : Nat) + ([] : List UInt8).length ≤ n := Nat.zero_le n
  have put := overwrite_front_overwrite none inside
  rwa [overwrite_nil, overwrite_nil] at put

end Buffer
end Prebind
