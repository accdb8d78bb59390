import Prebind.Instruction
import Prebind.Proofs.Words

/-!
Decoding gives back what was encoded and leaves the bytes behind it alone, up to the second name of
the move between RAX and itself. What is decoded encodes to the bytes it was taken from, so that no
instruction has two encodings.
-/

namespace Prebind

namespace Instruction

/-- The name by which the decoder knows an instruction. -/
def canonical : Instruction → Instruction
  | .movToRax .rax => .movFromRax .rax
  | i => i

theorem encode_ne_nil (i : Instruction) : i.encode ≠ [] := by
  cases i with
  | pop dest | movFromRax dest | movToRax dest => cases dest <;> exact List.cons_ne_nil _ _
  | _ => exact List.cons_ne_nil _ _

/-- The longest instruction is the load of RAX. -/
theorem length_encode_le_ten (i : Instruction) : i.encode.length ≤ 10 := by
  cases i with
  | pop dest | movFromRax dest | movToRax dest => cases dest <;> decide
  | pushImm16 value | loadRax value => simp [encode]
  | _ => decide

/-- An encoding fits into the window of a fetch. -/
theorem length_encode_le (i : Instruction) : i.encode.length ≤ maxLength :=
  Nat.le_trans i.length_encode_le_ten (by decide)

/-! The ModR/M byte -/

theorem toNat_modrm {reg rm : Nat} (hreg : reg < 8) (hrm : rm < 8) :
    (modrm reg rm).toNat = 0xC0 + (8 * reg + rm) := by
  rw [modrm, Nat.add_assoc]
  exact UInt8.toNat_ofNat_of_lt' (by change _ < 256; omega)

theorem not_modrm_lt {reg rm : Nat} (hreg : reg < 8) (hrm : rm < 8) : ¬ modrm reg rm < 0xC0 := by
  rw [UInt8.lt_iff_toNat_lt, toNat_modrm hreg hrm]
  exact Nat.not_lt.2 (Nat.le_add_right ..)

theorem ofModrm?_dest {h : Register.Half} {source : Option Register.Half} {place : Nat}
    (hplace : place < 8) :
    ofModrm? (some h) source (modrm 0 place) = some (.movFromRax (.ofPlace h place)) := by
  simp only [ofModrm?]
  have fields : 0xC0 + (8 * 0 + place) - 0xC0 = place := by omega
  rw [if_neg (not_modrm_lt (by decide) hplace), toNat_modrm (by decide) hplace]
  rw [fields, if_pos ⟨hplace, rfl⟩]
  rfl

/-- The register field names a source where no destination is in question: where the prefix allows
none, or where the register is not the first one. -/
theorem ofModrm?_source {dest : Option Register.Half} {h : Register.Half} {place : Nat}
    (hplace : place < 8) (clear : dest = none ∨ 0 < place) :
    ofModrm? dest (some h) (modrm place 0) = some (.movToRax (.ofPlace h place)) := by
  have other : ¬ (8 * place < 8 ∧ dest.isSome) := by
    rintro ⟨first, given⟩
    obtain rfl | later := clear
    · cases given
    · omega
  simp only [ofModrm?]
  have fields : 0xC0 + (8 * place + 0) - 0xC0 = 8 * place := by omega
  rw [if_neg (not_modrm_lt hplace (by decide)), toNat_modrm hplace (by decide)]
  rw [fields, if_neg other, if_pos (Nat.mul_mod_right ..), Nat.mul_div_cancel_left _ (by decide)]
  rfl

/-! Round trip -/

theorem decode?_pop (dest : Register) (rest : List UInt8) :
    decode? ((pop dest).encode ++ rest) = some (.pop dest, rest) := by
  cases dest <;> rfl

theorem decode?_movFromRax (dest : Register) (rest : List UInt8) :
    decode? ((movFromRax dest).encode ++ rest) = some (.movFromRax dest, rest) := by
  have whole := Register.ofPlace_half_place dest
  cases hh : dest.half with
  | low | extended =>
      rw [hh] at whole
      simp only [encode, hh, List.cons_append, List.nil_append, decode?,
        ofModrm?_dest dest.place_lt, whole]
      rfl

theorem decode?_movToRax {source : Register} (other : source ≠ .rax) (rest : List UInt8) :
    decode? ((movToRax source).encode ++ rest) = some (.movToRax source, rest) := by
  have whole := Register.ofPlace_half_place source
  cases hh : source.half with
  | low =>
      have later : 0 < source.place := by
        rw [hh] at whole
        refine Nat.pos_of_ne_zero fun first => other ?_
        rw [← whole, first]
        rfl
      rw [hh] at whole
      simp only [encode, hh, List.cons_append, List.nil_append, decode?,
        ofModrm?_source source.place_lt (.inr later), whole]
      rfl
  | extended =>
      rw [hh] at whole
      simp only [encode, hh, List.cons_append, List.nil_append, decode?,
        ofModrm?_source source.place_lt (.inl rfl), whole]
      rfl

theorem decode?_encode (i : Instruction) (rest : List UInt8) :
    decode? (i.encode ++ rest) = some (i.canonical, rest) := by
  cases i with
  | pushImm16 value =>
      have hv : value.toNat < Nat.pow 256 2 := value.toNat_lt
      change some (pushImm16 (.ofNat (Word.ofBytes (Word.bytesOf 2 value.toNat))), rest) = _
      rw [Word.ofBytes_bytesOf, Nat.mod_eq_of_lt hv, UInt16.ofNat_toNat]
      rfl
  | loadRax value =>
      change some (loadRax (.ofNat (Word.ofBytes (Word.bytesOf 8 value.toNat))), rest) = _
      rw [Word.ofNat_ofBytes_bytesOf]
      rfl
  | pop dest => exact decode?_pop dest rest
  | movFromRax dest => exact decode?_movFromRax dest rest
  | movToRax source =>
      by_cases first : source = .rax
      · subst first
        exact decode?_movFromRax .rax rest
      · rw [decode?_movToRax first]
        cases source <;> trivial
  | pushRax | ret | breakpoint => rfl

/-! Decoded bytes -/

theorem encode_pushImm16 (a b : UInt8) :
    (pushImm16 (.ofNat (Word.ofBytes [a, b]))).encode = [0x66, 0x68, a, b] := by
  have bound : Word.ofBytes [a, b] < UInt16.size := by
    rw [show UInt16.size = Nat.pow 256 2 from rfl]
    exact Word.ofBytes_lt [a, b]
  have small : (UInt16.ofNat (Word.ofBytes [a, b])).toNat = Word.ofBytes [a, b] :=
    UInt16.toNat_ofNat_of_lt' bound
  rw [encode, small]
  exact congrArg (0x66 :: 0x68 :: ·) (Word.bytesOf_ofBytes [a, b])

theorem encode_loadRax {bytes : List UInt8} (eight : bytes.length = 8) :
    (loadRax (.ofNat (Word.ofBytes bytes))).encode = 0x48 :: 0xB8 :: bytes := by
  have bound : Word.ofBytes bytes < UInt64.size := by
    rw [show UInt64.size = Nat.pow 256 8 from rfl, ← eight]
    exact Word.ofBytes_lt bytes
  have small : (UInt64.ofNat (Word.ofBytes bytes)).toNat = Word.ofBytes bytes :=
    UInt64.toNat_ofNat_of_lt' bound
  rw [encode, small, ← eight, Word.bytesOf_ofBytes]

theorem encode_pop_ofPlace {op : UInt8} (h : Register.Half) (low : 0x58 ≤ op) (high : op < 0x60) :
    (pop (.ofPlace h (op.toNat - 0x58))).encode =
      match h with
      | .low => [op]
      | .extended => [0x41, op] := by
  have low' : 0x58 ≤ op.toNat := UInt8.le_iff_toNat_le.1 low
  have high' : op.toNat < 0x60 := UInt8.lt_iff_toNat_lt.1 high
  have back : UInt8.ofNat (0x58 + (op.toNat - 0x58) % 8) = op := by
    rw [Nat.mod_eq_of_lt (by omega), Nat.add_sub_cancel' low', UInt8.ofNat_toNat]
  cases h <;> rw [encode, Register.half_ofPlace, Register.place_ofPlace, back]

/-- The prefix of a move from RAX to a register of a half. -/
def leadTo : Register.Half → UInt8
  | .low => 0x48
  | .extended => 0x49

/-- The prefix of a move to RAX from a register of a half. -/
def leadFrom : Register.Half → UInt8
  | .low => 0x48
  | .extended => 0x4C

theorem encode_movFromRax_ofPlace {place : Nat} (h : Register.Half) (small : place < 8) :
    (movFromRax (.ofPlace h place)).encode = [leadTo h, 0x89, modrm 0 place] := by
  cases h with
  | low | extended =>
      rw [encode, Register.half_ofPlace, Register.place_ofPlace, Nat.mod_eq_of_lt small]
      rfl

theorem encode_movToRax_ofPlace {place : Nat} (h : Register.Half) (small : place < 8) :
    (movToRax (.ofPlace h place)).encode = [leadFrom h, 0x89, modrm place 0] := by
  cases h with
  | low | extended =>
      rw [encode, Register.half_ofPlace, Register.place_ofPlace, Nat.mod_eq_of_lt small]
      rfl

/-- What a ModR/M byte is taken for encodes to it, behind the prefix that allows the halves. -/
theorem encode_of_ofModrm? {dest source : Option Register.Half} {lead byte : UInt8}
    {i : Instruction} (destLead : ∀ h, dest = some h → leadTo h = lead)
    (sourceLead : ∀ h, source = some h → leadFrom h = lead)
    (found : ofModrm? dest source byte = some i) : i.encode = [lead, 0x89, byte] := by
  have small := byte.toNat_lt
  simp only [ofModrm?] at found
  split at found
  · cases found
  · next base =>
    rw [UInt8.lt_iff_toNat_lt] at base
    change ¬ byte.toNat < 0xC0 at base
    split at found
    · next first =>
      obtain ⟨h, given, rfl⟩ := Option.map_eq_some_iff.1 found
      have whole : modrm 0 (byte.toNat - 0xC0) = byte := by
        rw [← UInt8.toNat_inj, toNat_modrm (by decide) first.1]
        omega
      rw [encode_movFromRax_ofPlace h first.1, destLead h given, whole]
    · split at found
      · next other =>
        obtain ⟨h, given, rfl⟩ := Option.map_eq_some_iff.1 found
        have bound : (byte.toNat - 0xC0) / 8 < 8 := by omega
        have whole : modrm ((byte.toNat - 0xC0) / 8) 0 = byte := by
          rw [← UInt8.toNat_inj, toNat_modrm bound (by decide)]
          omega
        rw [encode_movToRax_ofPlace h bound, sourceLead h given, whole]
      · cases found

theorem encode_append_of_ofModrm? {dest source : Option Register.Half} {lead byte : UInt8}
    {i : Instruction} {rest tail : List UInt8}
    (destLead : ∀ h, dest = some h → leadTo h = lead)
    (sourceLead : ∀ h, source = some h → leadFrom h = lead)
    (found : (ofModrm? dest source byte).map (·, rest) = some (i, tail)) :
    lead :: 0x89 :: byte :: rest = i.encode ++ tail := by
  obtain ⟨j, taken, pair⟩ := Option.map_eq_some_iff.1 found
  cases pair
  rw [encode_of_ofModrm? destLead sourceLead taken]
  rfl

/-- A decoded instruction encodes to the bytes it was taken from. -/
theorem eq_encode_append_of_decode? {bytes rest : List UInt8} {i : Instruction}
    (h : decode? bytes = some (i, rest)) : bytes = i.encode ++ rest := by
  revert h
  fun_cases decode? bytes with
  | case1 a b rest =>
      rintro ⟨⟩
      rw [encode_pushImm16]
      rfl
  | case2 op rest range =>
      rintro ⟨⟩
      rw [encode_pop_ofPlace .extended range.1 range.2]
      rfl
  | case4 a b c d e f g h rest =>
      rintro ⟨⟩
      rw [encode_loadRax rfl]
      rfl
  | case5 byte rest => exact encode_append_of_ofModrm? (by rintro _ ⟨⟩; rfl) (by rintro _ ⟨⟩; rfl)
  | case6 byte rest => exact encode_append_of_ofModrm? (by rintro _ ⟨⟩; rfl) (by rintro _ ⟨⟩)
  | case7 byte rest => exact encode_append_of_ofModrm? (by rintro _ ⟨⟩) (by rintro _ ⟨⟩; rfl)
  | case8 rest | case9 rest | case10 rest =>
      rintro ⟨⟩
      rfl
  | case11 op rest _ _ _ _ _ _ _ _ _ range =>
      rintro ⟨⟩
      rw [encode_pop_ofPlace .low range.1 range.2]
      rfl
  | case3 | case12 | case13 => rintro ⟨⟩

end Instruction
end Prebind
