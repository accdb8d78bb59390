import Prebind.Proofs.Programs

/-!
Streams of instructions are uniquely decodable. A decoder takes one instruction after the other off
the front of a byte string. It gives back every list of instructions from its bytes, and no byte
string but these bytes is decoded to the list. Since one instruction is never the beginning of
another, a stream that begins with the bytes of another begins with its instructions. What holds of
bytes holds of the programs that the assembler writes them for.
-/

namespace Prebind
namespace Instruction

open Machine (encodeAll encodeAll_cons)

theorem length_rest_lt {bytes rest : List UInt8} {i : Instruction}
    (h : decode? bytes = some (i, rest)) : rest.length < bytes.length := by
  have positive := List.length_pos_iff.2 i.encode_ne_nil
  rw [eq_encode_append_of_decode? h, List.length_append]
  omega

/-- All instructions of a byte string that consists of instructions. -/
def decodeAll? (bytes : List UInt8) : Option (List Instruction) :=
  if bytes = [] then some []
  else
    match _found : decode? bytes with
    | none => none
    | some (i, rest) => (decodeAll? rest).map (i :: ·)
termination_by bytes.length
decreasing_by exact length_rest_lt ‹_›

theorem decodeAll?_nil : decodeAll? [] = some [] := by
  rw [decodeAll?, if_pos rfl]

theorem decodeAll?_of_decode? {bytes rest : List UInt8} {i : Instruction}
    (h : decode? bytes = some (i, rest)) : decodeAll? bytes = (decodeAll? rest).map (i :: ·) := by
  have some_bytes : bytes ≠ [] := by
    rintro rfl
    cases h
  rw [decodeAll?, if_neg some_bytes]
  split
  · next none => rw [none] at h; cases h
  · next found => rw [found] at h; cases h; rfl

theorem decodeAll?_encodeAll (code : List Instruction) :
    decodeAll? (encodeAll code) = some (code.map canonical) := by
  induction code with
  | nil => exact decodeAll?_nil
  | cons i rest ih =>
      rw [encodeAll_cons, decodeAll?_of_decode? (decode?_encode i _), ih]
      rfl

theorem encodeAll_of_decodeAll? {bytes : List UInt8} {code : List Instruction}
    (h : decodeAll? bytes = some code) : encodeAll code = bytes := by
  fun_induction decodeAll? bytes generalizing code with
  | case1 =>
      cases h
      rfl
  | case2 => cases h
  | case3 bytes _ i rest found ih =>
      obtain ⟨others, decoded, rfl⟩ := Option.map_eq_some_iff.1 h
      rw [encodeAll_cons, ih decoded, eq_encode_append_of_decode? found]

/-- Equal instructions stand at the front of equal bytes. -/
theorem canonical_eq_of_append_eq {i j : Instruction} {xs ys : List UInt8}
    (h : i.encode ++ xs = j.encode ++ ys) : i.canonical = j.canonical ∧ xs = ys := by
  have decoded : some (i.canonical, xs) = some (j.canonical, ys) := by
    rw [← decode?_encode, h, decode?_encode]
  exact Prod.mk.inj (Option.some.inj decoded)

theorem canonical_prefix {xs ys : List Instruction} (h : encodeAll xs <+: encodeAll ys) :
    xs.map canonical <+: ys.map canonical := by
  induction xs generalizing ys with
  | nil => exact List.nil_prefix
  | cons i rest ih =>
      obtain ⟨tail, h⟩ := h
      rw [encodeAll_cons, List.append_assoc] at h
      cases ys with
      | nil => exact absurd (List.append_eq_nil_iff.1 h).1 i.encode_ne_nil
      | cons j others =>
          obtain ⟨same, later⟩ := canonical_eq_of_append_eq (h.trans (encodeAll_cons j others))
          rw [List.map_cons, List.map_cons, same]
          exact List.cons_prefix_cons.2 ⟨rfl, ih ⟨tail, later⟩⟩

/-- The statement that asks the assembler for an instruction. -/
def statement : Instruction → Statement
  | pushImm16 value => .step (.push16 value)
  | pushRax => .step .pushRax
  | pop dest => .step (.pop dest)
  | loadRax value => .step (.loadRax value)
  | movFromRax dest => .step (.movFromRax dest)
  | movToRax source => .step (.movToRax source)
  | ret => .ret
  | breakpoint => .breakpoint

end Instruction

namespace Program

open Instruction (decodeAll? canonical)
open Machine (encodeAll)

/-- The instructions of a program, with one name for the move between RAX and itself. -/
def listing (p : Program) : List Instruction :=
  p.instructions.map canonical

/-- A program meets no fault at the start of a buffer and has then written these bytes. -/
def Emits (p : Program) (buffer : Buffer) (bytes : List UInt8) : Prop :=
  ∃ b, p.emit { cursor := { buffer } } = .ok () b ∧
    Cursor.written b.cursor = .ok bytes b.cursor

/-- The program that consists of given instructions. -/
def ofInstructions (code : List Instruction) : Program :=
  code.map Instruction.statement

theorem instructions_ofInstructions (code : List Instruction) :
    (ofInstructions code).instructions = code := by
  induction code with
  | nil => rfl
  | cons i rest ih =>
      have first : (Instruction.statement i).code.map Prod.snd = [i] := by
        cases i <;> rfl
      have split : ofInstructions (i :: rest) = i.statement :: ofInstructions rest := rfl
      rw [split, instructions_cons, first, ih]
      rfl

theorem Emits.eq {p : Program} {buffer : Buffer} {bytes : List UInt8}
    (h : p.Emits buffer bytes) : bytes = encodeAll p.instructions := by
  obtain ⟨b, emitted, written⟩ := h
  rw [written_of_emit emitted] at written
  injection written with same
  exact same.symm

theorem emits_of_room {p : Program} {buffer : Buffer}
    (room : (encodeAll p.instructions).length + Instruction.maxLength ≤ buffer.length) :
    p.Emits buffer (encodeAll p.instructions) := by
  have fits : (UInt64.toNat 0) + (Assembler.bytesOf p.code).length + Instruction.maxLength ≤
      buffer.length := by
    rwa [UInt64.toNat_zero, Nat.zero_add, bytesOf_code]
  have emitted : p.emit { cursor := { buffer } } =
      .ok () (Assembler.after { cursor := { buffer } } p.code) := by
    rw [emit_eq]
    exact Assembler.emitAll_of_room fits
  exact ⟨_, emitted, written_of_emit emitted⟩

/-- What a program writes is decoded to its listing. What is decoded is written again by the
program that consists of it. Hence programs that write the same bytes have the same listing, and a
program writes the beginning of what another one does only if its listing is the beginning. -/
theorem uniquely_decodable :
    (∀ (p : Program) (buffer : Buffer) (b : Assembler),
      p.emit { cursor := { buffer } } = .ok () b →
        ∃ bytes, Cursor.written b.cursor = .ok bytes b.cursor ∧
          decodeAll? bytes = some p.listing) ∧
    (∀ (bytes : List UInt8) (code : List Instruction), decodeAll? bytes = some code →
      (ofInstructions code).listing = code ∧ encodeAll code = bytes ∧
        ∀ buffer : Buffer, bytes.length + Instruction.maxLength ≤ buffer.length →
          (ofInstructions code).Emits buffer bytes) ∧
    ∀ (p q : Program) (buffer other : Buffer) (bytes more : List UInt8),
      p.Emits buffer bytes → q.Emits other more →
        (p.listing ≠ q.listing → bytes ≠ more) ∧
        (bytes <+: more → p.listing <+: q.listing) := by
  refine ⟨?_, ?_, ?_⟩
  · intro p buffer b emitted
    exact ⟨_, written_of_emit emitted, Instruction.decodeAll?_encodeAll _⟩
  · intro bytes code decoded
    have encoded := Instruction.encodeAll_of_decodeAll? decoded
    have same := instructions_ofInstructions code
    refine ⟨?_, encoded, fun buffer room => ?_⟩
    · rw [listing, same]
      rw [← encoded, Instruction.decodeAll?_encodeAll] at decoded
      exact Option.some.inj decoded
    · rw [← encoded, ← same] at room
      have written := emits_of_room room
      rwa [same, encoded] at written
  · intro p q buffer other bytes more first second
    rw [first.eq, second.eq]
    refine ⟨fun different same => different ?_, Instruction.canonical_prefix⟩
    have decoded := Instruction.decodeAll?_encodeAll p.instructions
    rw [same, Instruction.decodeAll?_encodeAll] at decoded
    exact (Option.some.inj decoded).symm

theorem uniquely_decodable_move_before_ret :
    decodeAll? [0x48, 0x89, 0xC0, 0xC3] =
      some (listing [.step (.movToRax .rax), .ret]) ∧
    Emits (ofInstructions [.movFromRax .rax, .ret]) (.filled 19 0) [0x48, 0x89, 0xC0, 0xC3] ∧
    listing [.step (.movToRax .rax)] <+: listing [.step (.movToRax .rax), .ret] := by
  obtain ⟨decoding, encoding, comparing⟩ := uniquely_decodable
  have whole : Emits [.step (.movToRax .rax), .ret] (.filled 19 0) [0x48, 0x89, 0xC0, 0xC3] :=
    emits_of_room (by decide)
  have part : Emits [.step (.movToRax .rax)] (.filled 18 0) [0x48, 0x89, 0xC0] :=
    emits_of_room (by decide)
  have decoded : decodeAll? [0x48, 0x89, 0xC0, 0xC3] =
      some (listing [.step (.movToRax .rax), .ret]) := by
    obtain ⟨b, emitted, written⟩ := whole
    obtain ⟨bytes, front, found⟩ := decoding _ _ b emitted
    rw [written] at front
    cases front
    exact found
  refine ⟨decoded, ?_, (comparing _ _ _ _ _ _ part whole).2 ⟨[0xC3], rfl⟩⟩
  exact (encoding _ _ decoded).2.2 (.filled 19 0) (by decide)

end Program
end Prebind
