import Prebind.Word
import Prebind.Register

/-!
The x86-64 instructions that a trampoline is made of: their bytes, and a decoder that takes one
instruction off the front of a byte string.

A move between RAX and itself has two names but only one encoding; the decoder calls it a move from
RAX.
-/

namespace Prebind

inductive Instruction where
  /-- Push two bytes. -/
  | pushImm16 (value : UInt16)
  | pushRax
  | pop (dest : Register)
  /-- Load RAX with a constant. -/
  | loadRax (value : UInt64)
  | movFromRax (dest : Register)
  | movToRax (source : Register)
  | ret
  /-- The debug trap. -/
  | breakpoint
  deriving DecidableEq, Repr

/-- No x86-64 instruction is longer. -/
def Instruction.maxLength : Nat := 15

namespace Instruction

/-- The ModR/M byte of an instruction between two registers. -/
def modrm (reg rm : Nat) : UInt8 :=
  .ofNat (0xC0 + 8 * reg + rm)

/-- The bytes of an instruction. An extended register costs a prefix byte, or a bit in the one that
is there: REX.B where the register is a destination, REX.R where it is a source. -/
def encode : Instruction → List UInt8
  | .pushImm16 value => 0x66 :: 0x68 :: Word.bytesOf 2 value.toNat
  | .pushRax => [0x50]
  | .pop dest =>
    match dest.half with
    | .low => [.ofNat (0x58 + dest.place)]
    | .extended => [0x41, .ofNat (0x58 + dest.place)]
  | .loadRax value => 0x48 :: 0xB8 :: Word.bytesOf 8 value.toNat
  | .movFromRax dest =>
    match dest.half with
    | .low => [0x48, 0x89, modrm 0 dest.place]
    | .extended => [0x49, 0x89, modrm 0 dest.place]
  | .movToRax source =>
    match source.half with
    | .low => [0x48, 0x89, modrm source.place 0]
    | .extended => [0x4C, 0x89, modrm source.place 0]
  | .ret => [0xC3]
  | .breakpoint => [0xCC]

/-- The instruction that moves between RAX and the register a ModR/M byte names, given the half in
which a destination and the half in which a source lies, where there is one. -/
def ofModrm? (dest source : Option Register.Half) (byte : UInt8) : Option Instruction :=
  if byte < 0xC0 then none
  else
    let fields := byte.toNat - 0xC0
    if fields < 8 ∧ dest.isSome then dest.map fun h => .movFromRax (.ofPlace h fields)
    else if fields % 8 = 0 then source.map fun h => .movToRax (.ofPlace h (fields / 8))
    else none

/-- The first instruction of a byte string and the bytes behind it. -/
def decode? : List UInt8 → Option (Instruction × List UInt8)
  | 0x66 :: 0x68 :: a :: b :: rest => some (.pushImm16 (.ofNat (Word.ofBytes [a, b])), rest)
  | 0x41 :: op :: rest =>
    if 0x58 ≤ op ∧ op < 0x60 then some (.pop (.ofPlace .extended (op.toNat - 0x58)), rest)
    else none
  | 0x48 :: 0xB8 :: a :: b :: c :: d :: e :: f :: g :: h :: rest =>
    some (.loadRax (.ofNat (Word.ofBytes [a, b, c, d, e, f, g, h])), rest)
  | 0x48 :: 0x89 :: byte :: rest =>
    (ofModrm? (some .low) (some .low) byte).map (·, rest)
  | 0x49 :: 0x89 :: byte :: rest =>
    (ofModrm? (some .extended) none byte).map (·, rest)
  | 0x4C :: 0x89 :: byte :: rest =>
    (ofModrm? none (some .extended) byte).map (·, rest)
  | 0x50 :: rest => some (.pushRax, rest)
  | 0xC3 :: rest => some (.ret, rest)
  | 0xCC :: rest => some (.breakpoint, rest)
  | op :: rest =>
    if 0x58 ≤ op ∧ op < 0x60 then some (.pop (.ofPlace .low (op.toNat - 0x58)), rest)
    else none
  | [] => none

end Instruction
end Prebind
