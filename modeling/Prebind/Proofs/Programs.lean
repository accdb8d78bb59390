import Prebind.Proofs.Emission
import Prebind.Proofs.StraightLine

/-!
Programs: what can be asked of the assembler, one statement after the other. A program that meets no
fault has written the instructions that its statements stand for side by side behind the cursor that
it started from, and nothing else.
-/

namespace Prebind

open Machine (encodeAll)

/-- A statement behind which the next one is executed. -/
inductive Step where
  | push16 (value : UInt16)
  | pushImmediate (value : UInt64)
  | pushRax
  | popRax
  | pop (dest : Register)
  | loadRax (value : UInt64)
  | movFromRax (dest : Register)
  | movToRax (source : Register)
  deriving DecidableEq, Repr

inductive Statement where
  | step (s : Step)
  | jump (target : UInt64)
  | ret
  | breakpoint
  deriving DecidableEq, Repr

def Step.emit : Step → Assembler.Action Unit
  | .push16 value => Assembler.push16 value
  | .pushImmediate value => Assembler.pushImmediate value
  | .pushRax => Assembler.pushRax
  | .popRax => Assembler.popRax
  | .pop dest => Assembler.pop dest
  | .loadRax value => Assembler.loadRax value
  | .movFromRax dest => Assembler.movFromRax dest
  | .movToRax source => Assembler.movToRax source

/-- The instructions of a step, under the names they are logged by. -/
def Step.code : Step → List (String × Instruction)
  | .push16 value => [("push imm16", .pushImm16 value)]
  | .pushImmediate value => Assembler.pushes value
  | .pushRax => [("push rax", .pushRax)]
  | .popRax => [("pop rax", .pop .rax)]
  | .pop dest => [("pop r64", .pop dest)]
  | .loadRax value => [("mov rax, imm64", .loadRax value)]
  | .movFromRax dest => [("mov r64, rax", .movFromRax dest)]
  | .movToRax source => [("mov rax, r64", .movToRax source)]

def Statement.emit : Statement → Assembler.Action Unit
  | .step s => s.emit
  | .jump target => Assembler.jump target
  | .ret => Assembler.ret
  | .breakpoint => Assembler.breakpoint

def Statement.code : Statement → List (String × Instruction)
  | .step s => s.code
  | .jump target => Assembler.jumpCode target
  | .ret => [("ret", .ret)]
  | .breakpoint => [("int3", .breakpoint)]

theorem Step.emit_eq (s : Step) : s.emit = Assembler.emitAll s.code := by
  cases s with
  | pushImmediate value => exact Assembler.pushImmediate_eq value
  | _ => exact (Assembler.emitAll_single _ _).symm

theorem Statement.emit_eq (s : Statement) : s.emit = Assembler.emitAll s.code := by
  cases s with
  | step s => exact s.emit_eq
  | jump target => exact Assembler.jump_eq target
  | ret | breakpoint => exact (Assembler.emitAll_single _ _).symm

abbrev Program := List Statement

namespace Program

def emit (p : Program) : Assembler.Action Unit :=
  p.forM Statement.emit

def code (p : Program) : List (String × Instruction) :=
  p.flatMap Statement.code

/-- The instructions that a program stands for. -/
def instructions (p : Program) : List Instruction :=
  p.code.map Prod.snd

theorem instructions_cons (s : Statement) (p : Program) :
    instructions (s :: p) = s.code.map Prod.snd ++ instructions p :=
  List.map_append

theorem emit_eq (p : Program) : p.emit = Assembler.emitAll p.code := by
  induction p with
  | nil => rfl
  | cons s rest ih =>
      have split : emit (s :: rest) = (do s.emit; emit rest) := rfl
      have joined : code (s :: rest) = s.code ++ code rest := rfl
      rw [split, joined, Assembler.emitAll_append, s.emit_eq, ih]

theorem bytesOf_code (p : Program) : Assembler.bytesOf p.code = encodeAll p.instructions := by
  simp only [Assembler.bytesOf, encodeAll, instructions, List.flatMap_map]

variable {p : Program} {a b : Assembler}

theorem cursor_of_emit (emitted : p.emit a = .ok () b) :
    b.cursor = a.cursor.put (encodeAll p.instructions) := by
  rw [emit_eq] at emitted
  rw [(Assembler.emitAll_eq_ok emitted).1, ← bytesOf_code]
  rfl

/-- A program that met no fault has no bytes, or found room for them. -/
theorem fits_of_emit (emitted : p.emit a = .ok () b) :
    encodeAll p.instructions = [] ∨
      a.cursor.position.toNat + (encodeAll p.instructions).length ≤ a.cursor.buffer.length := by
  rw [emit_eq] at emitted
  rw [← bytesOf_code]
  obtain none | room := (Assembler.emitAll_eq_ok emitted).2
  · exact .inl (by rw [none]; rfl)
  · exact .inr (by omega)

theorem position_of_emit (emitted : p.emit a = .ok () b) :
    b.cursor.position.toNat = a.cursor.position.toNat + (encodeAll p.instructions).length := by
  rw [cursor_of_emit emitted]
  obtain none | fits := fits_of_emit emitted
  · rw [none, Cursor.put_nil]
    rfl
  · exact Cursor.position_put fits

/-- What a program has written stands behind the cursor that it started from. -/
theorem getElem?_of_emit (emitted : p.emit a = .ok () b) {i : Nat}
    (hi : i < (encodeAll p.instructions).length) :
    b.cursor.buffer.bytes[a.cursor.position.toNat + i]? = (encodeAll p.instructions)[i]? := by
  rw [cursor_of_emit emitted]
  obtain none | fits := fits_of_emit emitted
  · rw [none] at hi
    cases hi
  · exact Buffer.getElem?_overwrite_of_inside fits hi

/-- A program that starts a buffer has written its bytes in front of the cursor. -/
theorem written_of_emit {buffer : Buffer}
    (emitted : p.emit { cursor := { buffer } } = .ok () b) :
    Cursor.written b.cursor = .ok (encodeAll p.instructions) b.cursor := by
  have fits : (encodeAll p.instructions).length ≤ buffer.length := by
    obtain none | fits := fits_of_emit emitted
    · rw [none]
      exact Nat.zero_le _
    · rwa [UInt64.toNat_zero, Nat.zero_add] at fits
  have position := position_of_emit emitted
  rw [UInt64.toNat_zero, Nat.zero_add] at position
  have front : b.cursor.buffer.bytes.take b.cursor.position.toNat = encodeAll p.instructions := by
    rw [position, cursor_of_emit emitted, Cursor.put, UInt64.toNat_zero,
      Buffer.bytes_overwrite (by rwa [Nat.zero_add]), List.take_zero, List.nil_append]
    exact List.take_left' rfl
  have inside : b.cursor.position.toNat ≤ b.cursor.buffer.length := by
    rw [position, cursor_of_emit emitted, Cursor.length_put]
    exact fits
  rw [Cursor.written, if_pos inside, front]

end Program
end Prebind
