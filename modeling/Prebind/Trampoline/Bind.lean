import Prebind.Code.Assembler

/-!
Trampolines: code that loads a constant into one argument register and jumps to a function. Whoever
calls the trampoline passes one argument less than the function takes.

There are two ways to write one. `bind` is an action that stops at the first fault, wherever that
leaves the buffer; `tryBind` looks for room first and does nothing if there is not enough.
-/

namespace Prebind

/-- Why no trampoline was written. -/
inductive BindError where
  | noPosition (index : Nat)
  | shortage (cause : Shortage)
  deriving DecidableEq, Repr

namespace BindError

def message : BindError → String
  | .noPosition index => Position.rejection index
  | .shortage cause => cause.message

/-- The error behind this one. -/
def cause? : BindError → Option Shortage
  | .noPosition _ => none
  | .shortage cause => some cause

end BindError

namespace Trampoline

/-- The instructions of a trampoline. -/
def code (function argument : UInt64) (position : Position) : List Instruction :=
  [.loadRax argument, .movFromRax position.register] ++ (Word.parts function).map .pushImm16 ++
    [.ret]

/-- The length of every trampoline in bytes. -/
def size : Nat := 30

/-- The bytes of a trampoline. -/
def bytes (function argument : UInt64) (position : Position) : List UInt8 :=
  (code function argument position).flatMap Instruction.encode

theorem length_bytes (function argument : UInt64) (position : Position) :
    (bytes function argument position).length = size := by
  cases position <;> simp [bytes, code, Word.parts, Instruction.encode, Position.register,
    Register.half, Register.number, size]

end Trampoline

namespace Assembler

/-- Writes a trampoline and gives its offset. -/
def emitTrampoline (function argument : UInt64) (position : Position) : Action UInt64 := do
  let entry ← onCursor Cursor.current
  let a ← get
  record (.binding function argument position a.cursor.position)
  loadRax argument
  movFromRax position.register
  jump function
  return entry

/-- Writes a trampoline for a position given by its index. -/
def bind (function argument index : UInt64) : Action UInt64 :=
  match Position.ofIndex? index.toNat with
  | some position => emitTrampoline function argument position
  | none => throw (.noPosition index.toNat)

/-- Writes a trampoline if its position exists and there is room for it, and otherwise leaves all as
it is. -/
def tryBind (function argument index : UInt64) : Action (Except BindError UInt64) :=
  match Position.ofIndex? index.toNat with
  | none => return .error (.noPosition index.toNat)
  | some position => do
    let a ← get
    match a.cursor.ensure Trampoline.size with
    | .error s => return .error (.shortage s)
    | .ok () => return .ok (← emitTrampoline function argument position)

end Assembler
end Prebind
