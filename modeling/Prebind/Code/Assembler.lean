import Prebind.Code.Cursor
import Prebind.Log
import Prebind.Text.Hex

/-!
An assembler: a cursor that takes instructions instead of bytes and keeps a log of them.

Each instruction is logged before it is written, hence also when writing it fails.
-/

namespace Prebind

/-- What an assembler puts in the log. -/
inductive Event where
  | instruction (offset : UInt64) (bytes : List UInt8) (mnemonic : String)
  | binding (function argument : UInt64) (position : Position) (offset : UInt64)
  deriving DecidableEq, Repr

namespace Event

/-- Text pushed to the right edge of a column. -/
def padLeft (width : Nat) (s : String) : String :=
  .ofList (List.replicate (width - s.length) ' ' ++ s.toList)

/-- Text at the left edge of a column. -/
def padRight (width : Nat) (s : String) : String :=
  .ofList (s.toList ++ List.replicate (width - s.length) ' ')

/-- An instruction shows its offset in hexadecimal, its bytes and its name, in columns. -/
def text : Event → String
  | .instruction offset bytes mnemonic =>
    padLeft 4 (.ofList (Nat.toDigits 16 offset.toNat)) ++ ": " ++ padRight 32 (Hex.spaced bytes) ++
      " " ++ mnemonic
  | .binding function argument position offset =>
    "binding " ++ Hex.number argument.toNat ++ " as argument " ++ toString position.index ++ " (" ++
      position.register.name ++ ") of " ++ Hex.number function.toNat ++ " at offset " ++
      Hex.number offset.toNat

def level : Event → Level
  | .instruction .. => .trace
  | .binding .. => .debug

def record (e : Event) : Record where
  level := e.level
  text := e.text

def line (e : Event) : String :=
  e.level.name ++ " " ++ e.text

end Event

structure Assembler where
  cursor : Cursor
  log : List Event := []
  deriving DecidableEq, Repr

namespace Assembler

/-- An action gives a result or a fault, and the assembler it leaves behind. -/
abbrev Action := EStateM Fault Assembler

/-- An action on the cursor alone. -/
def onCursor {α : Type} (action : Cursor.Action α) : Action α := fun a =>
  match action a.cursor with
  | .ok x cursor => .ok x { a with cursor }
  | .error f cursor => .error f { a with cursor }

def record (e : Event) : Action Unit := fun a =>
  .ok () { a with log := a.log ++ [e] }

/-- Logs an instruction under a name and writes it. -/
def emit (mnemonic : String) (i : Instruction) : Action Unit := do
  let a ← get
  record (.instruction a.cursor.position i.encode mnemonic)
  onCursor (Cursor.write i.encode)

def push16 (value : UInt16) : Action Unit :=
  emit "push imm16" (.pushImm16 value)

/-- Pushes a word in four parts, the most significant first, so that it reads back as one little-
endian word. A push of 32 bits would be sign-extended. -/
def pushImmediate (value : UInt64) : Action Unit :=
  (Word.parts value).forM push16

def pushRax : Action Unit :=
  emit "push rax" .pushRax

def popRax : Action Unit :=
  emit "pop rax" (.pop .rax)

def pop (dest : Register) : Action Unit :=
  emit "pop r64" (.pop dest)

def loadRax (value : UInt64) : Action Unit :=
  emit "mov rax, imm64" (.loadRax value)

def movFromRax (dest : Register) : Action Unit :=
  emit "mov r64, rax" (.movFromRax dest)

def movToRax (source : Register) : Action Unit :=
  emit "mov rax, r64" (.movToRax source)

def ret : Action Unit :=
  emit "ret" .ret

def breakpoint : Action Unit :=
  emit "int3" .breakpoint

/-- Jumps to any address: no jump instruction holds 64 bits of target, so the target is pushed and
returned to. -/
def jump (target : UInt64) : Action Unit := do
  pushImmediate target
  ret

end Assembler
end Prebind
