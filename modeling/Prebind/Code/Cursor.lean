import Prebind.Fault
import Prebind.Memory.Buffer

/-!
A cursor that writes forward through a code buffer of fixed length.

Behind the cursor there is always meant to be room for one more instruction of the greatest length.
This margin is checked after a move, so an action can fail with bytes written and the cursor moved;
an action therefore says what it leaves behind in either case.
-/

namespace Prebind

/-- A buffer has less room than was asked for. -/
structure Shortage where
  requested : Nat
  available : Nat
  deriving DecidableEq, Repr

def Shortage.message (s : Shortage) : String :=
  s!"code buffer too small: {s.requested} bytes requested, {s.available} available before the " ++
    s!"{Instruction.maxLength}-byte margin"

structure Cursor where
  buffer : Buffer
  position : UInt64 := 0
  deriving DecidableEq, Repr

namespace Cursor

/-- An action gives a result or a fault, and the cursor it leaves behind. -/
abbrev Action := EStateM Fault Cursor

/-- How many bytes can be written with the margin kept. -/
def remaining (c : Cursor) : Nat :=
  c.buffer.length - Instruction.maxLength - c.position.toNat

def ensure (c : Cursor) (size : Nat) : Except Shortage Unit :=
  if size ≤ c.remaining then .ok () else .error ⟨size, c.remaining⟩

/-- Moves the cursor, then checks the margin. -/
def advance (size : UInt64) : Action Unit := fun c =>
  match Word.add? c.position size with
  | none => .error .arithmetic c
  | some position =>
    let moved := { c with position }
    match Word.add? position (.ofNat Instruction.maxLength) with
    | none => .error .arithmetic moved
    | some stop =>
      if stop.toNat ≤ c.buffer.length then .ok () moved
      else .error (.margin position.toNat c.buffer.length) moved

/-- Writes bytes at the cursor and moves behind them. -/
def write (bytes : List UInt8) : Action Unit := fun c =>
  match Word.ofNat? (c.position.toNat + bytes.length) with
  | none => .error .arithmetic c
  | some stop =>
    if stop.toNat ≤ c.buffer.length then
      advance (.ofNat bytes.length)
        { c with buffer := c.buffer.overwrite c.position.toNat bytes }
    else .error .bounds c

/-- The offset that the next byte goes to. It may be the end of the buffer, but not lie behind. -/
def current : Action UInt64 := fun c =>
  if c.position.toNat ≤ c.buffer.length then .ok c.position c else .error .bounds c

/-- The bytes in front of the cursor. -/
def written : Action (List UInt8) := fun c =>
  if c.position.toNat ≤ c.buffer.length then .ok (c.buffer.bytes.take c.position.toNat) c
  else .error .bounds c

/-- A cursor that has been moved to an offset of a buffer. -/
def start (buffer : Buffer) (offset : UInt64) : Except Fault Cursor :=
  match advance offset { buffer } with
  | .ok () c => .ok c
  | .error f _ => .error f

end Cursor
end Prebind
