import Prebind.Instruction
import Prebind.Trampoline.Position

/-!
Faults: a fault ends what is being done for good. It is no answer to a request that is refused,
which has an error of its own.
-/

namespace Prebind

inductive Fault where
  /-- The cursor, now at `position`, has lost its margin. -/
  | margin (position length : Nat)
  /-- A number would be beyond the largest one of its size. -/
  | arithmetic
  /-- A range of bytes does not lie in the buffer. -/
  | bounds
  /-- No argument can be bound at this index. -/
  | noPosition (index : Nat)
  deriving DecidableEq, Repr

/-- The state that an action leaves behind, with a result or with a fault. -/
def behind {σ α : Type} : EStateM.Result Fault σ α → σ
  | .ok _ s => s
  | .error _ s => s

/-- The text of a fault, for those that have one of their own. -/
def Fault.message? : Fault → Option String
  | .margin position length =>
    some (s!"code buffer overflow: cursor at {position} of {length} bytes leaves less than " ++
      s!"{Instruction.maxLength} bytes of margin")
  | .noPosition index => some (Position.rejection index)
  | .arithmetic | .bounds => none

end Prebind
