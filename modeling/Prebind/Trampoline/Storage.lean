import Prebind.Trampoline.Bind

/-!
Binding into storage that belongs to the caller. A call either writes one trampoline and reports
where the next one may go, or it gives nothing and leaves all as it was.
-/

namespace Prebind
namespace Storage

structure Call where
  offset : UInt64
  function : UInt64
  argument : UInt64
  index : UInt64
  /-- How much of the storage may be used, at most its length; all of it if nothing is said. -/
  size : Option UInt64 := none
  /-- There is storage at all. -/
  present : Bool := true
  /-- There is a variable of the caller for the next offset. -/
  reports : Bool := true
  deriving Repr

structure Answer where
  /-- The offset of the trampoline. -/
  entry : Option UInt64 := none
  /-- The offset behind it, as it is stored for the caller. -/
  next : Option UInt64 := none
  /-- The error that is warned about. -/
  warning : Option BindError := none
  deriving DecidableEq, Repr

/-- What a variable of the caller for the next offset holds behind a call. -/
def Answer.out (a : Answer) (before : UInt64) : UInt64 :=
  a.next.getD before

/-- The line of the log for a refused call. -/
def warningLine (e : BindError) : String :=
  "WARN argbind_bind_function_argument: " ++ e.message

/-- How much of the storage a call may use. -/
def Call.usable (call : Call) (storage : Buffer) : Nat :=
  match call.size with
  | some size => min size.toNat storage.length
  | none => storage.length

/-- Answers a call and gives the storage behind it. A cursor is only made where it keeps its
margin. -/
def bind (storage : Buffer) (call : Call) : Except Fault (Answer × Buffer) :=
  let size := call.usable storage
  let stop := Word.addSat call.offset (.ofNat Instruction.maxLength)
  if !call.present || size < stop.toNat then .ok ({}, storage)
  else do
    let cursor ← Cursor.start (storage.front size) call.offset
    match Assembler.tryBind call.function call.argument call.index { cursor } with
    | .error f _ => .error f
    | .ok (.error e) a => .ok ({ warning := some e }, storage.overwrite 0 a.cursor.buffer.bytes)
    | .ok (.ok entry) a =>
      let next := if call.reports then some a.cursor.position else none
      .ok ({ entry := some entry, next }, storage.overwrite 0 a.cursor.buffer.bytes)

/-- Answers calls in order, each on the storage that the one before it left. -/
def run : List Call → Buffer → Except Fault (List Answer × Buffer)
  | [], storage => .ok ([], storage)
  | call :: rest, storage => do
    let (answer, storage) ← bind storage call
    let (answers, storage) ← run rest storage
    return (answer :: answers, storage)

end Storage
end Prebind
