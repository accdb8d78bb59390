import Prebind.Trampoline.Bind

/-!
Sessions: a list of commands carried out one after the other on one buffer. A command that ends in a
fault does not end the session; the next one goes on from the state that is left behind.
-/

namespace Prebind

inductive Command where
  | writeByte (byte : UInt8)
  | writeBytes (bytes : List UInt8)
  | push16 (value : UInt16)
  | pushImmediate (value : UInt64)
  | pushRax
  | popRax
  | pop (dest : Register)
  | loadRax (value : UInt64)
  | movFromRax (dest : Register)
  | movToRax (source : Register)
  | jump (target : UInt64)
  | ret
  | breakpoint
  | advance (size : UInt64)
  | ensure (size : UInt64)
  | current
  | written
  | bind (function argument index : UInt64)
  | tryBind (function argument index : UInt64)
  | emitTrampoline (function argument : UInt64) (position : Position)
  deriving DecidableEq, Repr

/-- What a command answers if it meets no fault. -/
inductive Reply where
  | done
  | offset (value : UInt64)
  | bytes (value : List UInt8)
  | shortage (cause : Shortage)
  | refused (cause : BindError)
  deriving DecidableEq, Repr

def Command.perform : Command → Assembler.Action Reply
  | .writeByte byte => do Assembler.onCursor (Cursor.write [byte]); return .done
  | .writeBytes bytes => do Assembler.onCursor (Cursor.write bytes); return .done
  | .push16 value => do Assembler.push16 value; return .done
  | .pushImmediate value => do Assembler.pushImmediate value; return .done
  | .pushRax => do Assembler.pushRax; return .done
  | .popRax => do Assembler.popRax; return .done
  | .pop dest => do Assembler.pop dest; return .done
  | .loadRax value => do Assembler.loadRax value; return .done
  | .movFromRax dest => do Assembler.movFromRax dest; return .done
  | .movToRax source => do Assembler.movToRax source; return .done
  | .jump target => do Assembler.jump target; return .done
  | .ret => do Assembler.ret; return .done
  | .breakpoint => do Assembler.breakpoint; return .done
  | .advance size => do Assembler.onCursor (Cursor.advance size); return .done
  | .ensure size => do
    match (← get).cursor.ensure size.toNat with
    | .ok () => return .done
    | .error s => return .shortage s
  | .current => return .offset (← Assembler.onCursor Cursor.current)
  | .written => return .bytes (← Assembler.onCursor Cursor.written)
  | .bind function argument index => return .offset (← Assembler.bind function argument index)
  | .tryBind function argument index => do
    match ← Assembler.tryBind function argument index with
    | .ok entry => return .offset entry
    | .error e => return .refused e
  | .emitTrampoline function argument position =>
    return .offset (← Assembler.emitTrampoline function argument position)

/-- What a command did: its answer, the cursor behind it, and its lines of the log. -/
structure Outcome where
  reply : Except Fault Reply
  cursor : Cursor
  events : List Event

def Command.run (command : Command) (cursor : Cursor) : Outcome :=
  match command.perform { cursor } with
  | .ok reply a => ⟨.ok reply, a.cursor, a.log⟩
  | .error fault a => ⟨.error fault, a.cursor, a.log⟩

namespace Session

/-- Carries out commands in order, whatever faults they meet. -/
def run : List Command → Cursor → List Outcome
  | [], _ => []
  | command :: rest, cursor =>
    let outcome := command.run cursor
    outcome :: run rest outcome.cursor

/-- The cursor behind the last command. -/
def final (commands : List Command) (cursor : Cursor) : Cursor :=
  commands.foldl (fun c command => (command.run c).cursor) cursor

end Session
end Prebind
