import Prebind.Machine.Step
import Prebind.Trampoline.Table

/-!
Calls by the System V convention. Integer arguments are passed in registers, the result comes back
in RAX, and the return address is on top of the stack.

A host knows functions that are not machine code but live at addresses of their own. Reaching such
an address runs the function on its argument registers and returns to the caller.
-/

namespace Prebind

/-- A function of words with a fixed number of arguments. -/
structure Native where
  arity : Nat
  apply : List UInt64 → UInt64

/-- The functions at addresses. -/
abbrev Host := UInt64 → Option Native

namespace Machine

/-- The registers of integer arguments, in the order of the arguments. -/
def argumentRegisters : List Register :=
  [.rdi, .rsi, .rdx, .rcx, .r8, .r9]

/-- Runs a function of the host and returns from it. -/
def runNative (f : Native) (m : Machine) : Machine :=
  let result := f.apply ((argumentRegisters.take f.arity).map m.registers)
  let (target, m) := m.popWord
  { m.set .rax result with rip := target }

def advance? (host : Host) (m : Machine) : Option Machine :=
  match host m.rip with
  | some f => some (runNative f m)
  | none => m.step?

/-- Runs until the instruction pointer is at an address, for a limited number of steps. -/
def runTo? (host : Host) (stop : UInt64) : Nat → Machine → Option Machine
  | 0, m => if m.rip = stop then some m else none
  | n + 1, m => if m.rip = stop then some m else (advance? host m).bind (runTo? host stop n)

/-- Puts arguments into their registers, a return address on the stack, and goes to the entry. -/
def enter (m : Machine) (entry back : UInt64) (arguments : List UInt64) : Machine :=
  let m := (argumentRegisters.zip arguments).foldl (fun m (r, value) => m.set r value) m
  { m.pushWord back with rip := entry }

end Machine

namespace CallableTable

/-- Where a table is loaded and called from. -/
structure Place where
  base : UInt64 := 0x7f0000000000
  stack : UInt64 := 0x7ffe00000000
  /-- The return address of calls. -/
  back : UInt64 := 0x400000

/-- The steps of a call: those of a trampoline and the function behind it. -/
def callSteps : Nat := 8

/-- The result of calling the trampoline of a name. -/
def call? (t : CallableTable) (host : Host) (place : Place) (name : String)
    (arguments : List UInt64) : Option UInt64 := do
  let entry ← t.function? place.base name
  let idle : Machine :=
    { registers := fun r => if r = .rsp then place.stack else 0, rip := 0, memory := fun _ => 0 }
  let m := (idle.withBytes place.base t.region.buffer.bytes).enter entry place.back arguments
  let m ← m.runTo? host place.back callSteps
  return m.registers .rax

end CallableTable
end Prebind
