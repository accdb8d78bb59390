import Prebind.Instruction

/-!
The part of an x86-64 processor that trampolines need: registers, an instruction pointer and
byte-addressed memory, with addresses taken modulo 2^64. A step fetches, decodes and executes one
instruction; there is none where the bytes are no known instruction or the debug trap.
-/

namespace Prebind

structure Machine where
  registers : Register → UInt64
  /-- The address of the next instruction. -/
  rip : UInt64
  memory : UInt64 → UInt8

namespace Machine

/-- The bytes from an address on. -/
def load (memory : UInt64 → UInt8) (address : UInt64) : Nat → List UInt8
  | 0 => []
  | n + 1 => memory address :: load memory (address + 1) n

/-- The memory with bytes put in from an address on. -/
def store (memory : UInt64 → UInt8) (address : UInt64) : List UInt8 → UInt64 → UInt8
  | [] => memory
  | b :: bs => store (fun a => if a = address then b else memory a) (address + 1) bs

def set (m : Machine) (r : Register) (value : UInt64) : Machine :=
  { m with registers := fun s => if s = r then value else m.registers s }

/-- Lowers the stack pointer and stores bytes there. -/
def push (m : Machine) (bytes : List UInt8) : Machine :=
  let top := m.registers .rsp - .ofNat bytes.length
  { m.set .rsp top with memory := store m.memory top bytes }

def pushWord (m : Machine) (value : UInt64) : Machine :=
  m.push (Word.bytesOf 8 value.toNat)

/-- Takes a word off the stack. -/
def popWord (m : Machine) : UInt64 × Machine :=
  let top := m.registers .rsp
  (.ofNat (Word.ofBytes (load m.memory top 8)), m.set .rsp (top + 8))

/-- What an instruction does once the instruction pointer is behind it. A pop into the stack pointer
leaves the popped value there. -/
def execute : Instruction → Machine → Option Machine
  | .pushImm16 value, m => some (m.push (Word.bytesOf 2 value.toNat))
  | .pushRax, m => some (m.pushWord (m.registers .rax))
  | .pop dest, m =>
    let (value, m) := m.popWord
    some (m.set dest value)
  | .loadRax value, m => some (m.set .rax value)
  | .movFromRax dest, m => some (m.set dest (m.registers .rax))
  | .movToRax source, m => some (m.set .rax (m.registers source))
  | .ret, m =>
    let (target, m) := m.popWord
    some { m with rip := target }
  | .breakpoint, _ => none

/-- The instruction at the instruction pointer and its length. -/
def fetch? (m : Machine) : Option (Instruction × Nat) :=
  let window := load m.memory m.rip Instruction.maxLength
  (Instruction.decode? window).map fun (i, rest) => (i, window.length - rest.length)

def step? (m : Machine) : Option Machine := do
  let (i, length) ← m.fetch?
  execute i { m with rip := m.rip + .ofNat length }

/-- The machine after a number of steps. -/
def steps? : Nat → Machine → Option Machine
  | 0, m => some m
  | n + 1, m => m.step?.bind (steps? n)

/-- The machine with bytes loaded at an address. -/
def withBytes (m : Machine) (address : UInt64) (bytes : List UInt8) : Machine :=
  { m with memory := fun a => bytes.getD (a - address).toNat (m.memory a) }

end Machine
end Prebind
