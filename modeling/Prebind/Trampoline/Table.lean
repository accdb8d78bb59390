import Prebind.Memory.Region
import Prebind.Trampoline.Bind

/-!
Tables of named trampolines, written back to back into one region. A table has a fixed capacity and
leaves the margin of the code cursor free behind its last entry. Finishing it makes the region
executable and ends the writing.
-/

namespace Prebind

inductive TableError where
  | memory (cause : MemoryError)
  | bind (cause : BindError)
  | full (capacity : Nat)
  | duplicate (name : String)
  deriving DecidableEq, Repr

def TableError.message : TableError → String
  | .memory cause => cause.message
  | .bind cause => cause.message
  | .full capacity => s!"trampoline table is full ({capacity} entries)"
  | .duplicate name => s!"duplicate trampoline name: {name}"

structure Table.Entry where
  name : String
  function : UInt64
  argument : UInt64
  position : Position
  /-- Where the trampoline stands in the region. -/
  offset : Nat
  deriving DecidableEq, Repr

structure Table where
  region : Region .writable
  capacity : UInt64
  entries : List Table.Entry := []
  /-- What has been logged of the writing. -/
  log : List Event := []

/-- A table that can be called and no longer be written. -/
structure CallableTable where
  region : Region .executable
  entries : List Table.Entry

namespace Table

/-- The size of a region for a number of trampolines, margin included. -/
def requiredSize? (capacity : UInt64) : Option UInt64 := do
  let size ← Word.mul? capacity (.ofNat Trampoline.size)
  Word.add? size (.ofNat Instruction.maxLength)

/-- A table for a number of trampolines, if the system grants the region. -/
def create (capacity : UInt64) (grants : UInt64 → Bool := Region.hasRoom) :
    Except Fault (Except TableError Table) :=
  match requiredSize? capacity with
  | none => .error .arithmetic
  | some size =>
    match Region.map size Region.pageSize grants with
    | .error e => .ok (.error (.memory e))
    | .ok region => .ok (.ok { region, capacity })

/-- An action gives a result or a fault, and the table it leaves behind. -/
abbrev Action := EStateM Fault Table

/-- Carries out an assembler's action on the region from an offset on. -/
def assemble {α : Type} (offset : UInt64) (action : Assembler.Action α) : Action α := fun t =>
  match Cursor.start t.region.buffer offset with
  | .error f => .error f t
  | .ok cursor =>
    match action { cursor, log := t.log } with
    | .ok x a => .ok x { t with region := ⟨a.cursor.buffer⟩, log := a.log }
    | .error f a => .error f { t with region := ⟨a.cursor.buffer⟩, log := a.log }

/-- Looks for room and writes a trampoline. -/
def writeEntry (function argument : UInt64) (position : Position) :
    Assembler.Action (Except Shortage Unit) := do
  match (← get).cursor.ensure Trampoline.size with
  | .error s => return .error s
  | .ok () => do
    let _ ← Assembler.emitTrampoline function argument position
    return .ok ()

/-- Adds a trampoline behind the last one and gives its offset. -/
def push (name : String) (function argument index : UInt64) : Action (Except TableError Nat) := do
  let t ← get
  match Position.ofIndex? index.toNat with
  | none => return .error (.bind (.noPosition index.toNat))
  | some position =>
    if t.entries.length = t.capacity.toNat then return .error (.full t.capacity.toNat)
    else if t.entries.any (·.name = name) then return .error (.duplicate name)
    else
      match Word.ofNat? (t.entries.length * Trampoline.size) with
      | none => throw .arithmetic
      | some offset =>
        match ← assemble offset (writeEntry function argument position) with
        | .error s => return .error (.bind (.shortage s))
        | .ok () =>
          let entry := { name, function, argument, position, offset := offset.toNat }
          modify fun t => { t with entries := t.entries ++ [entry] }
          return .ok offset.toNat

def find? (entries : List Entry) (name : String) : Option Entry :=
  entries.find? (·.name = name)

/-- The bytes of the trampoline of a name. -/
def code? (t : Table) (name : String) : Option (List UInt8) := do
  let e ← find? t.entries name
  t.region.buffer.slice? e.offset Trampoline.size

/-- Ends the writing, if the system permits the region to be executed. -/
def finish (t : Table) (permits : Bool := true) : Except TableError CallableTable :=
  match t.region.protect permits with
  | .error e => .error (.memory e)
  | .ok region => .ok ⟨region, t.entries⟩

/-- What is logged of a table that has been finished, with the address of its region. -/
def finishRecords (t : Table) (address : UInt64) : List Record :=
  let place := Hex.number address.toNat
  [⟨.debug, s!"region {place} ({t.region.size} bytes) is now executable"⟩,
   ⟨.debug, s!"finalized {t.entries.length} trampolines at {place}"⟩]

end Table

namespace CallableTable

def code? (t : CallableTable) (name : String) : Option (List UInt8) := do
  let e ← Table.find? t.entries name
  t.region.buffer.slice? e.offset Trampoline.size

/-- The address of the trampoline of a name, in a region that starts at `base`. -/
def entry? (t : CallableTable) (base : UInt64) (name : String) : Option UInt64 :=
  (Table.find? t.entries name).map fun e => base + .ofNat e.offset

/-- The same as a function to call, which has to start inside the region. -/
def function? (t : CallableTable) (base : UInt64) (name : String) : Option UInt64 := do
  let e ← Table.find? t.entries name
  let offset ← t.region.function? 8 e.offset
  return base + .ofNat offset

end CallableTable
end Prebind
