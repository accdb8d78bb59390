import Prebind.Memory.Buffer

/-!
Regions of memory for code: a whole number of pages, zero at first. A region can be written until it
is protected, and executed from then on, so it is never both.
-/

namespace Prebind

inductive MemoryError where
  | allocationFailed
  | protectionFailed
  | invalidSize
  deriving DecidableEq, Repr

def MemoryError.message : MemoryError → String
  | .allocationFailed => "memory allocation failed"
  | .protectionFailed => "memory protection change failed"
  | .invalidSize => "invalid memory size"

/-- What a region may be used for. -/
inductive Access where
  | writable | executable

structure Region (access : Access) where
  buffer : Buffer

namespace Region

def pageSize : UInt64 := 4096

/-- From this size on an address space has no room for a region. -/
def limit : Nat := 0x800000000000

/-- The least multiple of a page size, which is a power of two, that is not below a size; none if it
is no word. -/
def roundUp? (page size : UInt64) : Option UInt64 :=
  (Word.add? size (page - 1)).map (· &&& ~~~(page - 1))

/-- Whether an address space has room for a region. -/
def hasRoom (whole : UInt64) : Bool :=
  whole.toNat < limit

/-- A region of at least `size` bytes in whole pages, if the system grants as much. -/
def map (size : UInt64) (page : UInt64 := pageSize) (grants : UInt64 → Bool := hasRoom) :
    Except MemoryError (Region .writable) :=
  if size = 0 then .error .invalidSize
  else
    match roundUp? page size with
    | none => .error .invalidSize
    | some whole =>
      if grants whole then .ok ⟨.filled whole 0⟩
      else .error .allocationFailed

variable {access : Access}

def size (r : Region access) : Nat :=
  r.buffer.length

/-- The region with bytes put in at an offset, if they fit. -/
def store? (r : Region .writable) (start : Nat) (bytes : List UInt8) : Option (Region .writable) :=
  if start + bytes.length ≤ r.size then some ⟨r.buffer.overwrite start bytes⟩ else none

/-- The region as one that may be executed, with all of its bytes. -/
def executable (r : Region .writable) : Region .executable :=
  ⟨r.buffer⟩

/-- Ends the writing and allows the executing, if the system permits it. -/
def protect (r : Region .writable) (permits : Bool := true) :
    Except MemoryError (Region .executable) :=
  if permits then .ok r.executable else .error .protectionFailed

/-- The offset of a function in the region. A value that is not as wide as an address holds none. -/
def function? (r : Region .executable) (width offset : Nat) : Option Nat :=
  if offset < r.size ∧ width = 8 then some offset else none

end Region
end Prebind
