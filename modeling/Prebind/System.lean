import Prebind.Fault
import Prebind.Log
import Prebind.Memory.Region

/-!
What a run finds around it: the memory that the system grants and where that is, the words of other
programs' libraries, and the logger.
-/

namespace Prebind

structure System where
  /-- Whether a region of a size is granted. -/
  grants : UInt64 → Bool := Region.hasRoom
  /-- Whether a region may become executable. -/
  permits : Bool := true
  /-- The address of the scratch buffer of a single trampoline. -/
  scratch : UInt64
  /-- The address of the region of a table. -/
  region : UInt64
  /-- What the TOML library says of a document that does not read as a manifest. -/
  explain : String → String
  /-- What is said when a fault ends a run. -/
  panic : Fault → String
  logger : Logger

/-- A system with two places for code and with no more to say than faults and records do. -/
def System.bare : System where
  scratch := 0x7e0000000000
  region := 0x7f0000000000
  explain := fun _ => ""
  panic := fun f => f.message?.getD ""
  logger := { head := fun _ r => "[" ++ r.level.name ++ "] " }

end Prebind
