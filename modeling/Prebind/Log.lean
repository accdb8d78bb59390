/-!
The log: records of what is being done, and a logger that shows some of them, each on a line of its
own.
-/

namespace Prebind

inductive Level where
  | trace | debug | info | warn
  deriving DecidableEq, Repr

namespace Level

def name : Level → String
  | .trace => "TRACE"
  | .debug => "DEBUG"
  | .info => "INFO"
  | .warn => "WARN"

/-- How much a level matters. -/
def weight : Level → Nat
  | .trace => 0
  | .debug => 1
  | .info => 2
  | .warn => 3

end Level

structure Record where
  level : Level
  text : String
  deriving DecidableEq, Repr

structure Logger where
  /-- Whether a record is shown where those from a level on are asked for. The environment of a
  program may ask for others. -/
  shows : Level → Record → Bool := fun least r => least.weight ≤ r.level.weight
  /-- What stands in front of the text of a record, by the number of its line. -/
  head : Nat → Record → String

namespace Logger

/-- The records that are shown. -/
def shown (logger : Logger) (least : Level) (records : List Record) : List Record :=
  records.filter (logger.shows least)

/-- The lines of records. -/
def print (logger : Logger) (records : List Record) : String :=
  .join (records.mapIdx fun n r => logger.head n r ++ r.text ++ "\n")

end Logger
end Prebind
