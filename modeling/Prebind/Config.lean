import Prebind.Log

/-!
Settings of the generator, and the version it carries.
-/

namespace Prebind

/-- The version as major, minor and patch number. -/
def version : List Nat :=
  [0, 1, 0]

def versionText : String :=
  ".".intercalate (version.map toString)

/-- How listings are printed. -/
inductive Format where
  | human | json
  deriving DecidableEq, Repr

def Format.name : Format → String
  | .human => "Human"
  | .json => "Json"

structure Config where
  /-- Log every instruction. -/
  trace : Bool := false
  format : Format := .human
  /-- The byte that scratch buffers are filled with. -/
  fill : UInt8 := 0xCC
  /-- The address that code is said to be loaded at. -/
  base : Option UInt64 := none
  deriving Repr

/-- The level from which on records of the log are shown. -/
def Config.logLevel (c : Config) : Level :=
  if c.trace then .trace else .warn

end Prebind
