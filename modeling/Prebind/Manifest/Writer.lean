import Prebind.Address
import Prebind.Fault
import Prebind.Manifest.Basic
import Prebind.Toml.Written

/-!
Writing a manifest as a TOML document: a header and four lines for each entry, with an empty line
between entries. TOML integers have a sign, so there are positions that cannot be written. A name
that cannot be quoted is found only when the text is put together, behind all positions.
-/

namespace Prebind
namespace Manifest

/-- A manifest holds a number that no TOML integer is equal to. -/
inductive WriteError where
  | outOfRange
  deriving DecidableEq, Repr

def WriteError.message : WriteError → String
  | .outOfRange => "out-of-range value for u64 type"

def Entry.lines (e : Entry) : List Char :=
  "[[trampoline]]\nname = ".toList ++ Toml.Written.quote e.name.toList ++ "\ntarget = ".toList ++
    Toml.Written.quote (Address.render e.target).toList ++ "\nvalue = ".toList ++
    Toml.Written.quote (Address.render e.value).toList ++ "\nposition = ".toList ++
    Nat.toDigits 10 e.position.toNat ++ ['\n']

/-- The text of a manifest, whatever its names and positions. -/
def text (m : Manifest) : String :=
  match m.entries with
  | [] => "trampoline = []\n"
  | es => .ofList (List.intercalate ['\n'] (es.map Entry.lines))

def write (m : Manifest) : Except Fault (Except WriteError String) :=
  if m.entries.any (0x8000000000000000 ≤ ·.position.toNat) then .ok (.error .outOfRange)
  else if m.entries.all (Toml.Written.isQuotable ·.name.toList) then .ok (.ok m.text)
  else .error .arithmetic

end Manifest
end Prebind
