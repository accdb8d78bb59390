import Prebind.Text.Blank
import Prebind.Text.Numeral

/-!
The text form of addresses and bound values: a decimal numeral, or a hexadecimal one behind `0x` or
`0X`. Blanks around it and underscores anywhere in it do not count. They are always written in
hexadecimal.
-/

namespace Prebind

structure AddressError where
  /-- The whole text, as it was given. -/
  text : String
  cause : NumeralError
  deriving DecidableEq, Repr

def AddressError.message (e : AddressError) : String :=
  "invalid address '" ++ e.text ++ "': " ++ e.cause.message

namespace Address

/-- The characters of a text that count. -/
def significant (s : List Char) : List Char :=
  (Text.trim s).filter (· ≠ '_')

/-- The radix of a numeral, and its digits. -/
def splitRadix : List Char → Nat × List Char
  | '0' :: 'x' :: digits => (16, digits)
  | '0' :: 'X' :: digits => (16, digits)
  | digits => (10, digits)

def parse (text : String) : Except AddressError UInt64 :=
  let (radix, digits) := splitRadix (significant text.toList)
  (Numeral.read radix digits).mapError fun cause => ⟨text, cause⟩

def render (address : UInt64) : String :=
  Hex.number address.toNat

end Address
end Prebind
