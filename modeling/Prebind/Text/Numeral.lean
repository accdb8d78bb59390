import Prebind.Word
import Prebind.Text.Hex

/-!
Numerals for words, in a radix up to sixteen. A plus sign may stand in front. Digits are read from
the left, and the first that is none or that leads beyond the largest word decides the error.
-/

namespace Prebind

inductive NumeralError where
  | empty
  | invalidDigit
  | tooLarge
  deriving DecidableEq, Repr

def NumeralError.message : NumeralError → String
  | .empty => "cannot parse integer from empty string"
  | .invalidDigit => "invalid digit found in string"
  | .tooLarge => "number too large to fit in target type"

namespace Numeral

/-- The value of a character that is a digit of the radix. -/
def digit? (radix : Nat) (c : Char) : Option Nat :=
  (Hex.digit? c).filter (· < radix)

/-- Reads on from a value. -/
def readDigits (radix : Nat) (value : Nat) : List Char → Except NumeralError Nat
  | [] => .ok value
  | c :: rest =>
    match digit? radix c with
    | none => .error .invalidDigit
    | some d =>
      let next := value * radix + d
      if next < UInt64.size then readDigits radix next rest else .error .tooLarge

/-- The text without a plus sign in front. A sign on its own is kept, and is no digit. -/
def dropSign : List Char → List Char
  | '+' :: c :: rest => c :: rest
  | s => s

def read (radix : Nat) (s : List Char) : Except NumeralError UInt64 :=
  match dropSign s with
  | [] => .error .empty
  | digits => (readDigits radix 0 digits).map .ofNat

end Numeral
end Prebind
