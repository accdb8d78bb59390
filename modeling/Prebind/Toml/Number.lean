import Prebind.Text.Hex
import Prebind.Toml.Scanner
import Prebind.Toml.Value

/-!
Numbers. An integer is decimal, with an optional sign and without leading zeros, or hexadecimal,
octal or binary; it has to fit in 64 bits with a sign. A float has a fraction or an exponent and is
read as the nearest double, which must not be beyond the greatest one. Single underscores may stand
between digits.
-/

namespace Prebind
namespace Toml
namespace Number

/-- Digits up to the first other character. An underscore counts if a digit follows it, and is
dropped. -/
def moreDigits (isDigit : Char → Bool) : List Char → List Char × List Char
  | '_' :: d :: rest =>
    if isDigit d then
      let (digits, rest) := moreDigits isDigit rest
      (d :: digits, rest)
    else ([], '_' :: d :: rest)
  | c :: rest =>
    if isDigit c then
      let (digits, rest) := moreDigits isDigit rest
      (c :: digits, rest)
    else ([], c :: rest)
  | [] => ([], [])

/-- Digits, at least one, of which the first may be zero. -/
def digits (isDigit : Char → Bool) : Scanner (List Char)
  | c :: rest =>
    if isDigit c then
      let (more, rest) := moreDigits isDigit rest
      some (c :: more, rest)
    else none
  | [] => none

def isDecimal (c : Char) : Bool :=
  c.isDigit

def isDigitOf (radix : Nat) (c : Char) : Bool :=
  (Hex.digit? c).any (· < radix)

/-- The value of digits in a radix. -/
def value (radix : Nat) (digits : List Char) : Nat :=
  digits.foldl (fun n c => n * radix + (Hex.digit? c).getD 0) 0

/-- A sign; it is negative for a minus. -/
def sign : List Char → Bool × List Char
  | '-' :: rest => (true, rest)
  | '+' :: rest => (false, rest)
  | s => (false, s)

/-- Decimal digits of which the first is zero only if it is the only one. -/
def whole : Scanner (List Char)
  | '0' :: rest => some (['0'], rest)
  | s => digits isDecimal s

def fits (i : Int) : Bool :=
  -0x8000000000000000 ≤ i && i < 0x8000000000000000

def checked (i : Int) (rest : List Char) : Option (Value × List Char) :=
  if fits i then some (.integer i, rest) else none

def radixed (radix : Nat) : Scanner Value := fun s => do
  let (ds, rest) ← digits (isDigitOf radix) s
  checked (value radix ds) rest

def integer : Scanner Value
  | '0' :: 'x' :: rest => radixed 16 rest
  | '0' :: 'o' :: rest => radixed 8 rest
  | '0' :: 'b' :: rest => radixed 2 rest
  | s => do
    let (negative, s) := sign s
    let (ds, rest) ← whole s
    let n : Int := value 10 ds
    checked (if negative then -n else n) rest

/-- The digits behind a point; none if there is no point. -/
def fraction : Scanner (List Char)
  | '.' :: rest => digits isDecimal rest
  | s => some ([], s)

/-- The exponent of ten; none is zero. -/
def exponent : Scanner (Option Int)
  | c :: rest =>
    if c = 'e' ∨ c = 'E' then do
      let (negative, rest) := sign rest
      let (ds, rest) ← digits isDecimal rest
      let n : Int := value 10 ds
      return (some (if negative then -n else n), rest)
    else some (none, c :: rest)
  | [] => some (none, [])

/-- The words that stand for no decimal, with an optional sign in front. -/
def special : Scanner Value := fun s =>
  match sign s with
  | (negative, 'i' :: 'n' :: 'f' :: rest) => some (.float (.infinite negative), rest)
  | (_, 'n' :: 'a' :: 'n' :: rest) => some (.float .nan, rest)
  | _ => none

/-- A float in decimal digits, with a fraction or an exponent. -/
def decimal : Scanner Value := fun s => do
  let (negative, s) := sign s
  let (ds, s) ← whole s
  let (fs, s) ← fraction s
  let (e, s) ← exponent s
  if fs.isEmpty ∧ e.isNone then none
  let x := Double.ofDecimal negative (value 10 (ds ++ fs)) (e.getD 0 - fs.length)
  if x = .infinite false then none
  return (.float x, s)

def float : Scanner Value := fun s =>
  (decimal s).or (special s)

end Number
end Toml
end Prebind
