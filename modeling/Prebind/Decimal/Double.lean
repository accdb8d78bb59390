/-!
Double-precision numbers as exact values, and the double that is nearest to a decimal.

A finite double is a sign and `mantissa * 2 ^ exponent` with a mantissa of at most 53 bits and
an exponent not below -1074; the mantissa has all 53 bits unless the exponent is the least one.
-/

namespace Prebind

inductive Double where
  | finite (negative : Bool) (mantissa : Nat) (exponent : Int)
  | infinite (negative : Bool)
  | nan
  deriving DecidableEq, Repr

namespace Double

def leastExponent : Int := -1074

/-- The least mantissa of 53 bits. -/
def leastFull : Nat := 0x10000000000000

/-- Above this exponent a mantissa of 53 bits stands for no double. -/
def greatestExponent : Int := 971

/-- The quotient rounded to the nearest number; of two that are as near, the even one. -/
def divRoundEven (num den : Nat) : Nat :=
  let q := num / den
  let r := num % den
  if 2 * r < den then q
  else if den < 2 * r then q + 1
  else q + q % 2

/-- The fraction `num / den` divided by `2 ^ e`. -/
def scaleDown (num den : Nat) : Int → Nat × Nat
  | .ofNat e => (num, den <<< e)
  | .negSucc e => (num <<< (e + 1), den)

/-- The exponent at which the fraction has a mantissa of 53 bits, or the least one. -/
def exponentOf (num den : Nat) : Int :=
  let guess : Int := (num.log2 : Int) - (den.log2 : Int) - 52
  let (n, d) := scaleDown num den guess
  max leastExponent (if n / d < leastFull then guess - 1 else guess)

/-- The double nearest to a fraction. -/
def ofFraction (negative : Bool) (num den : Nat) : Double :=
  if num = 0 then .finite negative 0 leastExponent
  else
    let e := exponentOf num den
    let (n, d) := scaleDown num den e
    let m := divRoundEven n d
    let (m, e) := if m = 2 * leastFull then (leastFull, e + 1) else (m, e)
    if greatestExponent < e then .infinite negative else .finite negative m e

/-- The double nearest to `digits * 10 ^ exponent`. Far outside the range of doubles it is known
without the power of ten. -/
def ofDecimal (negative : Bool) (digits : Nat) (exponent : Int) : Double :=
  let size : Int := (Nat.toDigits 10 digits).length + exponent
  if digits = 0 ∨ size < -400 then .finite negative 0 leastExponent
  else if 400 < size then .infinite negative
  else
    match exponent with
    | .ofNat e => ofFraction negative (digits * Nat.pow 10 e) 1
    | .negSucc e => ofFraction negative digits (Nat.pow 10 (e + 1))

end Double
end Prebind
