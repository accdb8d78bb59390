import Prebind.Decimal.Double

/-!
The shortest decimal that reads back as a given double.

The reals that round to the double form an interval. On the grids of one, two, three and more
significant digits in turn, the two neighbours of the double are tried; the first grid with a
neighbour in the interval gives the decimal, and of two the nearer one.
-/

namespace Prebind
namespace Shortest

/-- `num / den` times `10 ^ e`. -/
def scaleUp (num den : Nat) : Int → Nat × Nat
  | .ofNat e => (num * Nat.pow 10 e, den)
  | .negSucc e => (num, den * Nat.pow 10 (e + 1))

/-- The number of digits in front of the point; zero or less if the fraction has zeros behind it. -/
def magnitude (num den : Nat) : Int :=
  if den ≤ num then (Nat.toDigits 10 (num / den)).length
  else
    match (List.range 400).find? fun j => den ≤ num * Nat.pow 10 j with
    | some j => 1 - (j : Int)
    | none => 0

/-- A positive double and the ends of its interval, as multiples of one unit fraction. -/
structure Interval where
  low : Nat
  value : Nat
  high : Nat
  unit : Nat
  /-- The ends belong to the interval. -/
  closed : Bool

/-- The interval of `mantissa * 2 ^ exponent`. Below a power of two the doubles are twice as dense.
-/
def interval (mantissa : Nat) (exponent : Int) : Interval :=
  let gap := if mantissa = Double.leastFull ∧ Double.leastExponent < exponent then 1 else 2
  let (power, unit) := match exponent - 2 with
    | .ofNat e => (1 <<< e, 1)
    | .negSucc e => (1, 1 <<< (e + 1))
  { low := (4 * mantissa - gap) * power
    value := 4 * mantissa * power
    high := (4 * mantissa + 2) * power
    unit
    closed := mantissa % 2 = 0 }

/-- Whether `n / d` lies in the interval. -/
def Interval.contains (i : Interval) (n d : Nat) : Bool :=
  let low := i.low * d
  let high := i.high * d
  let x := n * i.unit
  if i.closed then low ≤ x && x ≤ high else low < x && x < high

/-- The better neighbour on the grid of multiples of `10 ^ step`, if one lies in the interval. Of
two that are as near, the greater one. -/
def onGrid? (i : Interval) (step : Int) : Option Nat :=
  let (n, d) := scaleUp i.value i.unit (-step)
  let below := n / d
  let inside (k : Nat) : Bool :=
    let (a, b) := scaleUp k 1 step
    i.contains a b
  match inside below, inside (below + 1) with
  | true, true => if 2 * (n % d) < d then some below else some (below + 1)
  | true, false => some below
  | false, true => some (below + 1)
  | false, false => none

/-- Digits and exponent of the shortest decimal for `mantissa * 2 ^ exponent`. Seventeen digits are
always enough. -/
def decimal (mantissa : Nat) (exponent : Int) : Nat × Int :=
  let i := interval mantissa exponent
  let size := magnitude i.value i.unit
  let found := (List.range 17).findSome? fun (n : Nat) =>
    let step := size - (n + 1 : Nat)
    (onGrid? i step).map (·, step)
  found.getD (0, 0)

/-- `digits * 10 ^ exponent` written out, with at least one digit on both sides of the point. -/
def positional (digits : Nat) (exponent : Int) : List Char :=
  let ds := Nat.toDigits 10 digits
  match exponent with
  | .ofNat e => ds ++ List.replicate e '0' ++ ['.', '0']
  | .negSucc e =>
    let ds := List.replicate (e + 2 - ds.length) '0' ++ ds
    let (whole, fraction) := ds.splitAt (ds.length - (e + 1))
    let fraction := (fraction.reverse.dropWhile (· = '0')).reverse
    whole ++ '.' :: (if fraction.isEmpty then ['0'] else fraction)

end Shortest

/-- The shortest text that reads back, never with an exponent and always with a point. -/
def Double.text : Double → String
  | .nan => "NaN"
  | .infinite false => "inf"
  | .infinite true => "-inf"
  | .finite negative mantissa exponent =>
    let (digits, e) := if mantissa = 0 then (0, 0) else Shortest.decimal mantissa exponent
    let body := Shortest.positional digits e
    .ofList (if negative then '-' :: body else body)

end Prebind
