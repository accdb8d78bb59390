import Prebind.Toml.Value
import Prebind.Toml.Scanner

/-!
Dates and times: a date, a time, or both, and then perhaps with an offset. Days are checked against
the calendar; a minute may have 61 seconds.
-/

namespace Prebind
namespace Toml
namespace DateTime

/-- A number of just two digits, up to a limit. -/
def two (least greatest : Nat) : Scanner Nat
  | a :: b :: rest =>
    if a.isDigit ∧ b.isDigit then
      let n := 10 * (a.toNat - '0'.toNat) + (b.toNat - '0'.toNat)
      if least ≤ n ∧ n ≤ greatest then some (n, rest) else none
    else none
  | _ => none

/-- A number of just four digits. -/
def four : Scanner Nat := fun s => do
  let (high, s) ← two 0 99 s
  let (low, s) ← two 0 99 s
  return (100 * high + low, s)

def expect (c : Char) : Scanner Unit
  | d :: rest => if d = c then some ((), rest) else none
  | [] => none

def isLeap (year : Nat) : Bool :=
  year % 4 = 0 && (year % 100 ≠ 0 || year % 400 = 0)

def daysIn (year month : Nat) : Nat :=
  if month = 2 then if isLeap year then 29 else 28
  else if month ∈ [4, 6, 9, 11] then 30
  else 31

/-- The text behind a date. -/
def date? (s : List Char) : Option (List Char) := do
  let (year, s) ← four s
  let ((), s) ← expect '-' s
  let (month, s) ← two 1 12 s
  let ((), s) ← expect '-' s
  let (_, s) ← two 1 (daysIn year month) s
  return s

/-- The text behind a fraction of a second, if there is one. -/
def fraction? : List Char → Option (List Char)
  | '.' :: d :: rest => if d.isDigit then some (rest.dropWhile Char.isDigit) else none
  | '.' :: [] => none
  | s => some s

def time? (s : List Char) : Option (List Char) := do
  let (_, s) ← two 0 23 s
  let ((), s) ← expect ':' s
  let (_, s) ← two 0 59 s
  let ((), s) ← expect ':' s
  let (_, s) ← two 0 60 s
  fraction? s

/-- The text behind an offset, if there is one. -/
def offset? : List Char → Option (List Char)
  | 'Z' :: rest => some rest
  | 'z' :: rest => some rest
  | c :: rest =>
    if c = '+' ∨ c = '-' then do
      let (_, s) ← two 0 23 rest
      let ((), s) ← expect ':' s
      let (_, s) ← two 0 59 s
      return s
    else some (c :: rest)
  | [] => some []

/-- The text behind the time of day that may follow a date. A space that no time follows does not
belong to the date. -/
def timeAfterDate? : List Char → Option (List Char)
  | c :: rest =>
    if c = 'T' ∨ c = 't' ∨ c = ' ' then
      match time? rest with
      | some s => offset? s
      | none => some (c :: rest)
    else some (c :: rest)
  | [] => some []

def scan : Scanner Value := fun s => do
  let rest ← ((date? s).bind timeAfterDate?).or (time? s)
  return (.dateTime (.ofList (s.take (s.length - rest.length))), rest)

end DateTime
end Toml
end Prebind
