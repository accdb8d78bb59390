/-!
Hexadecimal text in lower case: two digits for each byte, and numbers behind the mark `0x`.
-/

namespace Prebind
namespace Hex

/-- The two digits of a byte. -/
def pair (b : UInt8) : List Char :=
  [Nat.digitChar (b.toNat / 16), Nat.digitChar (b.toNat % 16)]

/-- The digits of bytes, without anything between them. -/
def joined (bs : List UInt8) : String :=
  .ofList (bs.flatMap pair)

/-- The digit pairs of bytes, separated by single spaces. -/
def spaced (bs : List UInt8) : String :=
  .ofList (List.intercalate [' '] (bs.map pair))

/-- The value of a digit of either case. -/
def digit? (c : Char) : Option Nat :=
  if '0' ≤ c ∧ c ≤ '9' then some (c.toNat - '0'.toNat)
  else if 'a' ≤ c ∧ c ≤ 'f' then some (c.toNat - 'a'.toNat + 10)
  else if 'A' ≤ c ∧ c ≤ 'F' then some (c.toNat - 'A'.toNat + 10)
  else none

/-- Reads digit pairs that stand side by side. -/
def readJoined? : List Char → Option (List UInt8)
  | [] => some []
  | h :: l :: rest => do
    let h ← digit? h
    let l ← digit? l
    let bs ← readJoined? rest
    return .ofNat (16 * h + l) :: bs
  | [_] => none

/-- A number without leading zeros, behind its mark. -/
def number (n : Nat) : String :=
  .ofList ('0' :: 'x' :: Nat.toDigits 16 n)

end Hex
end Prebind
