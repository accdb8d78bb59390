import Prebind.Machine.Call
import Prebind.System

/-!
A check of the generated code: functions that mix their arguments, so that a value in the wrong
place changes the result, are called through a trampoline for each position that can be bound.
-/

namespace Prebind
namespace SelfTest

structure Case where
  name : String
  expected : UInt64
  actual : UInt64
  deriving DecidableEq, Repr

def Case.passed (c : Case) : Bool :=
  c.expected = c.actual

inductive Failure where
  | fault (cause : Fault)
  | table (cause : TableError)
  | missing (name : String)

/-- A word turned to the left. -/
def rotateLeft (w : UInt64) (n : UInt64) : UInt64 :=
  w <<< n ||| w >>> (64 - n)

def mix2 (a b : UInt64) : UInt64 :=
  a * 1000003 ^^^ rotateLeft b 13

def mix3 (a b c : UInt64) : UInt64 :=
  mix2 a b ^^^ (rotateLeft c 29 + 0x9E3779B9)

def mix4 (a b c d : UInt64) : UInt64 :=
  mix3 a b c ^^^ rotateLeft d 47

/-- The mixing functions, each at an address of its own. -/
def host : Host
  | 0x500002 => some ⟨2, fun | [a, b] => mix2 a b | _ => 0⟩
  | 0x500003 => some ⟨3, fun | [a, b, c] => mix3 a b c | _ => 0⟩
  | 0x500004 => some ⟨4, fun | [a, b, c, d] => mix4 a b c d | _ => 0⟩
  | _ => none

/-- The value that the trampolines bind. -/
def bound : UInt64 := 0xDEADBEEF0BADF00D

/-- Name, function and bound position of each trampoline. -/
def targets : List (String × UInt64 × UInt64) :=
  [("second", 0x500002, 2), ("third", 0x500003, 3), ("fourth", 0x500004, 4)]

/-- Adds entries to a table, all with the same bound value, up to the first that is refused. -/
def pushAll : List (String × UInt64 × UInt64) → Table →
    EStateM.Result Fault Table (Except TableError Unit)
  | [], t => .ok (.ok ()) t
  | (name, function, index) :: rest, t =>
    match t.push name function bound index with
    | .error f t => .error f t
    | .ok (.error e) t => .ok (.error e) t
    | .ok (.ok _) t => pushAll rest t

/-- Calls the trampoline of a name in a table that is loaded at an address. -/
def case (t : CallableTable) (base : UInt64) (name : String) (expected : UInt64)
    (arguments : List UInt64) : Except Failure Case :=
  match t.call? host { base } name arguments with
  | none => .error (.missing name)
  | some actual => .ok { name, expected, actual }

/-- Calls every trampoline once. -/
def cases (t : CallableTable) (base : UInt64) : Except Failure (List Case) := do
  let (a, b, c) := ((0x1111, 0x222200000000, 0xFFFFFFFFFFFFFFFF) : UInt64 × UInt64 × UInt64)
  return [
    ← case t base "second" (mix2 a bound) [a],
    ← case t base "third" (mix3 a b bound) [a, b],
    ← case t base "fourth" (mix4 a b c bound) [a, b, c]]

def Case.record (c : Case) : Record where
  level := .info
  text := c.name ++ ": expected " ++ Hex.number c.expected.toNat ++ ", got " ++
    Hex.number c.actual.toNat

/-- The cases of a finished table and what is logged of them, behind what has been logged before. -/
def judge (t : CallableTable) (base : UInt64) (before : List Record) :
    Except Failure (List Case) × List Record :=
  match cases t base with
  | .error e => (.error e, before)
  | .ok cs => (.ok cs, before ++ cs.map Case.record)

/-- Makes the table, finishes it and calls its trampolines, with what is logged of all that. -/
def run (system : System) : Except Failure (List Case) × List Record :=
  match Table.create 3 system.grants with
  | .error f => (.error (.fault f), [])
  | .ok (.error e) => (.error (.table e), [])
  | .ok (.ok t) =>
    match pushAll targets t with
    | .error f t => (.error (.fault f), t.log.map Event.record)
    | .ok (.error e) t => (.error (.table e), t.log.map Event.record)
    | .ok (.ok ()) t =>
      let written := t.log.map Event.record
      match t.finish system.permits with
      | .error e => (.error (.table e), written)
      | .ok code => judge code system.region (written ++ t.finishRecords system.region)

end SelfTest
end Prebind
