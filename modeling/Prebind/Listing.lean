import Prebind.Address
import Prebind.Config
import Prebind.Manifest.Basic
import Prebind.System
import Prebind.Text.Json
import Prebind.Trampoline.Table

/-!
Listings: what is printed of each trampoline, as text fields. They come from a single trampoline in
a scratch buffer or from a table made of a manifest, and are rendered for people or as JSON. Where
it is not said what address the code is loaded at, it is that of the buffer or of the table.
-/

namespace Prebind

structure Listing where
  name : String
  position : Nat
  register : String
  target : String
  value : String
  offset : Nat
  address : String
  bytes : String
  deriving DecidableEq, Repr

inductive BuildError where
  /-- There is no table of this size. -/
  | table (cause : TableError)
  | entry (name : String) (cause : TableError)
  /-- The address of an entry is no word. -/
  | address (name : String) (base : UInt64) (offset : Nat)
  | noCode (name : String)
  deriving DecidableEq, Repr

namespace BuildError

def inEntry (name text : String) : String :=
  "trampoline '" ++ name ++ "': " ++ text

def message : BuildError → String
  | .table cause => cause.message
  | .entry name cause => inEntry name cause.message
  | .address name base offset =>
    inEntry name
      ("base address " ++ Address.render base ++ " + " ++ Hex.number offset ++ " overflows")
  | .noCode name => inEntry name "no code generated"

end BuildError

namespace Listing

def make (name : String) (position : Position) (target value : UInt64) (offset : Nat)
    (address : UInt64) (code : List UInt8) : Listing where
  name
  position := position.index
  register := position.register.name
  target := Address.render target
  value := Address.render value
  offset
  address := Address.render address
  bytes := Hex.spaced code

/-- Writes one trampoline into a scratch buffer of just the size it needs. -/
def writeSingle (target value index : UInt64) (config : Config) :
    EStateM.Result Fault Assembler (Except BindError UInt64) :=
  let scratch := Buffer.filled (.ofNat (Trampoline.size + Instruction.maxLength)) config.fill
  Assembler.tryBind target value index { cursor := { buffer := scratch } }

/-- Makes one trampoline by itself. -/
def single (system : System) (target value index : UInt64) (config : Config) :
    Except Fault (Except BindError Listing) :=
  match writeSingle target value index config with
  | .error f _ => .error f
  | .ok (.error e) _ => .ok (.error e)
  | .ok (.ok entry) a =>
    match Position.ofIndex? index.toNat with
    | none => .error (.noPosition index.toNat)
    | some position =>
      let address := config.base.getD (system.scratch + entry)
      let code := a.cursor.buffer.bytes.take a.cursor.position.toNat
      .ok (.ok (make "trampoline" position target value 0 address code))

/-- What is logged of one trampoline by itself. -/
def singleLog (target value index : UInt64) (config : Config) : List Event :=
  (behind (writeSingle target value index config)).log

/-- Adds the entries of a manifest to a table, up to the first that is refused. -/
def pushAll : List Manifest.Entry → Table → EStateM.Result Fault Table (Except BuildError Unit)
  | [], t => .ok (.ok ()) t
  | e :: rest, t =>
    match t.push e.name e.target e.value e.position with
    | .error f t => .error f t
    | .ok (.error cause) t => .ok (.error (.entry e.name cause)) t
    | .ok (.ok _) t => pushAll rest t

def ofEntry (t : Table) (base : UInt64) (e : Table.Entry) : Except BuildError Listing :=
  match Word.ofNat? (base.toNat + e.offset) with
  | none => .error (.address e.name base e.offset)
  | some address =>
    match t.code? e.name with
    | none => .error (.noCode e.name)
    | some code => .ok (make e.name e.position e.function e.argument e.offset address code)

/-- Makes all trampolines of a manifest in one table. -/
def ofManifest (system : System) (m : Manifest) (config : Config) :
    Except Fault (Except BuildError (List Listing)) :=
  match Table.create (.ofNat m.entries.length) system.grants with
  | .error f => .error f
  | .ok (.error e) => .ok (.error (.table e))
  | .ok (.ok t) =>
    match pushAll m.entries t with
    | .error f _ => .error f
    | .ok (.error e) _ => .ok (.error e)
    | .ok (.ok ()) t => .ok (t.entries.mapM (ofEntry t (config.base.getD system.region)))

/-- What is logged of the trampolines of a manifest, whatever becomes of their listings. -/
def ofManifestLog (system : System) (m : Manifest) : List Event :=
  match Table.create (.ofNat m.entries.length) system.grants with
  | .ok (.ok t) => (behind (pushAll m.entries t)).log
  | _ => []

/-- Two lines for people: where the trampoline is and what it does, then its bytes. -/
def lines (l : Listing) : List Char :=
  l.name.toList ++ " @ ".toList ++ l.address.toList ++ " (+".toList ++
    (Hex.number l.offset).toList ++ "): ".toList ++ l.register.toList ++ " <- ".toList ++
    l.value.toList ++ " (".toList ++ Nat.toDigits 10 l.position ++ "), jump ".toList ++
    l.target.toList ++ "\n    ".toList ++ l.bytes.toList ++ ['\n']

/-- The fields of a listing in the order in which JSON shows them. -/
def fields (l : Listing) : List (String × Json.Scalar) :=
  [("name", .text l.name), ("position", .count l.position), ("register", .text l.register),
   ("target", .text l.target), ("value", .text l.value), ("offset", .count l.offset),
   ("address", .text l.address), ("bytes", .text l.bytes)]

def render (ls : List Listing) : Format → String
  | .human => .ofList (ls.flatMap lines)
  | .json => .ofList (Json.renderArray (ls.map fields) ++ ['\n'])

end Listing
end Prebind
