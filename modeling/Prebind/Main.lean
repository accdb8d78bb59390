import Prebind.Cli.Run

/-!
The command line program: it fetches the file that a request is about, carries the request out, and
puts the outcome into the world.
-/

namespace Prebind
namespace Main

def fileError : IO.Error → FileError
  | .noFileOrDirectory .. => .notFound
  | .inappropriateType _ 21 _ => .isDirectory
  | .inappropriateType .. => .notDirectory
  | e => .other (toString e)

/-- What a path names. -/
def fetch (path : String) : IO (Except FileError Node) := do
  try
    let bytes ← IO.FS.readBinFile path
    match String.fromUTF8? bytes with
    | some content => return .ok (.text content)
    | none => return .ok .binary
  catch e =>
    match fileError e with
    | .isDirectory => return .ok .directory
    | error => return .error error

def contentOf : Except FileError Node → Except FileError String
  | .ok (.text content) => .ok content
  | .ok .binary => .error .notText
  | .ok .directory => .error .isDirectory
  | .error e => .error e

/-- The current directory, as far as its manifest goes. -/
def snapshot (directory : String) : IO Files := do
  match ← fetch (Manifest.pathIn directory) with
  | .ok node => return { root := directory, nodes := [([Manifest.fileName], node)] }
  | .error _ => return { root := directory }

/-- What this program says of a document that does not read as a manifest, in words of its own. -/
def explain (document : String) : String :=
  match Manifest.parse document with
  | .error (.mismatch line cause) => s!"line {line}: " ++ cause.message
  | _ => "the document is not TOML"

def panic (f : Fault) : String :=
  "panicked: " ++ f.message?.getD "a number or a range is out of bounds" ++ "\n"

/-- Nothing is loaded anywhere by this program, so its code has made up places. -/
def system : System :=
  { System.bare with explain, panic }

/-- Carries out a request in a directory. -/
def carryOut (directory : String) (i : Cli.Invocation) : IO Cli.Outcome := do
  match i.request with
  | .build file base format =>
    let path := Cli.manifestPath directory file
    let content := contentOf (← fetch path)
    let config : Config := { trace := i.trace, base, format }
    return Cli.build system (Manifest.ofContent path content) config
  | .init _ =>
    let before ← snapshot directory
    let (outcome, after) := Cli.perform system before i.trace i.request
    let path := Manifest.pathIn directory
    match outcome.failure, after.read path with
    | none, .ok content =>
      try
        IO.FS.writeFile path content
        return outcome
      catch e =>
        return .ofResult outcome.log (.error (.save (.unwritable (fileError e))))
    | _, _ => return outcome
  | request => return (Cli.perform system { root := directory } i.trace request).1

def run (arguments : List String) : IO UInt32 := do
  match Cli.parse? arguments with
  | none =>
    IO.eprint (Cli.Help.text .program)
    return .ofNat Cli.usageCode
  | some i =>
    let directory ← IO.currentDir
    let outcome ← carryOut directory.toString i
    IO.print outcome.output
    IO.eprint (outcome.errorOutput system)
    return .ofNat outcome.code

end Main
end Prebind

def main (arguments : List String) : IO UInt32 :=
  Prebind.Main.run arguments
