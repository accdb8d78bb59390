import Prebind.Cli.Arguments
import Prebind.Listing
import Prebind.Manifest.Store
import Prebind.SelfTest

/-!
Running the command line on a directory of files. Either all of the output is there and nothing went
wrong, or there is only the error. What is shown of the log stands on the error output in front of
that.
-/

namespace Prebind
namespace Cli

inductive Failure where
  | load (cause : Manifest.LoadError)
  | bind (cause : BindError)
  | build (cause : BuildError)
  /-- There is a manifest already. -/
  | exists (directory : String)
  | save (cause : Manifest.SaveError)
  | selfTest (cause : SelfTest.Failure)
  | fault (cause : Fault)

namespace Failure

/-- The fault behind a failure. -/
def fault? : Failure → Option Fault
  | .fault f | .selfTest (.fault f) => some f
  | _ => none

def message (system : System) : Failure → String
  | .load cause => cause.message system.explain
  | .bind cause => cause.message
  | .build cause => cause.message
  | .exists directory => Manifest.fileName ++ " already exists in " ++ directory
  | .save cause => cause.message
  | .selfTest (.table e) => e.message
  | .selfTest (.missing name) => "missing trampoline " ++ name
  | .fault f | .selfTest (.fault f) => system.panic f

/-- The exit code for a failure. -/
def code (e : Failure) : Nat :=
  if e.fault?.isSome then 101 else 1

end Failure

/-- What is said on the error output in front of a failure. -/
def errorLead : String := "error: "

/-- What a failure puts on the error output. A fault has words of its own. -/
def Failure.report (system : System) (e : Failure) : String :=
  if e.fault?.isSome then e.message system else errorLead ++ e.message system ++ "\n"

structure Outcome where
  code : Nat
  output : String := ""
  failure : Option Failure := none
  /-- The records of the log that are shown. -/
  log : List Record := []

def Outcome.ofResult (log : List Record) : Except Failure String → Outcome
  | .ok output => { code := 0, output, log }
  | .error failure => { code := failure.code, failure := some failure, log }

/-- What is written to the error output. -/
def Outcome.errorOutput (system : System) (o : Outcome) : String :=
  system.logger.print o.log ++
    match o.failure with
    | none => ""
    | some failure => failure.report system

/-- The exit code for arguments that make no request. -/
def usageCode : Nat := 2

/-- A result that may be refused for a reason of its own, as one that may fail. -/
def settle {ε α : Type} (refusal : ε → Failure) :
    Except Fault (Except ε α) → Except Failure α
  | .error f => .error (.fault f)
  | .ok (.error e) => .error (refusal e)
  | .ok (.ok x) => .ok x

/-- What is shown of events under the settings. -/
def shown (system : System) (config : Config) (events : List Event) : List Record :=
  system.logger.shown config.logLevel (events.map Event.record)

def emit (system : System) (target value position : UInt64) (config : Config) : Outcome :=
  let log := Listing.singleLog target value position config
  .ofResult (shown system config log) do
    let listing ← settle .bind (Listing.single system target value position config)
    return Listing.render [listing] config.format

def buildLog (system : System) : Except Manifest.LoadError Manifest → List Event
  | .error _ => []
  | .ok m => Listing.ofManifestLog system m

def build (system : System) (manifest : Except Manifest.LoadError Manifest) (config : Config) :
    Outcome :=
  .ofResult (shown system config (buildLog system manifest)) do
    let m ← manifest.mapError .load
    let listings ← settle .build (Listing.ofManifest system m config)
    return Listing.render listings config.format

/-- The path of the manifest that is built. -/
def manifestPath (directory : String) (file : Option String) : String :=
  file.getD (Manifest.pathIn directory)

/-- Writes a manifest to start from, over an old one only if `force` is set. -/
def init (f : Files) (force : Bool) : Except Failure (Files × String) :=
  let path := Manifest.pathIn f.root
  if f.contains path && !force then .error (.exists f.root)
  else do
    let f ← settle .save (Manifest.starter.save f f.root)
    return (f, "Created " ++ path ++ "\n")

def caseLine (c : SelfTest.Case) : String :=
  if c.passed then "✓ " ++ c.name ++ " passed\n"
  else
    "✗ " ++ c.name ++ " failed: expected " ++ Address.render c.expected ++ ", got " ++
      Address.render c.actual ++ "\n"

def selfTest (system : System) (config : Config) : Outcome :=
  let (result, records) := SelfTest.run system
  let log := system.logger.shown config.logLevel records
  match result with
  | .error e => .ofResult log (.error (.selfTest e))
  | .ok cases =>
    { code := if cases.all (·.passed) then 0 else 1
      output := String.join (cases.map caseLine)
      log }

/-- Carries out a request and gives the files behind it. -/
def perform (system : System) (f : Files) (trace : Bool) : Request → Outcome × Files
  | .emit target value position base format =>
    (emit system target value position { trace, base, format }, f)
  | .build file base format =>
    let manifest := Manifest.loadFile f (manifestPath f.root file)
    (build system manifest { trace, base, format }, f)
  | .init force =>
    match init f force with
    | .error e => (.ofResult [] (.error e), f)
    | .ok (f, output) => (.ofResult [] (.ok output), f)
  | .selfTest => (selfTest system { trace }, f)
  | .help topic => (.ofResult [] (.ok (Help.text topic)), f)

/-- Runs a whole command line. -/
def run (system : System) (f : Files) (arguments : List String) : Outcome × Files :=
  match parse? arguments with
  | none => ({ code := usageCode }, f)
  | some i => perform system f i.trace i.request

end Cli
end Prebind
