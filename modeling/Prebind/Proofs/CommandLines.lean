import Prebind.Cli.Run
import Prebind.Proofs.AnnouncedTrampolines
import Prebind.Proofs.SavedManifests

/-!
What a command line leaves behind. Listings, or a manifest to start from, are made as a whole or not
at all: where a request is refused, nothing is printed but the error and no file is changed. The
only file that ever changes is the manifest of the directory. The error output starts with what is
shown of the log, which is nothing unless it is asked for.
-/

namespace Prebind

namespace Manifest

variable {f : Files}

/-- The files behind the making of a manifest to start from. -/
def started (f : Files) : Files :=
  f.put [fileName] (.text starter.text)

end Manifest

namespace Logger

end Logger

namespace Cli

/-- The manifest that is to be built: that of the directory, if no file is named. -/
def requested (f : Files) : Option String → Except Manifest.LoadError Manifest
  | none => Manifest.load f f.root
  | some path => Manifest.loadFile f path

/-- A manifest to start from may be made: there is none, or it may be overwritten and is a file. -/
def Startable (f : Files) (force : Bool) : Prop :=
  f.node? [Manifest.fileName] = none ∨
    force = true ∧ f.node? [Manifest.fileName] ≠ some .directory

/-- A request is refused with this text. -/
inductive Refuses (system : System) (f : Files) (trace : Bool) : Request → String → Prop
  | emit {target value position : UInt64} {base : Option UInt64} {format : Format} {e : BindError}
      (failed : Listing.single system target value position { trace, base, format } =
        .ok (.error e)) :
      Refuses system f trace (.emit target value position base format) e.message
  | load {file : Option String} {base : Option UInt64} {format : Format} {e : Manifest.LoadError}
      (failed : requested f file = .error e) :
      Refuses system f trace (.build file base format) (e.message system.explain)
  | build {file : Option String} {base : Option UInt64} {format : Format} {m : Manifest}
      {e : BuildError} (loaded : requested f file = .ok m)
      (failed : Listing.ofManifest system m { trace, base, format } = .ok (.error e)) :
      Refuses system f trace (.build file base format) e.message
  | exists (there : f.node? [Manifest.fileName] ≠ none) :
      Refuses system f trace (.init false) ("stubs.toml already exists in " ++ f.root)
  | directory (there : f.node? [Manifest.fileName] = some .directory) :
      Refuses system f trace (.init true)
        "failed to write stubs.toml: Is a directory (os error 21)"

/-- What is logged while a request is carried out or refused: the trampolines that are written,
which may be all of them before an address turns out to be no word. -/
inductive Logs (system : System) (f : Files) : Request → List Event → Prop
  | emit {target value position : UInt64} {base : Option UInt64} {format : Format} (name : String) :
      Logs system f (.emit target value position base format)
        (Manifest.Entry.events ⟨name, target, value, position⟩ 0)
  | load {file : Option String} {base : Option UInt64} {format : Format} {e : Manifest.LoadError}
      (failed : requested f file = .error e) : Logs system f (.build file base format) []
  | table {file : Option String} {base : Option UInt64} {format : Format} {m : Manifest}
      (loaded : requested f file = .ok m)
      (failed : ∀ t, Table.create (.ofNat m.entries.length) system.grants ≠ .ok (.ok t)) :
      Logs system f (.build file base format) []
  | build {file : Option String} {base : Option UInt64} {format : Format} {m : Manifest} {t : Table}
      (loaded : requested f file = .ok m) (few : m.entries.length < UInt64.size)
      (created : Table.create (.ofNat m.entries.length) system.grants = .ok (.ok t)) :
      Logs system f (.build file base format) m.events
  | init {force : Bool} : Logs system f (.init force) []

section

variable {system : System} {f g : Files} {trace force : Bool} {request : Request} {text : String}

/-- What is shown of events, with the trace or without it. -/
def traced (system : System) (trace : Bool) (events : List Event) : List Record :=
  system.logger.shown (if trace then .trace else .warn) (events.map Event.record)

theorem Startable.place (h : Startable f force) :
    f.node? [Manifest.fileName] ≠ some .directory := by
  obtain none | ⟨-, place⟩ := h
  · rw [none]
    nofun
  · exact place

section

variable {o : Outcome} (ran : perform system f trace request = (o, g))
include ran

end

section

variable {o : Outcome} (ran : perform system f trace (.init force) = (o, g))
include ran

end

end

end Cli
end Prebind
