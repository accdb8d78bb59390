import Prebind.Files
import Prebind.Manifest.Reader
import Prebind.Manifest.Writer

/-!
Manifests in files. A directory keeps its manifest under a fixed name.
-/

namespace Prebind
namespace Manifest

inductive LoadError where
  | unreadable (path : String) (cause : FileError)
  | unparsable (path document : String) (cause : ParseError)

namespace LoadError

/-- What is said in front of the cause. -/
def lead : LoadError → String
  | .unreadable path _ => "failed to read " ++ path ++ ": "
  | .unparsable path _ _ => "failed to parse " ++ path ++ ": "

def message (explain : String → String) : LoadError → String
  | e@(.unreadable _ cause) => e.lead ++ cause.message
  | e@(.unparsable _ document cause) => e.lead ++ cause.message explain document

end LoadError

inductive SaveError where
  | unserializable (cause : WriteError)
  | unwritable (cause : FileError)
  deriving DecidableEq, Repr

def SaveError.message : SaveError → String
  | .unserializable cause => "failed to serialize " ++ fileName ++ ": " ++ cause.message
  | .unwritable cause => "failed to write " ++ fileName ++ ": " ++ cause.message

/-- Reads the content of a file as a manifest. -/
def ofContent (path : String) (content : Except FileError String) : Except LoadError Manifest :=
  match content with
  | .error e => .error (.unreadable path e)
  | .ok text => (parse text).mapError fun e => .unparsable path text e

/-- The path of a directory's manifest. -/
def pathIn (directory : String) : String :=
  Files.join directory fileName

def loadFile (f : Files) (path : String) : Except LoadError Manifest :=
  ofContent path (f.read path)

def load (f : Files) (directory : String) : Except LoadError Manifest :=
  loadFile f (pathIn directory)

def save (m : Manifest) (f : Files) (directory : String) :
    Except Fault (Except SaveError Files) :=
  match m.write with
  | .error fault => .error fault
  | .ok (.error e) => .ok (.error (.unserializable e))
  | .ok (.ok text) => .ok ((f.write (pathIn directory) text).mapError .unwritable)

end Manifest
end Prebind
