/-!
Directories of files. A path is followed component by component from the root directory, which is
also the current one. Of what lies outside of it only the directories on the way to it are known,
and these are taken for one.
-/

namespace Prebind

inductive FileError where
  | notFound
  | notDirectory
  | isDirectory
  | nameTooLong
  /-- A path with a NUL character names nothing. -/
  | nulInPath
  /-- The content is no text. -/
  | notText
  /-- Any other error, in the words of the system. -/
  | other (text : String)
  deriving DecidableEq, Repr

def FileError.message : FileError → String
  | .notFound => "No such file or directory (os error 2)"
  | .notDirectory => "Not a directory (os error 20)"
  | .isDirectory => "Is a directory (os error 21)"
  | .nameTooLong => "File name too long (os error 36)"
  | .nulInPath => "file name contained an unexpected NUL byte"
  | .notText => "stream did not contain valid UTF-8"
  | .other text => text

inductive Node where
  | text (content : String)
  /-- A file whose content is no text. -/
  | binary
  | directory
  deriving DecidableEq, Repr

structure Files where
  /-- The name of the root directory, an absolute path. -/
  root : String
  /-- What there is, by the names on the way to it from the root. -/
  nodes : List (List String × Node) := []
  deriving DecidableEq, Repr

namespace Files

def isAbsolute (path : String) : Bool :=
  path.toList.head? = some '/'

/-- The name of a directory as paths inside of it start. The empty name is that of the current
directory. -/
def slashed (directory : String) : String :=
  if directory.isEmpty ∨ directory.toList.getLast? = some '/' then directory else directory ++ "/"

/-- A path inside a directory, unless the path is absolute. -/
def join (directory path : String) : String :=
  if isAbsolute path then path else slashed directory ++ path

/-- The components of a path; those between two slashes in a row are empty. -/
def components : List Char → List (List Char)
  | [] => [[]]
  | c :: rest =>
    if c = '/' then [] :: components rest
    else
      match components rest with
      | [] => [[c]]
      | first :: more => (c :: first) :: more

/-- The way to the directories that the root lies in. -/
def outside : List String :=
  [".."]

def node? (f : Files) (names : List String) : Option Node :=
  if names = [] ∨ names = outside then some .directory else f.nodes.lookup names

/-- The way to the directory in which there is the one at the end of a way. -/
def above (names : List String) : List String :=
  if names = [] ∨ names = outside then outside else names.dropLast

/-- From this number of bytes on a path is too long. -/
def pathLimit : Nat := 4096

/-- The number of bytes that a name has at most. -/
def longestName : Nat := 255

/-- Follows components from a place that is given by the names on the way to it. The last component
need not exist. -/
def follow (f : Files) (here : List String) : List String → Except FileError (List String)
  | [] => .ok here
  | c :: rest =>
    match f.node? here with
    | some .directory =>
      if c = "" ∨ c = "." then follow f here rest
      else if c = ".." then follow f (above here) rest
      else if longestName < c.utf8ByteSize then .error .nameTooLong
      else if rest = [] then .ok (here ++ [c])
      else if (f.node? (here ++ [c])).isNone then .error .notFound
      else follow f (here ++ [c]) rest
    | some _ => .error .notDirectory
    | none => .error .notFound

/-- Follows the text of a path from a place. -/
def walk (f : Files) (here : List String) (s : List Char) : Except FileError (List String) :=
  if s.contains '\x00' then .error .nulInPath
  else if pathLimit ≤ (String.ofList s).utf8ByteSize then .error .nameTooLong
  else f.follow here ((components s).map .ofList)

/-- The names on the way to what a path names. The name of the root in front of a path does not
count for its length. -/
def resolve (f : Files) (path : String) : Except FileError (List String) :=
  let s := path.toList
  match (slashed f.root).toList.isPrefixOf? s with
  | some inside => f.walk [] inside
  | none =>
    if s.isEmpty then .error .notFound
    else if path = f.root then .ok []
    else f.walk (if isAbsolute path then outside else []) s

def read (f : Files) (path : String) : Except FileError String := do
  let names ← f.resolve path
  match f.node? names with
  | some (.text content) => return content
  | some .binary => throw .notText
  | some .directory => throw .isDirectory
  | none => throw .notFound

def contains (f : Files) (path : String) : Bool :=
  match f.resolve path with
  | .ok names => (f.node? names).isSome
  | .error _ => false

/-- Puts a node in the place of the one that was there. -/
def put (f : Files) (names : List String) (node : Node) : Files :=
  if (f.nodes.lookup names).isSome then
    { f with nodes := f.nodes.map fun (n, old) => (n, if n = names then node else old) }
  else { f with nodes := f.nodes ++ [(names, node)] }

/-- Makes a file or replaces its content. -/
def write (f : Files) (path content : String) : Except FileError Files := do
  let names ← f.resolve path
  if f.node? names = some .directory then throw .isDirectory
  return f.put names (.text content)

end Files
end Prebind
