import Prebind.Toml.DateTime
import Prebind.Toml.Number
import Prebind.Toml.Quoted

/-!
Reading a TOML document. What is read is a list of statements, whose tables are then built. A text
that is no document, or whose statements contradict each other, is refused as a whole.
-/

namespace Prebind
namespace Toml

/-- Keys have fewer parts, and values fewer levels, than this. -/
def depthLimit : Nat := 80

def isBareKey (c : Char) : Bool :=
  c.isAlphanum || c = '_' || c = '-'

/-- A part of a key, with its mark: a bare word, or a quoted text on one line. -/
def simpleKey : Scanner Key := fun s =>
  match s with
  | '"' :: _ | '\'' :: _ => do
    let (name, rest) ← Quoted.oneLine s
    return (⟨.ofList name, s.length⟩, rest)
  | _ =>
    let name := s.takeWhile isBareKey
    if name.isEmpty then none else some (⟨.ofList name, s.length⟩, s.dropWhile isBareKey)

/-- The parts of a key, separated by points. -/
def keyParts : Nat → Scanner (List Key)
  | 0, _ => none
  | n + 1, s => do
    let (key, s) ← simpleKey (skipSpace s)
    match skipSpace s with
    | '.' :: rest => do
      let (keys, rest) ← keyParts n rest
      return (key :: keys, rest)
    | rest => return ([key], rest)

def path : Scanner Path := fun s => do
  let (keys, rest) ← keyParts (s.length + 1) s
  if depthLimit ≤ keys.length then none
  let key ← keys.getLast?
  return (⟨keys.dropLast, key⟩, rest)

/-- A value that is neither an array nor a table in braces. -/
def scalar : Scanner Value := fun s =>
  match s with
  | 't' :: 'r' :: 'u' :: 'e' :: rest => some (.boolean true, rest)
  | 'f' :: 'a' :: 'l' :: 's' :: 'e' :: rest => some (.boolean false, rest)
  | '"' :: _ | '\'' :: _ => do
    let (text, rest) ← Quoted.anyKind s
    return (.string (.ofList text), rest)
  | _ => ((DateTime.scan s).or (Number.float s)).or (Number.integer s)

/-- The elements of an array behind its bracket. The last may be followed by a comma, and lines end
as they like. -/
def elements (value : Scanner Value) : Nat → Scanner (List (Mark × Value))
  | 0, _ => none
  | n + 1, s => do
    let s ← skipBlank? s
    match s with
    | ']' :: rest => return ([], rest)
    | _ => do
      let (v, rest) ← value s
      let rest ← skipBlank? rest
      match rest with
      | ',' :: rest => do
        let (vs, rest) ← elements value n rest
        return ((s.length, v) :: vs, rest)
      | ']' :: rest => return ([(s.length, v)], rest)
      | _ => none

/-- A key with its value. -/
def pair (value : Scanner Value) : Scanner (Path × Mark × Value) := fun s => do
  let (p, s) ← path s
  match s with
  | '=' :: rest => do
    let s := skipSpace rest
    let (v, rest) ← value s
    return ((p, s.length, v), rest)
  | _ => none

/-- The pairs of a table in braces, from its first pair on. All is on one line, and no comma ends
it. -/
def pairs (value : Scanner Value) : Nat → Scanner (List (Path × Mark × Value))
  | 0, _ => none
  | n + 1, s => do
    let (p, s) ← pair value s
    match skipSpace s with
    | ',' :: rest => do
      let (ps, rest) ← pairs value n rest
      return (p :: ps, rest)
    | '\x7d' :: rest => return ([p], rest)
    | _ => none

/-- A table behind its opening brace. -/
def braced (value : Scanner Value) : Scanner Value := fun s =>
  match skipSpace s with
  | '\x7d' :: rest => some (.table .inline [], rest)
  | _ => do
    let (ps, rest) ← pairs value (s.length + 1) s
    let fields ← Fields.ofPairs ps
    return (.table .inline fields, rest)

/-- A value with no more than a number of levels. -/
def value : Nat → Scanner Value
  | 0, s =>
    match s with
    | '[' :: _ | '\x7b' :: _ => none
    | _ => scalar s
  | depth + 1, s =>
    match s with
    | '[' :: rest =>
      (elements (value depth) (rest.length + 1) rest).map fun (vs, rest) => (.array vs, rest)
    | '\x7b' :: rest => braced (value depth) rest
    | _ => scalar s

/-- A header or a pair, up to the end of its line. -/
def statement : Scanner Statement := fun s =>
  match s with
  | '[' :: '[' :: rest => do
    let (p, rest) ← path rest
    match rest with
    | ']' :: ']' :: rest => (endLine? rest).map (.element p s.length, ·)
    | _ => none
  | '[' :: rest => do
    let (p, rest) ← path rest
    match rest with
    | ']' :: rest => (endLine? rest).map (.table p s.length, ·)
    | _ => none
  | _ => do
    let ((p, mark, v), rest) ← pair (value (depthLimit - 1)) s
    (endLine? rest).map (.field p mark v, ·)

/-- The statements of a document. Blank lines and lines with only a comment say nothing. -/
def statements : Nat → List Char → Option (List Statement)
  | 0, _ => none
  | n + 1, s =>
    match skipSpace s with
    | [] => some []
    | '#' :: rest => (endLine? ('#' :: rest)).bind (statements n)
    | rest =>
      match newline? rest with
      | some rest => statements n rest
      | none => do
        let (first, rest) ← statement rest
        let more ← statements n rest
        return first :: more

/-- The text without the mark of its byte order. -/
def dropByteOrderMark : List Char → List Char
  | '\uFEFF' :: rest => rest
  | s => s

def parse? (text : String) : Option Fields := do
  let s := dropByteOrderMark text.toList
  let ss ← statements (s.length + 1) s
  Fields.ofStatements ss

/-- The number of the line that a mark of a document is on. -/
def lineOf (text : String) (mark : Mark) : Nat :=
  let s := text.toList
  1 + (s.take (s.length - mark)).count '\n'

end Toml
end Prebind
