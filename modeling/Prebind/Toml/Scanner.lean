/-!
Scanners take something off the front of a text and give it with the rest, or refuse. Here are those
for the space between the parts of a document.
-/

namespace Prebind
namespace Toml

abbrev Scanner (α : Type) := List Char → Option (α × List Char)

/-- Spaces and tabs, which do not count between parts of a line. -/
def isSpace (c : Char) : Bool :=
  c = ' ' || c = '\t'

def skipSpace (s : List Char) : List Char :=
  s.dropWhile isSpace

/-- Characters that may stand in any text: all but the control characters other than the tab. -/
def isPlain (c : Char) : Bool :=
  c = '\t' || (0x20 ≤ c.toNat && c.toNat ≠ 0x7F)

/-- The text behind a line end, if there is one. -/
def newline? : List Char → Option (List Char)
  | '\n' :: rest => some rest
  | '\r' :: '\n' :: rest => some rest
  | _ => none

/-- The text behind a comment, which reaches to the next character that is not plain. -/
def skipComment : List Char → List Char
  | '#' :: rest => rest.dropWhile isPlain
  | s => s

/-- The text behind the end of a line, which may hold a comment and may be the last. -/
def endLine? (s : List Char) : Option (List Char) :=
  match skipComment (skipSpace s) with
  | [] => some []
  | rest => newline? rest

/-- The text behind spaces, line ends and comments. A comment has to end with its line. -/
def skipLines? : Nat → List Char → Option (List Char)
  | 0, s => some s
  | n + 1, s =>
    match skipSpace s with
    | '#' :: rest => (newline? (rest.dropWhile isPlain)).bind (skipLines? n)
    | rest =>
      match newline? rest with
      | some rest => skipLines? n rest
      | none => some rest

def skipBlank? (s : List Char) : Option (List Char) :=
  skipLines? (s.length + 1) s

end Toml
end Prebind
