/-!
Writing a text as a quoted TOML string, in the first form that shows it best: on one line without
escapes if that is possible, else over several lines, else with escapes.
-/

namespace Prebind
namespace Toml
namespace Written

inductive Form where
  /-- In double quotes, with escapes. -/
  | basic
  /-- In single quotes, just as it is. -/
  | literal
  /-- In three double quotes, with escapes, except for line feeds. -/
  | basicLines
  /-- In three single quotes, just as it is. -/
  | literalLines
  deriving DecidableEq, Repr

/-- Control characters that can only be written as an escape. -/
def isControl (c : Char) : Bool :=
  (c.toNat < 0x20 && c ≠ '\t' && c ≠ '\n') || c.toNat = 0x7F

/-- The length of the longest run of a character, where one of `run` has just been going on. -/
def longestRun (c : Char) (run : Nat) : List Char → Nat
  | [] => run
  | d :: rest => if d = c then longestRun c (run + 1) rest else max run (longestRun c 0 rest)

/-- Runs of quotes are counted in a byte. A text with a run that is longer than a byte can count has
no written form. -/
def isQuotable (s : List Char) : Bool :=
  longestRun '"' 0 s < UInt8.size && longestRun '\'' 0 s < UInt8.size

def form (s : List Char) : Form :=
  let plain := !s.any isControl
  let oneLine := !s.contains '\n'
  let slashes := s.contains '\\'
  if plain && !slashes && !s.contains '"' && oneLine then .basic
  else if plain && !s.contains '\'' && oneLine then .literal
  else if plain && !slashes && longestRun '"' 0 s ≤ 2 then .basicLines
  else if plain && longestRun '\'' 0 s ≤ 2 then .literalLines
  else if oneLine then .basic
  else .basicLines

/-- A control character or backslash in a form with escapes. -/
def escape (c : Char) : List Char :=
  if c = '\x08' then ['\\', 'b']
  else if c = '\t' then ['\\', 't']
  else if c = '\x0c' then ['\\', 'f']
  else if c = '\r' then ['\\', 'r']
  else if c = '\\' then ['\\', '\\']
  else if c.toNat < 0x20 ∨ c.toNat = 0x7F then
    ['\\', 'u', '0', '0', Nat.digitChar (c.toNat / 16), (Nat.digitChar (c.toNat % 16)).toUpper]
  else [c]

def escapeOneLine (c : Char) : List Char :=
  if c = '\n' then ['\\', 'n']
  else if c = '"' then ['\\', '"']
  else escape c

/-- The inside of the basic form over several lines. Every third quote in a row is escaped; `run`
counts those that have just gone by. -/
def escapeLines (run : Nat) : List Char → List Char
  | [] => []
  | c :: rest =>
    if c = '"' then
      if run = 2 then '\\' :: '"' :: escapeLines 0 rest else '"' :: escapeLines (run + 1) rest
    else if c = '\n' then '\n' :: escapeLines 0 rest
    else escape c ++ escapeLines 0 rest

/-- A line feed behind the opening quotes of a text that has one itself: it is not part of it. -/
def opening (s : List Char) : List Char :=
  if s.contains '\n' then ['\n'] else []

def inForm (s : List Char) : Form → List Char
  | .basic => '"' :: s.flatMap escapeOneLine ++ ['"']
  | .literal => '\'' :: s ++ ['\'']
  | .basicLines => "\"\"\"".toList ++ opening s ++ escapeLines 0 s ++ "\"\"\"".toList
  | .literalLines => "'''".toList ++ opening s ++ s ++ "'''".toList

/-- The written form of a quotable text. -/
def quote (s : List Char) : List Char :=
  inForm s (form s)

end Written
end Toml
end Prebind
