import Prebind.Text.Hex
import Prebind.Toml.Scanner

/-!
Quoted texts of four kinds: basic ones with escapes in double quotes, literal ones in single quotes,
and both over several lines in triple quotes. Line ends inside a text are read as line feeds.

A text over several lines may end with up to two quotes of its own in front of the three that close
it.
-/

namespace Prebind
namespace Toml
namespace Quoted

/-- The character with a code point in hexadecimal. -/
def codePoint? (digits : List Char) : Option Char := do
  let n ← digits.foldlM (fun n c => (Hex.digit? c).map (16 * n + ·)) 0
  if n.isValidChar then some (.ofNat n) else none

/-- The character that one letter behind a backslash stands for. -/
def shortEscape? : Char → Option Char
  | 'b' => some '\x08'
  | 't' => some '\t'
  | 'n' => some '\n'
  | 'f' => some '\x0c'
  | 'r' => some '\r'
  | '"' => some '"'
  | '\\' => some '\\'
  | _ => none

/-- Puts a character in front of what has been scanned. -/
def cons (c : Char) : Option (List Char × List Char) → Option (List Char × List Char)
  | some (text, rest) => some (c :: text, rest)
  | none => none

/-- A basic text behind its opening quote. -/
def basic : Scanner (List Char)
  | [] => none
  | '"' :: rest => some ([], rest)
  | '\\' :: 'u' :: a :: b :: c :: d :: rest =>
    (codePoint? [a, b, c, d]).bind fun x => cons x (basic rest)
  | '\\' :: 'U' :: a :: b :: c :: d :: e :: f :: g :: h :: rest =>
    (codePoint? [a, b, c, d, e, f, g, h]).bind fun x => cons x (basic rest)
  | '\\' :: x :: rest => (shortEscape? x).bind fun x => cons x (basic rest)
  | c :: rest => if isPlain c ∧ c ≠ '\\' then cons c (basic rest) else none

/-- A literal text behind its opening quote. -/
def literal : Scanner (List Char)
  | [] => none
  | '\'' :: rest => some ([], rest)
  | c :: rest => if isPlain c then cons c (literal rest) else none

/-- Whether a line ends here but for spaces. -/
def endsLine (s : List Char) : Bool :=
  (newline? (skipSpace s)).isSome

/-- A basic text over several lines, behind its first line end. A backslash at the end of a line
takes away the blanks up to the next other character; `skipping` says that this is going on. -/
def basicLines (skipping : Bool) : Scanner (List Char)
  | [] => none
  | '\r' :: '\n' :: rest =>
    if skipping then basicLines true rest else cons '\n' (basicLines false rest)
  | '\n' :: rest =>
    if skipping then basicLines true rest else cons '\n' (basicLines false rest)
  | '"' :: '"' :: '"' :: '"' :: '"' :: rest => some (['"', '"'], rest)
  | '"' :: '"' :: '"' :: '"' :: rest => some (['"'], rest)
  | '"' :: '"' :: '"' :: rest => some ([], rest)
  | '"' :: rest => cons '"' (basicLines false rest)
  | '\\' :: 'u' :: a :: b :: c :: d :: rest =>
    (codePoint? [a, b, c, d]).bind fun x => cons x (basicLines false rest)
  | '\\' :: 'U' :: a :: b :: c :: d :: e :: f :: g :: h :: rest =>
    (codePoint? [a, b, c, d, e, f, g, h]).bind fun x => cons x (basicLines false rest)
  | '\\' :: x :: rest =>
    match shortEscape? x with
    | some x => cons x (basicLines false rest)
    | none => if endsLine (x :: rest) then basicLines true (x :: rest) else none
  | c :: rest =>
    if skipping ∧ isSpace c then basicLines true rest
    else if isPlain c ∧ c ≠ '\\' then cons c (basicLines false rest)
    else none

/-- A literal text over several lines, behind its first line end. -/
def literalLines : Scanner (List Char)
  | [] => none
  | '\r' :: '\n' :: rest => cons '\n' (literalLines rest)
  | '\n' :: rest => cons '\n' (literalLines rest)
  | '\'' :: '\'' :: '\'' :: '\'' :: '\'' :: rest => some (['\'', '\''], rest)
  | '\'' :: '\'' :: '\'' :: '\'' :: rest => some (['\''], rest)
  | '\'' :: '\'' :: '\'' :: rest => some ([], rest)
  | c :: rest => if isPlain c then cons c (literalLines rest) else none

/-- The text without a line end at its very start. -/
def dropNewline (s : List Char) : List Char :=
  (newline? s).getD s

/-- A quoted text that stays on its line. -/
def oneLine : Scanner (List Char)
  | '"' :: rest => basic rest
  | '\'' :: rest => literal rest
  | _ => none

/-- A quoted text of any kind. -/
def anyKind : Scanner (List Char)
  | '"' :: '"' :: '"' :: rest => basicLines false (dropNewline rest)
  | '\'' :: '\'' :: '\'' :: rest => literalLines (dropNewline rest)
  | s => oneLine s

end Quoted
end Toml
end Prebind
