/-!
JSON text, spread over lines with an indentation of two spaces, for arrays of flat objects.
-/

namespace Prebind
namespace Json

/-- A field of an object: a text or a count. -/
inductive Scalar where
  | text (value : String)
  | count (value : Nat)
  deriving DecidableEq, Repr

/-- A character inside a string. Quotes, backslashes and control characters are escaped. -/
def escape (c : Char) : List Char :=
  if c = '"' then ['\\', '"']
  else if c = '\\' then ['\\', '\\']
  else if c = '\x08' then ['\\', 'b']
  else if c = '\t' then ['\\', 't']
  else if c = '\n' then ['\\', 'n']
  else if c = '\x0c' then ['\\', 'f']
  else if c = '\r' then ['\\', 'r']
  else if c.toNat < 0x20 then
    ['\\', 'u', '0', '0', Nat.digitChar (c.toNat / 16), Nat.digitChar (c.toNat % 16)]
  else [c]

def quote (s : List Char) : List Char :=
  '"' :: s.flatMap escape ++ ['"']

def Scalar.render : Scalar → List Char
  | .text value => quote value.toList
  | .count value => Nat.toDigits 10 value

/-- The line of a field, without the comma that may follow. -/
def renderField (field : String × Scalar) : List Char :=
  "\n    ".toList ++ quote field.1.toList ++ ": ".toList ++ field.2.render

def renderObject (fields : List (String × Scalar)) : List Char :=
  "\n  \x7b".toList ++ List.intercalate [','] (fields.map renderField) ++ "\n  \x7d".toList

/-- An array of objects. The empty array is one line. -/
def renderArray (objects : List (List (String × Scalar))) : List Char :=
  match objects with
  | [] => "[]".toList
  | _ => '[' :: List.intercalate [','] (objects.map renderObject) ++ "\n]".toList

end Json
end Prebind
