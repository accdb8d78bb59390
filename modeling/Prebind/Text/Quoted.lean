import Prebind.Text.Hidden

/-!
Texts in double quotes, as error messages show them: quotes, backslashes and hidden characters are
escaped, the latter by their code points where they have no short form.
-/

namespace Prebind
namespace Text

def escapeShown (c : Char) : List Char :=
  if c = '"' then ['\\', '"']
  else if c = '\\' then ['\\', '\\']
  else if c = '\t' then ['\\', 't']
  else if c = '\n' then ['\\', 'n']
  else if c = '\r' then ['\\', 'r']
  else if c.toNat = 0 then ['\\', '0']
  else if isHidden c then "\\u\x7b".toList ++ Nat.toDigits 16 c.toNat ++ ['\x7d']
  else [c]

def quoted (s : String) : String :=
  .ofList ('"' :: s.toList.flatMap escapeShown ++ ['"'])

end Text
end Prebind
