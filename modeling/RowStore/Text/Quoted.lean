/-
# Quoted text

A text in double quotes, with a backslash before quotes and backslashes, a short escape for tab,
return, newline and NUL, and the code in hexadecimal for every other character that has no shape of
its own. The characters with a shape, the apostrophe included, stand for themselves.

Key definitions: `Text.escape`, `Text.quoted`.
-/
import RowStore.Text.Shapeless

namespace RowStore.Text

/-- What stands for a character between the quotes. -/
def escape (c : Char) : List Char :=
  if c = '"' then ['\\', '"']
  else if c = '\\' then ['\\', '\\']
  else if c = '\t' then ['\\', 't']
  else if c = '\r' then ['\\', 'r']
  else if c = '\n' then ['\\', 'n']
  else if c = '\x00' then ['\\', '0']
  else if isShapeless c then ['\\', 'u', '\x7b'] ++ Nat.toDigits 16 c.toNat ++ ['\x7d']
  else [c]

/-- The text in double quotes. -/
def quoted (text : String) : String :=
  String.ofList ('"' :: text.toList.flatMap escape ++ ['"'])

end RowStore.Text
