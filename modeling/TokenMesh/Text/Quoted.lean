import TokenMesh.Text.Hidden
import TokenMesh.Text.Numeral

namespace TokenMesh.Text

/-!
# Quoted text

A text in double quotes, as error messages show it.  A quote and a backslash follow a backslash,
the common controls have a letter of their own, and every other hidden character is written as
its code point in hexadecimal.
-/

/-- A character as it stands inside quotes. -/
def quotedChar (c : Char) : List Char :=
  if c = '\x00' then ['\\', '0']
  else if c = '\t' then ['\\', 't']
  else if c = '\r' then ['\\', 'r']
  else if c = '\n' then ['\\', 'n']
  else if c = '"' then ['\\', '"']
  else if c = '\\' then ['\\', '\\']
  else if isHidden c then
    ['\\', 'u', Char.ofNat 0x7b] ++ hexadecimal c.toNat ++ [Char.ofNat 0x7d]
  else [c]

/-- A text in double quotes. -/
def quoted (s : String) : String :=
  String.ofList ('"' :: s.toList.flatMap quotedChar ++ ['"'])

end TokenMesh.Text
