import ScriptService.Number.Digits
import ScriptService.Text.Unprintable

/-!
# Quoted text

Text between quotes, as messages and value displays show it. The quote, the backslash and five
controls have short escapes; every other unprintable character is written by its code point.
-/

namespace ScriptService.Text

/-- How one character is written between quotes of the given kind. -/
def escapeChar (quote c : Char) : List Char :=
  if c = quote then ['\\', c]
  else if c = '\\' then ['\\', '\\']
  else if c = '\n' then ['\\', 'n']
  else if c = '\r' then ['\\', 'r']
  else if c = '\t' then ['\\', 't']
  else if c.toNat = 0 then ['\\', '0']
  else if isUnprintable c then '\\' :: 'u' :: '\x7b' :: Digits.hex c.toNat ++ ['\x7d']
  else [c]

/-- A string between double quotes. -/
def quoted (s : String) : List Char :=
  '"' :: s.toList.flatMap (escapeChar '"') ++ ['"']

/-- A character between single quotes. -/
def quotedChar (c : Char) : List Char :=
  '\'' :: escapeChar '\'' c ++ ['\'']

end ScriptService.Text
