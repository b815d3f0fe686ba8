import ScriptService.Number.Layout
import ScriptService.Json.Basic

/-!
# Writing JSON text

The compact text of a document: no blanks, members in order, and only quotes, backslashes and
controls escaped. A floating-point number that is not finite has no numeral and is written
`null`. A number beyond all that there are stands for what cannot be read.
-/

namespace ScriptService.Json

/-- One character of a string literal. -/
def escapeChar (c : Char) : List Char :=
  if c = '"' then ['\\', '"']
  else if c = '\\' then ['\\', '\\']
  else if c = '\x08' then ['\\', 'b']
  else if c = '\x0c' then ['\\', 'f']
  else if c = '\n' then ['\\', 'n']
  else if c = '\r' then ['\\', 'r']
  else if c = '\t' then ['\\', 't']
  else if c.toNat < 0x20 then '\\' :: 'u' :: Digits.padLeft 4 '0' (Digits.hex c.toNat)
  else [c]

/-- A string literal. -/
def renderString (s : String) : List Char := '"' :: s.toList.flatMap escapeChar ++ ['"']

def renderReal (x : Double) : List Char :=
  if x.isFinite then Layout.interchange.render x else "null".toList

mutual
/-- The compact text of a document. -/
def render : Json → List Char
  | null => "null".toList
  | bool true => "true".toList
  | bool false => "false".toList
  | int n => Digits.ofInt n
  | real x => renderReal x
  | string s => renderString s
  | array [] => ['[', ']']
  | array (j :: rest) => '[' :: render j ++ renderItems rest
  | object [] => ['\x7b', '\x7d']
  | object ((name, j) :: rest) =>
    '\x7b' :: renderString name ++ ':' :: render j ++ renderMembers rest
  | unreadable => "1e999".toList

/-- The items behind the first one, and the closing bracket. -/
def renderItems : List Json → List Char
  | [] => [']']
  | j :: rest => ',' :: render j ++ renderItems rest

/-- The members behind the first one, and the closing brace. -/
def renderMembers : List (String × Json) → List Char
  | [] => ['\x7d']
  | (name, j) :: rest => ',' :: renderString name ++ ':' :: render j ++ renderMembers rest
end

/-- The compact text of a document, as a string. -/
def toText (j : Json) : String := String.ofList (render j)

end ScriptService.Json
