import ScriptService.Number.Layout
import ScriptService.Text.Quoted
import ScriptService.Script.Value

/-!
# Text of script values

`debug` shows a value as a script could write it, `display` as a message shows it: text stands
for itself, and containers are shown as by `debug`. Inside a shared cell `display` goes on into
containers, and every shared cell is marked behind its content.
-/

namespace ScriptService.Value

/-- Two hexadecimal digits of a byte. -/
def byteText (b : UInt8) : List Char := Digits.padLeft 2 '0' (Digits.hex b.toNat)

/-- Bytes in hexadecimal, in groups of eight. -/
def blobText : List UInt8 → Nat → List Char
  | [], _ => []
  | b :: rest, n =>
    (if n % 8 = 0 ∧ n ≠ 0 then [' '] else []) ++ byteText b ++ blobText rest (n + 1)

/-- What is shown for a table, whose fields stay hidden. -/
def tableText : List Char := "ucrun_host::table::ScriptTable".toList

/-- What follows the content of a shared cell. -/
def sharedMark : List Char := " (shared)".toList

mutual
/-- A value as a script could write it. -/
def debug : Value → List Char
  | unit => ['(', ')']
  | bool b => (toString b).toList
  | int i => Digits.ofInt i.toInt
  | float x => Layout.detailed.render x
  | char c => Text.quotedChar c
  | string s => Text.quoted s
  | array [] => ['[', ']']
  | array (v :: rest) => '[' :: debug v ++ debugItems rest ++ [']']
  | blob bytes => '[' :: blobText bytes 0 ++ [']']
  | map [] => ['#', '\x7b', '\x7d']
  | map ((name, v) :: rest) =>
    '#' :: '\x7b' :: Text.quoted name ++ ':' :: ' ' :: debug v ++ debugFields rest
  | table _ => tableText
  | function name curried => "Fn(".toList ++ Text.quoted name ++ debugItems curried ++ [')']
  | object _ _ => "tracked".toList
  | shared v => debug v ++ sharedMark

/-- Items, each behind a comma. -/
def debugItems : List Value → List Char
  | [] => []
  | v :: rest => ',' :: ' ' :: debug v ++ debugItems rest

/-- Fields, each behind a comma, and the closing brace. -/
def debugFields : List (String × Value) → List Char
  | [] => ['\x7d']
  | (name, v) :: rest =>
    ',' :: ' ' :: Text.quoted name ++ ':' :: ' ' :: debug v ++ debugFields rest
end

/-- The text of a value that is neither a container nor in a shared cell. -/
def displayPlain : Value → List Char
  | unit => []
  | float x => Layout.script.render x
  | char c => [c]
  | string s => s.toList
  | function name _ => "Fn(".toList ++ name.toList ++ [')']
  | v => debug v

mutual
/-- A value inside a shared cell as a message shows it. -/
def displayShared : Value → List Char
  | array [] => ['[', ']']
  | array (v :: rest) => '[' :: displayShared v ++ displayItems rest ++ [']']
  | map [] => ['#', '\x7b', '\x7d']
  | map ((name, v) :: rest) =>
    '#' :: '\x7b' :: name.toList ++ ':' :: ' ' :: displayShared v ++ displayFields rest
  | shared v => displayShared v ++ sharedMark
  | v => displayPlain v

def displayItems : List Value → List Char
  | [] => []
  | v :: rest => ',' :: ' ' :: displayShared v ++ displayItems rest

def displayFields : List (String × Value) → List Char
  | [] => ['\x7d']
  | (name, v) :: rest =>
    ',' :: ' ' :: name.toList ++ ':' :: ' ' :: displayShared v ++ displayFields rest
end

/-- A value as a message shows it. -/
def display : Value → List Char
  | shared v => displayShared v ++ sharedMark
  | v => displayPlain v

/-- A value used as a text: a string is its own text, also in a shared cell, and every other value
is displayed. -/
def text (v : Value) : String := v.string?.getD (String.ofList v.display)

/-- Fields as a table shows itself: names as they are, values as a script could write them. -/
def tableDisplay : Fields Value → List Char
  | [] => ['#', '\x7b', '\x7d']
  | (name, v) :: rest =>
    '#' :: '\x7b' :: ' ' :: name.toList ++ ':' :: ' ' :: debug v ++
      rest.flatMap (fun f => ',' :: ' ' :: f.1.toList ++ ':' :: ' ' :: debug f.2) ++ [' ', '\x7d']

end ScriptService.Value
