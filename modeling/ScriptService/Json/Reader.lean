import ScriptService.Json.Numeral

/-!
# Reading JSON text

`Json.parse` reads strict JSON: four blanks, no comments, no trailing commas, only the escape
sequences that there are. It tells the structure of a text, however deep containers nest; whether
numbers and strings in it have a value is for those to ask who need the value (`Json.isReadable`).
-/

namespace ScriptService.Json

/-- How deep containers may nest in a text as far as it is read and not passed over. -/
def nestingLimit : Nat := 127

/-- The blanks allowed between tokens. -/
def isSpace (c : Char) : Bool := c == ' ' || c == '\t' || c == '\n' || c == '\r'

def skipSpace (cs : List Char) : List Char := cs.dropWhile isSpace

/-! ## Strings -/

/-- What one element of a string literal stands for: a character, or a 16-bit unit written as
four hexadecimal digits. -/
inductive Element where
  | char (c : Char)
  | unit (n : Nat)

/-- The value of four hexadecimal digits. -/
def hexUnit? (a b c d : Char) : Option Nat := do
  return Digits.toNat 16
    [← Digits.hexValue? a, ← Digits.hexValue? b, ← Digits.hexValue? c, ← Digits.hexValue? d]

/-- The character behind a backslash, other than a unit. -/
def escaped? : Char → Option Char
  | '"' => some '"'
  | '\\' => some '\\'
  | '/' => some '/'
  | 'b' => some '\x08'
  | 'f' => some '\x0c'
  | 'n' => some '\n'
  | 'r' => some '\r'
  | 't' => some '\t'
  | _ => none

/-- The elements of a string up to its closing quote, and the rest. Controls must be escaped. -/
def readElements : List Char → Option (List Element × List Char)
  | [] => none
  | '"' :: r => some ([], r)
  | '\\' :: 'u' :: a :: b :: c :: d :: r => do
    let n ← hexUnit? a b c d
    let (es, r) ← readElements r
    return (.unit n :: es, r)
  | '\\' :: c :: r => do
    let c ← escaped? c
    let (es, r) ← readElements r
    return (.char c :: es, r)
  | c :: r =>
    if c.toNat < 0x20 ∨ c = '\\' then none
    else do
      let (es, r) ← readElements r
      return (.char c :: es, r)

def isHighSurrogate (n : Nat) : Bool := 0xd800 ≤ n && n < 0xdc00

def isLowSurrogate (n : Nat) : Bool := 0xdc00 ≤ n && n < 0xe000

/-- The characters of a string: surrogates must come in pairs. -/
def assemble : List Element → Option (List Char)
  | [] => some []
  | .char c :: es => (assemble es).map (c :: ·)
  | .unit n :: es =>
    if isLowSurrogate n then none
    else if isHighSurrogate n then
      -- A high surrogate and the low one behind it make one character.
      match es with
      | .unit m :: es =>
        if isLowSurrogate m then
          (assemble es).map (Char.ofNat (0x10000 + (n - 0xd800) * 0x400 + (m - 0xdc00)) :: ·)
        else none
      | _ => none
    else (assemble es).map (Char.ofNat n :: ·)

/-- A string behind its opening quote, if its characters are whole, and the rest. -/
def readString (cs : List Char) : Option (Option String × List Char) := do
  let (es, r) ← readElements cs
  return ((assemble es).map String.ofList, r)

/-! ## Values -/

/-- An object, unless one of its names cannot be read. -/
def ofMembers (members : List (Option String × Json)) : Json :=
  match members.mapM fun m => m.1.map (·, m.2) with
  | some members => object members
  | none => unreadable

/-- A value that is not a container, and the rest. -/
def readScalar : List Char → Option (Json × List Char)
  | 'n' :: 'u' :: 'l' :: 'l' :: r => some (.null, r)
  | 't' :: 'r' :: 'u' :: 'e' :: r => some (.bool true, r)
  | 'f' :: 'a' :: 'l' :: 's' :: 'e' :: r => some (.bool false, r)
  | '"' :: r => (readString r).map fun (s, r) => (s.elim .unreadable .string, r)
  | r => (Numeral.read r).map fun (n, r) => (n.toJson, r)

/-- The name of a member and its colon, and the rest. -/
def readName (cs : List Char) : Option (Option String × List Char) :=
  match skipSpace cs with
  | '"' :: r => do
    let (name, r) ← readString r
    match skipSpace r with
    | ':' :: r => some (name, r)
    | _ => none
  | _ => none

mutual
/-- A value and the rest of the text. Each call spends fuel, and no two in a row can do so
without taking a character from the text. -/
def readValue : Nat → List Char → Option (Json × List Char)
  | 0, _ => none
  | fuel + 1, cs =>
    match skipSpace cs with
    | '[' :: r =>
      match skipSpace r with
      | ']' :: r => some (.array [], r)
      | r => (readItems fuel r).map fun (items, r) => (.array items, r)
    | '\x7b' :: r =>
      match skipSpace r with
      | '\x7d' :: r => some (.object [], r)
      | r => (readMembers fuel r).map fun (ms, r) => (ofMembers ms, r)
    | r => readScalar r

/-- One or more items and the closing bracket. -/
def readItems : Nat → List Char → Option (List Json × List Char)
  | 0, _ => none
  | fuel + 1, cs => do
    let (item, r) ← readValue fuel cs
    match skipSpace r with
    | ',' :: r => (readItems fuel r).map fun (items, r) => (item :: items, r)
    | ']' :: r => some ([item], r)
    | _ => none

/-- One or more members and the closing brace. -/
def readMembers : Nat → List Char → Option (List (Option String × Json) × List Char)
  | 0, _ => none
  | fuel + 1, cs => do
    let (name, r) ← readName cs
    let (value, r) ← readValue fuel r
    match skipSpace r with
    | ',' :: r => (readMembers fuel r).map fun (ms, r) => ((name, value) :: ms, r)
    | '\x7d' :: r => some ([(name, value)], r)
    | _ => none
end

/-- The document of a text. -/
def parse (text : List Char) : Option Json := do
  let (j, r) ← readValue (2 * text.length + 2) text
  if (skipSpace r).isEmpty then some j else none

end ScriptService.Json
