import ScriptService.Json.Reader
import ScriptService.Json.Record
import ScriptService.Json.Writer
import ScriptService.Text.Quoted

/-!
# Attributes

The values a message carries: typed scalars, arrays and tables. A table is a list of named fields
in the order they were sent; a name may repeat, and the first field of a name is the one that a
lookup finds.
-/

namespace ScriptService

/-- A typed value of a message. -/
inductive Attribute where
  | bool (b : Bool)
  | int16 (i : Int16)
  | int32 (i : Int32)
  | int64 (i : Int64)
  | double (x : Double)
  | string (s : String)
  | array (items : List Attribute)
  | table (fields : List (String × Attribute))
  /-- A value left open by the sender. -/
  | unspec
  /-- A value of a kind that this side does not know. -/
  | unknown
  deriving Inhabited

/-- Named fields in the order they were sent. -/
abbrev Table := List (String × Attribute)

namespace Table

/-- The first field with a name. -/
def get? (table : Table) (name : String) : Option Attribute := List.lookup name table

def names (table : Table) : List String := table.map (·.1)

end Table

namespace Attribute

/-- The narrowest of the two wide integer kinds that holds the value. -/
def integer (i : Int64) : Attribute :=
  if -2147483648 ≤ i.toInt ∧ i.toInt ≤ 2147483647 then int32 (.ofInt i.toInt) else int64 i

/-- The name of an attribute's kind. -/
def kind : Attribute → String
  | bool _ => "bool"
  | int16 _ => "int16"
  | int32 _ => "int32"
  | int64 _ => "int64"
  | double _ => "double"
  | string _ => "string"
  | array _ => "array"
  | table _ => "table"
  | unspec => "unspec"
  | unknown => "unknown"

/-! ## JSON form -/

mutual
/-- A record of the kind and, where the kind has content, the value. -/
def toJson : Attribute → Json
  | bool b => content "bool" (.bool b)
  | int16 i => content "int16" (.int i.toInt)
  | int32 i => content "int32" (.int i.toInt)
  | int64 i => content "int64" (.int i.toInt)
  | double x => content "double" (.real x)
  | string s => content "string" (.string s)
  | array items => content "array" (.array (itemsToJson items))
  | table fields => content "table" (.array (fieldsToJson fields))
  | unspec => .object [("type", .string "unspec")]
  | unknown => .object [("type", .string "unknown")]
where
  content (kind : String) (value : Json) : Json :=
    .object [("type", .string kind), ("value", value)]

def itemsToJson : List Attribute → List Json
  | [] => []
  | a :: rest => toJson a :: itemsToJson rest

/-- Each field as a pair of its name and its attribute. -/
def fieldsToJson : List (String × Attribute) → List Json
  | [] => []
  | (name, a) :: rest => .array [.string name, toJson a] :: fieldsToJson rest
end

/-- The kinds by which attributes are sent, in the order of their numbers. -/
def kinds : List String :=
  ["bool", "int16", "int32", "int64", "double", "string", "array", "table", "unspec", "unknown"]

/-- An attribute of a kind with scalar content, or of a kind without content, for which the value
is absent or null. Every name that is no kind stands for a kind unknown to this side. -/
def scalar? (kind : String) (value : Option Json) : Option Attribute :=
  match kind, value with
  | "bool", some (.bool b) => some (bool b)
  | "int16", some j => (j.integer? (-32768) 32767).map fun i => int16 (.ofInt i)
  | "int32", some j => (j.integer? (-2147483648) 2147483647).map fun i => int32 (.ofInt i)
  | "int64", some j =>
    (j.integer? (-9223372036854775808) 9223372036854775807).map fun i => int64 (.ofInt i)
  | "double", some j => j.double?.map double
  | "string", some (.string s) => some (string s)
  -- Kinds without content, known to this side or not, take no value.
  | "unspec", none => some unspec
  | "unspec", some .null => some unspec
  | kind, none => if isContentKind kind then none else some unknown
  | kind, some .null => if isContentKind kind then none else some unknown
  | _, _ => none
where
  isContentKind (kind : String) : Bool :=
    ["bool", "int16", "int32", "int64", "double", "string", "array", "table"].contains kind

/-- The kind that stands first in a pair; in a buffer also by its number. -/
def pairKind? (reading : Json.Reading) : Json → Option String
  | .string kind => some kind
  | .int n =>
    if reading = .buffered ∧ 0 ≤ n then some (kinds.getD n.toNat "unknown") else none
  | _ => none

/-- The record of an attribute: its kind, its content, and where the content is read from. -/
structure Form where
  kind : String
  content : Option Json
  reading : Json.Reading

/-- The members that an attribute has, in the order in which they stand. -/
def ownMembers (members : List (String × Json)) : List (String × Json) :=
  members.filter fun m => m.1 == "type" || m.1 == "value"

/-- The record that a document is. Behind the kind the content is read as the record is; in front of
it the content goes into a buffer first, if it is not in one. -/
def form? (limit : Nat) (reading : Json.Reading) : Json → Option Form
  | .object members =>
    match ownMembers members with
    | [("type", kind)] => (kind.alternative? reading limit).map (⟨·, none, reading⟩)
    | [("type", kind), ("value", content)] =>
      (kind.alternative? reading limit).map (⟨·, some content, reading⟩)
    | [("value", content), ("type", kind)] =>
      if reading = .buffered ∨ content.isReadable limit then
        (kind.alternative? reading limit).map (⟨·, some content, .buffered⟩)
      else none
    | _ => none
  | .array [kind, content] => (pairKind? reading kind).map (⟨·, some content, reading⟩)
  | _ => none

mutual
/-- Reads an attribute that nests at most `limit` deep. -/
def read? : Nat → Json.Reading → Json → Option Attribute
  | 0, _, _ => none
  | limit + 1, reading, j =>
    (form? limit reading j).bind fun form => content? limit form.reading form.kind form.content

/-- The attribute of a kind and its content. -/
def content? : Nat → Json.Reading → String → Option Json → Option Attribute
  | limit + 1, reading, kind, some (.array items) =>
    if kind = "array" then (items.mapM (read? limit reading)).map array
    else if kind = "table" then (items.mapM (field? limit reading)).map table
    else none
  | _, _, kind, content => scalar? kind content

/-- Reads a field, which is a pair of a name and an attribute. -/
def field? : Nat → Json.Reading → Json → Option (String × Attribute)
  | limit + 1, reading, .array [.string name, j] => (read? limit reading j).map (name, ·)
  | _, _, _ => none
end

/-! ## Display -/

mutual
/-- How messages show an attribute. -/
def display : Attribute → List Char
  | bool b => (toString b).toList
  | int16 i => Digits.ofInt i.toInt
  | int32 i => Digits.ofInt i.toInt
  | int64 i => Digits.ofInt i.toInt
  | double x => Layout.plain.render x
  | string s => Text.quoted s
  | array [] => "[]".toList
  | array (a :: rest) => '[' :: display a ++ displayItems rest
  | table [] => ['\x7b', '\x7d']
  | table ((name, a) :: rest) =>
    '\x7b' :: Text.quoted name ++ ':' :: ' ' :: display a ++ displayFields rest
  | unspec => "null".toList
  | unknown => "<unknown>".toList

def displayItems : List Attribute → List Char
  | [] => [']']
  | a :: rest => ',' :: ' ' :: display a ++ displayItems rest

def displayFields : List (String × Attribute) → List Char
  | [] => ['\x7d']
  | (name, a) :: rest =>
    ',' :: ' ' :: Text.quoted name ++ ':' :: ' ' :: display a ++ displayFields rest
end

/-! ## Comparison of numbers by value -/

mutual
/-- Equality in which floating-point numbers compare as numbers: zeros are equal, and what is
not a number differs from itself. -/
def same : Attribute → Attribute → Bool
  | bool a, bool b => a == b
  | int16 a, int16 b => a == b
  | int32 a, int32 b => a == b
  | int64 a, int64 b => a == b
  | double a, double b => a.sameNumber b
  | string a, string b => a == b
  | array a, array b => sameItems a b
  | table a, table b => sameFields a b
  | unspec, unspec => true
  | unknown, unknown => true
  | _, _ => false

def sameItems : List Attribute → List Attribute → Bool
  | [], [] => true
  | a :: as, b :: bs => same a b && sameItems as bs
  | _, _ => false

def sameFields : List (String × Attribute) → List (String × Attribute) → Bool
  | [], [] => true
  | (n, a) :: as, (m, b) :: bs => n == m && same a b && sameFields as bs
  | _, _ => false
end

end Attribute

namespace Table

def toJson (table : Table) : Json := .array (Attribute.fieldsToJson table)

def read? : Nat → Json.Reading → Json → Option Table
  | limit + 1, reading, .array items => items.mapM (Attribute.field? limit reading)
  | _, _, _ => none

/-- A payload that may be missing; null stands for a missing one. -/
def readOptional? (limit : Nat) (reading : Json.Reading) : Option Json → Option (Option Table)
  | none => some none
  | some .null => some none
  | some j => (read? limit reading j).map some

def optionalToJson : Option Table → Json
  | none => .null
  | some table => table.toJson

def display (table : Table) : List Char := (Attribute.table table).display

end Table
end ScriptService
