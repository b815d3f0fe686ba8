import ScriptService.Number.Double
import ScriptService.Script.Fields

/-!
# Script values

The dynamic values of the script language. A value may sit in a shared cell; `content` looks
through the cells around a value and `erase` removes them everywhere. An opaque object is known by
its identity, so that one object held in two places is still one.
-/

namespace ScriptService

/-- A value of the script language. -/
inductive Value where
  | unit
  | bool (b : Bool)
  | int (i : Int64)
  | float (x : Double)
  | char (c : Char)
  | string (s : String)
  | array (items : List Value)
  | blob (bytes : List UInt8)
  /-- An object map, whose fields are sorted by name. -/
  | map (fields : List (String × Value))
  /-- A table, whose fields keep their order of insertion. -/
  | table (fields : List (String × Value))
  /-- A function by its name, with values to put before the arguments of a call. -/
  | function (name : String) (curried : List Value)
  /-- An opaque object. -/
  | object (id : Nat) (label : String)
  /-- A shared cell. -/
  | shared (content : Value)
  deriving Inhabited

/-- A function to call back, with the values that come before the arguments. -/
structure Callback where
  name : String
  curried : List Value
  deriving Inhabited

namespace Value

/-- The value inside any shared cells around it. -/
def content : Value → Value
  | shared v => content v
  | v => v

/-- Puts a value into a shared cell, unless it is in one. -/
def share : Value → Value
  | shared v => shared v
  | v => shared v

/-- The function that a value is, seen through shared cells. -/
def callback? (v : Value) : Option Callback :=
  match v.content with
  | function name curried => some ⟨name, curried⟩
  | _ => none

/-- The integer that a value is, seen through shared cells. -/
def int? (v : Value) : Option Int64 :=
  match v.content with
  | int i => some i
  | _ => none

/-- The string that a value is, seen through shared cells. -/
def string? (v : Value) : Option String :=
  match v.content with
  | string s => some s
  | _ => none

/-- The items of the array that a value is, seen through shared cells. -/
def array? (v : Value) : Option (List Value) :=
  match v.content with
  | array items => some items
  | _ => none

/-- The fields of the object map that a value is, seen through shared cells. -/
def map? (v : Value) : Option (Fields Value) :=
  match v.content with
  | map fields => some fields
  | _ => none

/-- The fields of the table that a value is, seen through shared cells. -/
def table? (v : Value) : Option (Fields Value) :=
  match v.content with
  | table fields => some fields
  | _ => none

mutual
/-- The value without its shared cells, at every depth. -/
def erase : Value → Value
  | array items => array (eraseItems items)
  | map fields => map (eraseFields fields)
  | table fields => table (eraseFields fields)
  | function name curried => function name (eraseItems curried)
  | shared v => erase v
  | v => v

def eraseItems : List Value → List Value
  | [] => []
  | v :: rest => erase v :: eraseItems rest

def eraseFields : List (String × Value) → List (String × Value)
  | [] => []
  | (name, v) :: rest => (name, erase v) :: eraseFields rest
end

/-- The name of a value's type. -/
def typeName : Value → String
  | unit => "()"
  | bool _ => "bool"
  | int _ => "i64"
  | float _ => "f64"
  | char _ => "char"
  | string _ => "&str | ImmutableString | String"
  | array _ => "array"
  | blob _ => "blob"
  | map _ => "map"
  | table _ => "table"
  | function _ _ => "Fn"
  | object _ _ => "tracked"
  | shared v => typeName v

/-- A name and the types of arguments, as messages show a call. -/
def signature (name : String) (args : List Value) : String :=
  name ++ " (" ++ ", ".intercalate (args.map typeName) ++ ")"

/-! ## Objects that a value holds -/

mutual
/-- The objects that a value keeps alive, each with its label. -/
def objects : Value → List (Nat × String)
  | array items => objectsOfItems items
  | map fields => objectsOfFields fields
  | table fields => objectsOfFields fields
  | function _ curried => objectsOfItems curried
  | object id label => [(id, label)]
  | shared v => objects v
  | _ => []

def objectsOfItems : List Value → List (Nat × String)
  | [] => []
  | v :: rest => objects v ++ objectsOfItems rest

def objectsOfFields : List (String × Value) → List (Nat × String)
  | [] => []
  | (_, v) :: rest => objects v ++ objectsOfFields rest
end

/-- The labels of the objects that a list of values keeps alive, sorted; an object counts once. -/
def liveLabels (values : List Value) : List String :=
  ((objectsOfItems values).eraseDups.map (·.2)).mergeSort fun a b => decide (a ≤ b)

end Value

namespace Callback

/-- The function as a value. -/
def toValue (f : Callback) : Value := .function f.name f.curried

end Callback
end ScriptService
