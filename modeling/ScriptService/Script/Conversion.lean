import ScriptService.Wire.Attribute
import ScriptService.Script.Value

/-!
# Attributes and script values

Inbound, a payload becomes a table that keeps the order of its fields; of a repeated name the
first field counts, and a kind that scripts cannot represent becomes unit. Outbound, values that
the bus cannot carry are left out, integers take the narrower of two widths, and an object map
goes out sorted by name. Shared cells are looked through.
-/

namespace ScriptService

namespace Value

mutual
/-- The value of an attribute. -/
def ofAttribute : Attribute → Value
  | .bool b => bool b
  | .int16 i => int (.ofInt i.toInt)
  | .int32 i => int (.ofInt i.toInt)
  | .int64 i => int i
  | .double x => float x
  | .string s => string s
  | .array items => array (ofItems items)
  | .table fields => table (ofFields fields [])
  | .unspec => unit
  | .unknown => unit

def ofItems : List Attribute → List Value
  | [] => []
  | a :: rest => ofAttribute a :: ofItems rest

/-- Adds the fields of a payload to those read so far. -/
def ofFields : List (String × Attribute) → Fields Value → Fields Value
  | [], fields => fields
  | (name, a) :: rest, fields => ofFields rest (Fields.insertNew fields name (ofAttribute a))
end

/-- The value of a payload. -/
def ofTable (table : Table) : Value := ofAttribute (.table table)

mutual
/-- The attribute that carries a value, if there is one. -/
def toAttribute? : Value → Option Attribute
  | unit => none
  | bool b => some (.bool b)
  | int i => some (.integer i)
  | float x => some (.double x)
  | char c => some (.string (String.singleton c))
  | string s => some (.string s)
  | array items => some (.array (attributes items))
  | blob _ => none
  | map fields => some (.table (attributeFields fields))
  | table fields => some (.table (attributeFields fields))
  | function _ _ => none
  | object _ _ => none
  | shared v => toAttribute? v

/-- The attributes of the items that the bus can carry. -/
def attributes : List Value → List Attribute
  | [] => []
  | v :: rest =>
    match toAttribute? v with
    | some a => a :: attributes rest
    | none => attributes rest

/-- The fields whose values the bus can carry. -/
def attributeFields : List (String × Value) → List (String × Attribute)
  | [] => []
  | (name, v) :: rest =>
    match toAttribute? v with
    | some a => (name, a) :: attributeFields rest
    | none => attributeFields rest
end

/-- The payload that a table or an object map is; nothing else is a payload. -/
def toTable? (v : Value) : Option Table :=
  match v.toAttribute? with
  | some (.table fields) => some fields
  | _ => none

end Value
end ScriptService
