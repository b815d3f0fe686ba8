import ScriptService.Wire.Attribute

/-!
# Messages

What the bus and a published object exchange: the object's description, requests, replies with a
status, and the changes of a connection.
-/

namespace ScriptService

/-! ## Status -/

/-- The outcome of a request. -/
inductive Status where
  | ok
  | invalidCommand
  | invalidArgument
  | methodNotFound
  | notFound
  | noData
  | permissionDenied
  | timeout
  | notSupported
  | unknownError
  | connectionFailed
  deriving DecidableEq, Inhabited

namespace Status

/-- All outcomes, in the order of their codes. -/
def all : List Status :=
  [ok, invalidCommand, invalidArgument, methodNotFound, notFound, noData, permissionDenied, timeout,
    notSupported, unknownError, connectionFailed]

/-- The number that stands for a status. -/
def code : Status → Nat
  | ok => 0
  | invalidCommand => 1
  | invalidArgument => 2
  | methodNotFound => 3
  | notFound => 4
  | noData => 5
  | permissionDenied => 6
  | timeout => 7
  | notSupported => 8
  | unknownError => 9
  | connectionFailed => 10

/-- The name that stands for a status in a frame. -/
def name : Status → String
  | ok => "ok"
  | invalidCommand => "invalid_command"
  | invalidArgument => "invalid_argument"
  | methodNotFound => "method_not_found"
  | notFound => "not_found"
  | noData => "no_data"
  | permissionDenied => "permission_denied"
  | timeout => "timeout"
  | notSupported => "not_supported"
  | unknownError => "unknown_error"
  | connectionFailed => "connection_failed"

/-- The status in words. -/
def words : Status → String
  | ok => "success"
  | invalidCommand => "invalid command"
  | invalidArgument => "invalid argument"
  | methodNotFound => "method not found"
  | notFound => "not found"
  | noData => "no response"
  | permissionDenied => "permission denied"
  | timeout => "request timed out"
  | notSupported => "operation not supported"
  | unknownError => "unknown error"
  | connectionFailed => "connection failed"

/-- The status in words, with its code. -/
def display (s : Status) : String := s.words ++ " (" ++ toString s.code ++ ")"

def ofName? (name : String) : Option Status := all.find? fun s => s.name == name

def toJson (s : Status) : Json := .string s.name

/-- Reads a status, which is written as its name. -/
def read? (limit : Nat) (reading : Json.Reading) (j : Json) : Option Status :=
  (j.alternative? reading limit).bind ofName?

theorem ofName?_name (s : Status) : ofName? s.name = some s := by cases s <;> rfl

end Status

/-! ## Objects, requests and replies -/

/-- A published object: its name and the methods that may be called. -/
structure ObjectSpec where
  name : String
  methods : List String
  deriving DecidableEq, Inhabited

namespace ObjectSpec

def hasMethod (object : ObjectSpec) (method : String) : Bool := object.methods.contains method

def toJson (object : ObjectSpec) : Json :=
  .object [("name", .string object.name), ("methods", .array (object.methods.map .string))]

/-- Reads the description of an object, which nests twice. All members but its two are passed
over. -/
def ofJson? (j : Json) : Option ObjectSpec :=
  match j.fields? ["name", "methods"] 0 with
  | some [some (.string name), some methods] => methods.strings?.map (⟨name, ·⟩)
  | _ => none

end ObjectSpec

/-- The number by which a call is answered. -/
abbrev RequestId := UInt32

/-- A call of a method. -/
structure Request where
  id : RequestId
  object : String
  method : String
  data : Option Table
  deriving Inhabited

/-- The answer to the call with the same id. -/
structure Reply where
  id : RequestId
  status : Status
  data : Option Table
  deriving Inhabited

/-- What a session tells the owner of its object. -/
inductive BusEvent where
  /-- A connection was made and the object registered on it. -/
  | connected
  /-- The connection was lost. -/
  | disconnected
  /-- A call arrived. -/
  | call (request : Request)
  deriving Inhabited

/-! ## Errors -/

/-- Why an operation on the bus failed. -/
inductive BusError where
  | io (reason : String)
  | malformedFrame
  | disconnected
  | noSuchObject (name : String)
  deriving DecidableEq, Inhabited

namespace BusError

/-- What stands in place of the details of a text that is not a frame. -/
def unreadableText : String := "<json>"

def message : BusError → String
  | io reason => "Bus I/O error: " ++ reason
  | malformedFrame => "Malformed bus frame: " ++ unreadableText
  | disconnected => "Bus connection closed"
  | noSuchObject name => "No such object '" ++ name ++ "'"

end BusError
end ScriptService
