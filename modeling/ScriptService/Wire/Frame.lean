import ScriptService.Wire.Message

/-!
# Frames

The lines that travel between a client and the bus, each a tagged JSON record: a client registers
an object and answers calls, first with the data if there is any and then with the status; the bus
sends calls.

Only the tag is read straight from the line. All else goes into a buffer until the tag is known, so
that nothing in a frame may be unreadable, not even what means nothing.
-/

namespace ScriptService

/-- A frame sent by a client. -/
inductive ClientFrame where
  | addObject (object : ObjectSpec)
  | data (id : RequestId) (data : Table)
  | status (id : RequestId) (status : Status)
  deriving Inhabited

/-- A frame sent by the bus. -/
inductive ServerFrame where
  | call (request : Request)
  deriving Inhabited

/-- How deep what a frame carries may nest, inside of the frame. -/
def payloadLimit : Nat := Json.nestingLimit - 1

namespace ClientFrame

def toJson : ClientFrame → Json
  | addObject object =>
    .object [("op", .string "add_object"), ("object", .string object.name),
      ("methods", .array (object.methods.map .string))]
  | data id payload =>
    .object [("op", .string "data"), ("id", .int id.toNat), ("data", payload.toJson)]
  | status id outcome =>
    .object [("op", .string "status"), ("id", .int id.toNat), ("status", outcome.toJson)]

/-- The frame in a buffer. -/
def ofBuffer? (j : Json) : Option ClientFrame :=
  match j.tagged? "op" with
  | some ("add_object", record) =>
    match record.fields? ["object", "methods"] 0 with
    | some [some (.string name), some methods] =>
      methods.strings?.map fun methods => addObject ⟨name, methods⟩
    | _ => none
  | some ("data", record) =>
    match record.fields? ["id", "data"] 0 with
    | some [some id, some table] => do
      return data (← id.word?) (← Table.read? payloadLimit .buffered table)
    | _ => none
  | some ("status", record) =>
    match record.fields? ["id", "status"] 0 with
    | some [some id, some s] => do
      return status (← id.word?) (← Status.read? payloadLimit .buffered s)
    | _ => none
  | _ => none

/-- Reads a frame. -/
def ofJson? (j : Json) : Option ClientFrame := (j.buffer? Json.nestingLimit).bind ofBuffer?

/-- The frames that carry a reply: its data, if there is any, and then its status. -/
def ofReply (reply : Reply) : List ClientFrame :=
  match reply.data with
  | some table => [data reply.id table, status reply.id reply.status]
  | none => [status reply.id reply.status]

end ClientFrame

namespace ServerFrame

def toJson : ServerFrame → Json
  | call r =>
    .object [("op", .string "call"), ("id", .int r.id.toNat), ("object", .string r.object),
      ("method", .string r.method), ("data", Table.optionalToJson r.data)]

/-- The frame in a buffer. -/
def ofBuffer? (j : Json) : Option ServerFrame :=
  match j.tagged? "op" with
  | some ("call", record) =>
    match record.fields? ["id", "object", "method", "data"] 1 with
    | some [some id, some (.string object), some (.string method), data] => do
      return call ⟨← id.word?, object, method, ← Table.readOptional? payloadLimit .buffered data⟩
    | _ => none
  | _ => none

/-- Reads a frame. -/
def ofJson? (j : Json) : Option ServerFrame := (j.buffer? Json.nestingLimit).bind ofBuffer?

end ServerFrame
end ScriptService
