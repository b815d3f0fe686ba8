import ScriptService.Bus.Connection

/-!
# The in-process bus

A bus that never leaves the process: clients connect to it and register objects, callers call the
objects' methods and wait for replies. A call waits at the connection that owns the object when
the call is made. It is answered by the first reply that carries its id, or fails when that
connection is dropped or the bus disconnects everybody.
-/

namespace ScriptService

/-- Who waits for an answer. -/
abbrev Caller := String

/-- What a caller gets. -/
inductive Outcome where
  | replied (r : Reply)
  | failed (e : BusError)
  /-- The object that the caller waited for is there, with these methods. -/
  | registered (methods : List String)
  deriving Inhabited

/-- An outcome and the caller it goes to. -/
structure Answer where
  caller : Caller
  outcome : Outcome
  deriving Inhabited

/-- The client's end of a connection. -/
structure Endpoint where
  id : ConnectionId
  /-- Whether the connection has used its registration. -/
  registered : Bool := false
  /-- The calls that arrived, in order. -/
  inbox : List Request := []
  deriving Inhabited

/-- An object on the bus. -/
structure Registration where
  object : ObjectSpec
  owner : ConnectionId
  deriving Inhabited

/-- A call that waits for its reply. -/
structure WaitingCall where
  id : RequestId
  /-- The connection that is to answer. -/
  owner : ConnectionId
  caller : Caller
  deriving Inhabited

/-- The in-process bus. -/
structure MemoryBus where
  /-- How many connections were made; they are numbered from 1. -/
  connects : Nat := 0
  endpoints : List Endpoint := []
  registrations : List Registration := []
  waiting : List WaitingCall := []
  /-- Callers that wait for an object to be registered. -/
  watchers : List (Caller × String) := []
  nextId : RequestId := 0
  /-- The answers given, in order. -/
  answers : List Answer := []
  deriving Inhabited

namespace MemoryBus

/-! ## Looking -/

def endpoint? (bus : MemoryBus) (id : ConnectionId) : Option Endpoint :=
  bus.endpoints.find? fun e => e.id == id

def registration? (bus : MemoryBus) (object : String) : Option Registration :=
  bus.registrations.find? fun r => r.object.name == object

/-- The methods of an object, if it is registered. -/
def methods? (bus : MemoryBus) (object : String) : Option (List String) :=
  (bus.registration? object).map (·.object.methods)

/-- Whether a connection owns an object. -/
def owns (bus : MemoryBus) (id : ConnectionId) : Bool :=
  bus.registrations.any fun r => r.owner == id

/-! ## Changing -/

/-- Gives an answer to a caller. -/
def tell (bus : MemoryBus) (caller : Caller) (outcome : Outcome) : MemoryBus :=
  { bus with answers := bus.answers ++ [⟨caller, outcome⟩] }

/-- Fails the calls that meet a condition; the callers learn that the connection is closed. -/
def failCalls (bus : MemoryBus) (which : WaitingCall → Bool) : MemoryBus :=
  let failed := (bus.waiting.filter which).map fun c => Answer.mk c.caller (.failed .disconnected)
  { bus with
    waiting := bus.waiting.filter fun c => !which c
    answers := bus.answers ++ failed }

def setEndpoint (bus : MemoryBus) (e : Endpoint) : MemoryBus :=
  { bus with endpoints := bus.endpoints.map fun f => if f.id = e.id then e else f }

/-! ## The client's side -/

/-- Makes a connection. -/
def connect (bus : MemoryBus) : ConnectionId × MemoryBus :=
  let id := bus.connects + 1
  (id, { bus with connects := id, endpoints := bus.endpoints ++ [{ id }] })

/-- Tells the callers that wait for an object about it. -/
def tellWatchers (bus : MemoryBus) (object : ObjectSpec) : MemoryBus :=
  let (told, left) := bus.watchers.partition fun w => w.2 == object.name
  { bus with
    watchers := left
    answers := bus.answers ++ told.map fun w => Answer.mk w.1 (.registered object.methods) }

/-- Registers an object on a connection, which can do so once. An object of the same name is
replaced. -/
def addObject (bus : MemoryBus) (id : ConnectionId) (object : ObjectSpec) :
    Except BusError Unit × MemoryBus :=
  match bus.endpoint? id with
  | some e =>
    if e.registered then (.error .disconnected, bus)
    else
      let bus := bus.setEndpoint { e with registered := true }
      -- The connection that had the name before is not told; it finds out when it looks for calls.
      let others := bus.registrations.filter fun r => r.object.name != object.name
      let registrations := others ++ [Registration.mk object id]
      (.ok (), { bus with registrations }.tellWatchers object)
  | none => (.error .disconnected, bus)

/-- Takes the next call of a connection. A connection that has lost its object gets no more of
them. -/
def receive (bus : MemoryBus) (id : ConnectionId) : Received × MemoryBus :=
  match bus.endpoint? id with
  | some e =>
    match e.inbox with
    | r :: rest => (.call r, bus.setEndpoint { e with inbox := rest })
    -- The loss of the object shows only when the inbox is empty.
    | [] => (if e.registered && !bus.owns id then .closed else .pending, bus)
  | none => (.closed, bus)

/-- Answers the call with the reply's id, if it waits. -/
def reply (bus : MemoryBus) (r : Reply) : MemoryBus :=
  match bus.waiting.find? fun c => c.id == r.id with
  | some c =>
    { bus with waiting := bus.waiting.filter fun d => d.id != r.id }.tell c.caller (.replied r)
  | none => bus

/-- Drops a connection, with its object and the calls that wait for it. -/
def drop (bus : MemoryBus) (id : ConnectionId) : MemoryBus :=
  { bus with
    endpoints := bus.endpoints.filter fun e => e.id != id
    registrations := bus.registrations.filter fun r => r.owner != id }.failCalls
      fun c => c.owner == id

/-! ## The callers' side -/

/-- Calls a method. The bus itself rejects a call of an object that is not registered, and one of
a method that the object does not have. -/
def call (bus : MemoryBus) (caller : Caller) (object method : String) (data : Option Table) :
    MemoryBus :=
  match bus.registration? object with
  | none => bus.tell caller (.failed (.noSuchObject object))
  | some r =>
    let id := bus.nextId
    if r.object.hasMethod method then
      match bus.endpoint? r.owner with
      | none => bus.tell caller (.failed .disconnected)
      | some e =>
        let bus := bus.setEndpoint { e with inbox := e.inbox ++ [⟨id, object, method, data⟩] }
        -- Numbers wrap around: a call that still waits under this one is given up.
        let bus := bus.failCalls fun c => c.id == id
        { bus with nextId := id + 1, waiting := bus.waiting ++ [⟨id, r.owner, caller⟩] }
    else bus.tell caller (.replied ⟨id, .methodNotFound, none⟩)

/-- Waits until an object is registered. -/
def awaitObject (bus : MemoryBus) (caller : Caller) (object : String) : MemoryBus :=
  match bus.methods? object with
  | some methods => bus.tell caller (.registered methods)
  | none => { bus with watchers := bus.watchers ++ [(caller, object)] }

/-- Takes every object off the bus and fails every waiting call. -/
def disconnectAll (bus : MemoryBus) : MemoryBus :=
  { bus with registrations := [] }.failCalls fun _ => true

end MemoryBus
end ScriptService
