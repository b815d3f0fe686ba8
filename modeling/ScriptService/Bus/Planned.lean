import ScriptService.Bus.Connection

/-!
# A bus that follows a plan

A bus whose moves are made from outside. A plan says how each attempt to connect goes; calls,
errors and hang-ups are then fed to the connections one by one, and writing replies can be made to
fail or to stall. It shows a client every fault a bus can have.
-/

namespace ScriptService

/-- How an attempt to connect goes. -/
inductive ConnectPlan where
  | accept
  /-- The connection is made, but it takes no object. -/
  | refuse
  | fail
  deriving DecidableEq, Inhabited

/-- How writing replies goes. -/
inductive WritePlan where
  | take
  | fail
  | stall
  deriving DecidableEq, Inhabited

/-- A connection as the bus sees it. -/
structure PlannedConnection where
  /-- Whether the connection takes an object. -/
  accepts : Bool
  /-- The calls and errors for the client, in order. -/
  inbox : List (Except BusError Request) := []
  /-- Whether the bus has hung up. -/
  hungUp : Bool := false
  /-- Whether the client has dropped the connection. -/
  dropped : Bool := false
  writes : WritePlan := .take
  deriving Inhabited

/-- A bus that follows a plan; when it is used up, attempts to connect succeed. -/
structure PlannedBus where
  plan : List ConnectPlan := []
  /-- The connections made, numbered from 0. -/
  connections : List PlannedConnection := []
  deriving Inhabited

namespace PlannedBus

def get? (bus : PlannedBus) (id : ConnectionId) : Option PlannedConnection := bus.connections[id]?

/-- Changes a connection. -/
def modify (bus : PlannedBus) (id : ConnectionId)
    (f : PlannedConnection → PlannedConnection) : PlannedBus :=
  { bus with connections := bus.connections.modify id f }

/-! ## The client's side -/

/-- Attempts to connect. -/
def connect (bus : PlannedBus) : Except BusError ConnectionId × PlannedBus :=
  let made (accepts : Bool) : Except BusError ConnectionId × PlannedBus :=
    (.ok bus.connections.length,
      { plan := bus.plan.tail, connections := bus.connections ++ [{ accepts }] })
  match bus.plan.head?.getD .accept with
  | .accept => made true
  | .refuse => made false
  | .fail => (.error .disconnected, { bus with plan := bus.plan.tail })

/-- Registers an object, if the connection takes one. -/
def addObject (bus : PlannedBus) (id : ConnectionId) (object : ObjectSpec) :
    Except BusError Unit :=
  match bus.get? id with
  | some c => if c.accepts then .ok () else .error (.noSuchObject object.name)
  | none => .error .disconnected

/-- Takes the next call or error of a connection. -/
def receive (bus : PlannedBus) (id : ConnectionId) : Received × PlannedBus :=
  match bus.get? id with
  | some c =>
    match c.inbox with
    | next :: rest =>
      let bus := bus.modify id fun c => { c with inbox := rest }
      match next with
      | .ok r => (.call r, bus)
      | .error e => (.failed e, bus)
    | [] => (if c.hungUp then .closed else .pending, bus)
  | none => (.closed, bus)

/-- Writes a reply. -/
def write (bus : PlannedBus) (id : ConnectionId) : Written :=
  match bus.get? id with
  | some c =>
    match c.writes with
    | .take => .done
    | .fail => .failed .disconnected
    | .stall => .stalled
  | none => .failed .disconnected

/-- Drops a connection. -/
def drop (bus : PlannedBus) (id : ConnectionId) : PlannedBus :=
  bus.modify id fun c => { c with dropped := true }

/-! ## The moves of the bus -/

/-- Feeds a call or an error to a connection that can still carry it. -/
def feed (bus : PlannedBus) (id : ConnectionId) (item : Except BusError Request) :
    Bool × PlannedBus :=
  match bus.get? id with
  | some c =>
    if c.hungUp || c.dropped then (false, bus)
    else (true, bus.modify id fun c => { c with inbox := c.inbox ++ [item] })
  | none => (false, bus)

/-- Hangs up, which a connection does once. -/
def hangUp (bus : PlannedBus) (id : ConnectionId) : Bool × PlannedBus :=
  match bus.get? id with
  | some c =>
    if c.hungUp then (false, bus) else (true, bus.modify id fun c => { c with hungUp := true })
  | none => (false, bus)

/-- Says how writing replies goes from now on. -/
def planWrites (bus : PlannedBus) (id : ConnectionId) (writes : WritePlan) : Bool × PlannedBus :=
  match bus.get? id with
  | some _ => (true, bus.modify id fun c => { c with writes })
  | none => (false, bus)

end PlannedBus
end ScriptService
