import ScriptService.Bus.Memory
import ScriptService.Bus.Planned
import ScriptService.World.SystemError

/-!
# Transports

A transport knows how to reach a bus. Every kind of bus offers a client the same five things: to
connect, to register an object, to take a call, to write a reply, and to drop the connection.
Behind a bus there are others, whose moves a client sees only by their effects.
-/

namespace ScriptService

/-- A way to reach a bus. -/
inductive Transport where
  | memory (bus : MemoryBus)
  | planned (bus : PlannedBus)
  /-- A socket that is not there. -/
  | missing
  deriving Inhabited

namespace Transport

def connect : Transport → Except BusError ConnectionId × Transport
  | memory bus =>
    let (c, bus) := bus.connect
    (.ok c, memory bus)
  | planned bus =>
    let (result, bus) := bus.connect
    (result, planned bus)
  | missing => (.error (.io SystemError.noEntry.fileMessage), missing)

def addObject (t : Transport) (c : ConnectionId) (object : ObjectSpec) :
    Except BusError Unit × Transport :=
  match t with
  | memory bus =>
    let (result, bus) := bus.addObject c object
    (result, memory bus)
  | planned bus => (bus.addObject c object, t)
  | missing => (.error .disconnected, t)

def receive (t : Transport) (c : ConnectionId) : Received × Transport :=
  match t with
  | memory bus =>
    let (r, bus) := bus.receive c
    (r, memory bus)
  | planned bus =>
    let (r, bus) := bus.receive c
    (r, planned bus)
  | missing => (.closed, t)

def write (t : Transport) (c : ConnectionId) (r : Reply) : Written × Transport :=
  match t with
  | memory bus => (.done, memory (bus.reply r))
  | planned bus => (bus.write c, t)
  | missing => (.failed .disconnected, t)

def drop (t : Transport) (c : ConnectionId) : Transport :=
  match t with
  | memory bus => memory (bus.drop c)
  | planned bus => planned (bus.drop c)
  | missing => t

end Transport

/-- A move on the far side of a bus. -/
inductive BusMove where
  /-- A caller calls a method on the in-process bus. -/
  | call (caller : Caller) (object method : String) (data : Option Table)
  /-- The in-process bus disconnects everybody. -/
  | disconnectAll
  /-- The planned bus sends a call or an error. -/
  | feed (c : ConnectionId) (item : Except BusError Request)
  | hangUp (c : ConnectionId)
  | planWrites (c : ConnectionId) (writes : WritePlan)
  deriving Inhabited

/-- Makes a move on the far side of a bus; whether it was possible there. -/
def Transport.move (t : Transport) (m : BusMove) : Bool × Transport :=
  let onPlanned (k : PlannedBus → Bool × PlannedBus) : Bool × Transport :=
    match t with
    | planned bus =>
      let (possible, bus) := k bus
      (possible, planned bus)
    | _ => (false, t)
  match t, m with
  | memory bus, .call caller object method data =>
    (true, memory (bus.call caller object method data))
  | memory bus, .disconnectAll => (true, memory bus.disconnectAll)
  | _, .feed c item => onPlanned fun bus => bus.feed c item
  | _, .hangUp c => onPlanned fun bus => bus.hangUp c
  | _, .planWrites c writes => onPlanned fun bus => bus.planWrites c writes
  | _, _ => (false, t)

end ScriptService
