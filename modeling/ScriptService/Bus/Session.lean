import ScriptService.Bus.Connection
import ScriptService.Trace

/-!
# Bus sessions

A session keeps one object on the bus: it connects, registers the object, hands the calls that
arrive to the object's owner and writes the owner's replies, and when the connection is lost it
waits and starts over. Calls get numbers of the session's own, and a reply is written only to the
connection that its call came from.

A session is a state and a `step` for each move that a transport, the clock or the session's own
queue can make. What it does is the list of events of its steps.
-/

namespace ScriptService

namespace Session

/-- Where a session stands. -/
inductive Stage where
  | connecting
  | registering (c : ConnectionId)
  | serving (c : ConnectionId)
  /-- A reply is on its way out. -/
  | writing (c : ConnectionId) (reply : Reply)
  /-- A reply is on its way out and will not arrive. -/
  | stalled (c : ConnectionId)
  /-- The session waits before it connects again. -/
  | pausing (deadline : Nat)
  | ended
  deriving Inhabited

/-- The connection that a session holds. -/
def Stage.connection? : Stage → Option ConnectionId
  | .registering c => some c
  | .serving c => some c
  | .writing c _ => some c
  | .stalled c => some c
  | _ => none

/-- What can happen to a session. -/
inductive Move where
  | connected (c : ConnectionId)
  | connectFailed
  | registered
  | registrationFailed (e : BusError)
  | received (r : Request)
  | receiveFailed (e : BusError)
  | hungUp
  /-- The next queued reply is taken. -/
  | taken
  | written
  | writeFailed (e : BusError)
  | writeStalled
  /-- The pause is over. -/
  | resumed
  /-- The link is closed and every queued reply was taken. -/
  | closed
  deriving Inhabited

end Session

/-- A session. -/
structure Session where
  object : ObjectSpec
  /-- How long to wait before connecting again, in milliseconds. -/
  retry : Nat
  stage : Session.Stage := .connecting
  nextId : RequestId := 0
  /-- The calls of the connection that are not answered: the session's id and the bus's. -/
  inFlight : List (RequestId × RequestId) := []
  /-- The replies queued by the owner. -/
  replies : List Reply := []
  /-- Whether the owner holds the link, by which replies are queued. -/
  linked : Bool := true
  /-- What the owner is to be told. -/
  events : List BusEvent := []
  /-- Whether the owner listens to events. -/
  heard : Bool := true
  deriving Inhabited

namespace Session

def isOver (s : Session) : Bool :=
  match s.stage with
  | .ended => true
  | _ => false

/-! ## Events -/

def diagnostic (level : Level) (message : String) (details : List (String × String)) :
    SessionEvent :=
  .diagnostic ⟨level, message, details⟩

def objectDetail (s : Session) : String × String := ("object", s.object.name)

def errorDetail (e : BusError) : String × String := ("error", e.message)

/-! ## Steps -/

/-- Waits before the next attempt. -/
def pause (s : Session) (now : Nat) : Session := { s with stage := .pausing (now + s.retry) }

/-- Ends while a connection is held, which is dropped. -/
def finish (s : Session) (c : ConnectionId) : List SessionEvent × Session :=
  ([.dropped c], { s with stage := .ended, inFlight := [] })

/-- Loses the connection: its calls can no longer be answered. The owner is told; a session that
nobody listens to ends. -/
def lose (s : Session) (now : Nat) (c : ConnectionId) : List SessionEvent × Session :=
  let lost := diagnostic .info "Lost bus connection" [s.objectDetail]
  let s := { s with inFlight := [] }
  ([lost, .dropped c],
    if s.heard then { s.pause now with events := s.events ++ [.disconnected] }
    else { s with stage := .ended })

/-- Hands a call to the owner under a number of the session's own. -/
def forward (s : Session) (r : Request) : Session :=
  let id := s.nextId
  { s with
    nextId := id + 1
    inFlight := (id, r.id) :: s.inFlight.filter fun p => p.1 != id
    events := s.events ++ [.call { r with id }] }

/-- Takes the next queued reply, which is written if its call is not answered yet. -/
def take (s : Session) (c : ConnectionId) : Session :=
  match s.replies with
  | [] => s
  | r :: rest =>
    let s := { s with replies := rest }
    -- Session numbers are looked up, and the reply goes out under the number of the bus.
    match List.lookup r.id s.inFlight with
    | some id =>
      { s with
        inFlight := s.inFlight.filter fun p => p.1 != r.id
        stage := .writing c { r with id } }
    | none => s

/-- One step. A move that does not fit where the session stands changes nothing. -/
def step (s : Session) (now : Nat) (move : Move) : List SessionEvent × Session :=
  match s.stage, move with
  | .connecting, .connected c => ([.connect (some c)], { s with stage := .registering c })
  | .connecting, .connectFailed => ([.connect none], s.pause now)
  | .registering c, .registered =>
    let events := [.addObject c s.object, diagnostic .info "Connected to bus" [s.objectDetail]]
    -- A session that nobody listens to ends as soon as it finds out.
    if s.heard then
      (events, { s with stage := .serving c, events := s.events ++ [.connected] })
    else
      let (more, s) := s.finish c
      (events ++ more, s)
  | .registering c, .registrationFailed e =>
    ([.addObject c s.object,
      diagnostic .warn "Failed to register object" [s.objectDetail, errorDetail e], .dropped c],
      s.pause now)
  | .serving c, .received r => if s.heard then ([], s.forward r) else s.finish c
  | .serving c, .receiveFailed e =>
    let (events, s) := s.lose now c
    (diagnostic .warn "Bus receive failed" [errorDetail e] :: events, s)
  | .serving c, .hungUp => s.lose now c
  | .serving c, .taken => ([], s.take c)
  | .serving c, .closed => s.finish c
  | .writing c r, .written => ([.written c r], { s with stage := .serving c })
  | .writing c _, .writeFailed e =>
    let (events, s) := s.lose now c
    (diagnostic .warn "Failed to send reply" [errorDetail e] :: events, s)
  | .writing c _, .writeStalled => ([], { s with stage := .stalled c })
  | .pausing _, .taken => ([], { s with replies := s.replies.tail })
  | .pausing _, .resumed => ([], { s with stage := .connecting })
  | .pausing _, .closed => ([], { s with stage := .ended })
  | _, _ => ([], s)

/-! ## The owner's side -/

/-- Queues a reply; whether the session takes it. -/
def reply (s : Session) (r : Reply) : Bool × Session :=
  if s.isOver then (false, s) else (true, { s with replies := s.replies ++ [r] })

/-- Closes the link: the session ends when it has written what is queued. -/
def unlink (s : Session) : Session := { s with linked := false }

/-- Stops listening to events. -/
def ignore (s : Session) : Session := { s with heard := false, events := [] }

/-- Ends the session at once. -/
def abort (s : Session) : List SessionEvent × Session :=
  -- What the owner was to be told stays; what is queued is lost.
  let ended := { s with stage := .ended, linked := false, replies := [], inFlight := [] }
  match s.stage.connection? with
  | some c => ([.dropped c], ended)
  | none => ([], ended)

/-- What is said of a session that did not end in time. -/
def overdue : SessionEvent :=
  diagnostic .warn "Bus session did not finish in time, aborting" []

/-- Takes the next event for the owner. -/
def nextEvent (s : Session) : Option (BusEvent × Session) :=
  match s.events with
  | e :: rest => some (e, { s with events := rest })
  | [] => none

end Session
end ScriptService
