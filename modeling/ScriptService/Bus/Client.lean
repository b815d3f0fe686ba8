import ScriptService.Bus.Session
import ScriptService.Bus.Transport

/-!
# Bus clients

A session at work: a client lets its session make every move that its transport and the clock
allow, and keeps the trace of what it did. While the owner holds the link the session goes on;
a closed link gives it a while to write what is queued, after which it is ended by force.
-/

namespace ScriptService

/-- A session and the transport it works over. -/
structure Client where
  transport : Transport
  /-- The session, once an object is published. -/
  session : Option Session := none
  /-- When a session whose link is closed is ended by force. -/
  closing : Option Nat := none
  trace : List (Stamped SessionEvent) := []
  deriving Inhabited

namespace Client

/-- The next move of a session over a transport, if there is one. Replies go before calls, and a
closed link counts once its queue is empty. -/
def nextMove? (t : Transport) (now : Nat) (s : Session) : Option (Session.Move × Transport) :=
  match s.stage with
  | .connecting =>
    match t.connect with
    | (.ok c, t) => some (.connected c, t)
    | (.error _, t) => some (.connectFailed, t)
  | .registering c =>
    match t.addObject c s.object with
    | (.ok _, t) => some (.registered, t)
    | (.error e, t) => some (.registrationFailed e, t)
  | .serving c =>
    -- Replies go first, so a link that is closed loses none that was queued before.
    if !s.replies.isEmpty then some (.taken, t)
    else if !s.linked then some (.closed, t)
    else
      match t.receive c with
      | (.call r, t) => some (.received r, t)
      | (.failed e, t) => some (.receiveFailed e, t)
      | (.closed, t) => some (.hungUp, t)
      | (.pending, _) => none
  | .writing c r =>
    match t.write c r with
    | (.done, t) => some (.written, t)
    | (.failed e, t) => some (.writeFailed e, t)
    | (.stalled, t) => some (.writeStalled, t)
  | .stalled _ => none
  | .pausing deadline =>
    if deadline ≤ now then some (.resumed, t)
    else if !s.replies.isEmpty then some (.taken, t)
    else if !s.linked then some (.closed, t)
    else none
  | .ended => none

/-- Drops the connections that a session's events say it dropped. -/
def release (t : Transport) (events : List SessionEvent) : Transport :=
  events.foldl
    (fun t e =>
      match e with
      | .dropped c => t.drop c
      | _ => t) t

/-- Puts what a session did into the trace, and its effect on the transport. -/
def record (client : Client) (now : Nat) (events : List SessionEvent) (s : Session) : Client :=
  { client with
    session := some s
    transport := release client.transport events
    trace := client.trace ++ events.map fun e => Stamped.mk now e }

/-- Whether a session is at work. -/
def isActive (client : Client) : Bool :=
  match client.session with
  | some s => !s.isOver
  | none => false

/-! ## The owner's side -/

/-- Starts a session that keeps an object on the bus. -/
def publish (client : Client) (object : ObjectSpec) (retry : Nat) : Client :=
  { client with session := some { object, retry } }

/-- Queues a reply; whether a session takes it. -/
def reply (client : Client) (r : Reply) : Bool × Client :=
  match client.session with
  | some s =>
    let (taken, s) := s.reply r
    (taken, { client with session := some s })
  | none => (false, client)

/-- Ends the session at once. -/
def abort (client : Client) (now : Nat) : Client :=
  match client.session with
  | some s =>
    if s.isOver then client
    else
      let (events, s) := s.abort
      { client.record now events s with closing := none }
  | none => client

/-- Ends by force a session that took too long. -/
def abandon (client : Client) (now : Nat) : Client :=
  let trace := client.trace ++ [Stamped.mk now Session.overdue]
  { client with trace }.abort now

/-- Closes the link; the session has `grace` milliseconds to end. -/
def close (client : Client) (now grace : Nat) : Client :=
  match client.session with
  | some s =>
    if s.isOver then client
    -- Without a grace there is no time for a single write.
    else if grace = 0 then client.abandon now
    else { client with session := some s.unlink, closing := some (now + grace) }
  | none => client

/-- Makes a move on the far side of the bus; whether it was possible there. -/
def meet (client : Client) (m : BusMove) : Bool × Client :=
  let (possible, transport) := client.transport.move m
  (possible, { client with transport })

/-- Stops listening to events. -/
def ignore (client : Client) : Client := { client with session := client.session.map .ignore }

/-- Takes the next event for the owner. -/
def nextEvent (client : Client) : Option (BusEvent × Client) := do
  let (e, s) ← (← client.session).nextEvent
  return (e, { client with session := some s })

/-! ## Work -/

/-- One move of the session, or its end by force; nothing if it has to wait. -/
def step (client : Client) (now : Nat) : Option Client :=
  match client.session with
  | none => none
  | some s =>
    match nextMove? client.transport now s with
    | some (move, transport) =>
      let (events, s) := s.step now move
      some ({ client with transport }.record now events s)
    | none =>
      if !s.isOver && client.closing.any (· ≤ now) then some (client.abandon now) else none

/-- Lets the session work until it has to wait, for at most `fuel` moves. -/
def work (now : Nat) : Nat → Client → Client
  | 0, client => client
  | fuel + 1, client =>
    match client.step now with
    | some client => work now fuel client
    | none => client

/-- When the client has something to do next, unless something else happens before. -/
def nextDeadline (client : Client) : Option Nat :=
  match client.session with
  | none => none
  | some s =>
    match s.stage with
    | .ended => none
    | .pausing deadline => some (client.closing.elim deadline (min deadline))
    | _ => client.closing

/-- Lets the session work at every instant up to a time; `fuel` bounds the instants, and the moves
at each. -/
def elapse (target : Nat) : Nat → Nat → Client → Client
  | 0, _, client => client
  | fuel + 1, now, client =>
    let client := client.work now fuel
    match client.nextDeadline with
    | some time => if time ≤ target then elapse target fuel time client else client
    | none => client

end Client
end ScriptService
