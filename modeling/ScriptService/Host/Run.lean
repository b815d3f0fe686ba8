import ScriptService.Host.Loop

/-!
# Whole runs

A host and its session take turns until both have to wait; then the clock moves on to the next
moment at which one of them has something to do. A whole run takes a script from its file to an
exit status: it launches the host, runs the event loop, calls `stop`, and releases everything,
during which the session can still write the replies queued for it.

Scripts can keep a host busy forever, so every run has fuel: a bound on the turns at one instant
and on the instants.
-/

namespace ScriptService

namespace Host

/-! ## One instant -/

/-- Lets the session work until it has to wait. -/
def serve (fuel : Nat) (h : Host) : Host := { h with client := h.client.work h.now fuel }

/-- Lets the session and the event loop work until both have to wait or the loop is left. -/
def settle : Nat → Host → Host
  | 0, h => h
  | fuel + 1, h =>
    let h := h.serve fuel
    -- Once the loop is left, only the session goes on.
    if h.phase = .running then
      match h.turn with
      | (true, h) => settle fuel h
      | (false, h) => h
    else h

/-! ## The clock -/

/-- When the event loop or the session has something to do next, unless something else happens
before. -/
def nextDeadline (h : Host) : Option Nat :=
  let timer :=
    if h.phase = .running then (h.resources.timers.nextDeadline).map Int.toNat else none
  Option.merge min timer h.client.nextDeadline

/-- Moves the clock to a time. -/
def waitUntil (h : Host) (time : Nat) : Host := h.inWorld fun w => w.sleepUntil time

/-- Runs the event loop until it is left; a stop is requested at a time, after all that is due by
then. -/
def loopUntil (stopTime : Nat) : Nat → Host → Host
  | 0, h => h
  | fuel + 1, h =>
    let h := h.settle fuel
    if h.phase = .running then
      match h.nextDeadline with
      | some time =>
        if time ≤ stopTime then loopUntil stopTime fuel (h.waitUntil time)
        else (h.waitUntil stopTime).stop.settle fuel
      | none => (h.waitUntil stopTime).stop.settle fuel
    else h

/-- Publishes the service and runs the event loop until it is left; a stop is requested after
`duration` milliseconds. -/
def run (fuel duration : Nat) (h : Host) : Except HostError Unit × Host :=
  match h.enter with
  | (.error e, h) => (.error e, h)
  | (.ok _, h) => (.ok (), h.loopUntil (h.now + duration) fuel)

/-- Releases everything in order, for which the session may need until its grace is over. -/
def close (fuel : Nat) (h : Host) : Host :=
  if h.phase = .tornDown then h
  else
    let h := h.beginClose.serve fuel
    let h :=
      match h.canFinish, h.client.closing with
      | false, some time => (h.waitUntil time).serve fuel
      | _, _ => h
    h.finishRelease

end Host

/-! ## From the script's file to the exit status -/

/-- How far a run has come. -/
inductive HostRun.Stage where
  | launching (file : ScriptFile)
  | looping
  /-- The release waits for the session. -/
  | closing (status : Int)
  | finished (status : Int)
  deriving Inhabited

/-- A run of a host. -/
structure HostRun where
  host : Host
  stage : HostRun.Stage
  deriving Inhabited

namespace HostRun

/-- Begins to release everything; the run will end with a status. -/
def conclude (h : Host) (status : Int) : HostRun := ⟨h.beginClose, .closing status⟩

/-- Reports the error that ended the host. -/
def fail (h : Host) (e : HostError) : HostRun :=
  conclude (h.inWorld fun w => w.writeError e.report) e.exitStatus

/-- Takes a host from its script's file into the event loop. An error ends the run, and so does a
script that asks for it before the loop is entered. -/
def launch (h : Host) (file : ScriptFile) : HostRun :=
  match h.load file with
  | (.error e, h) => fail h e
  | (.ok _, h) =>
    match h.execute with
    | (.error e, h) => fail h e
    | (.ok (some status), h) => conclude h status.toInt
    | (.ok none, h) =>
      match h.start with
      | (.error e, h) => fail h e
      | (.ok (some status), h) => conclude h status.toInt
      | (.ok none, h) =>
        match h.enter with
        | (.error e, h) => fail h e
        | (.ok _, h) => ⟨h, .looping⟩

/-- Takes a run to its next stage; nothing if it has to wait or has ended. -/
def step (r : HostRun) : Option HostRun :=
  match r.stage with
  | .launching file => some (launch r.host file)
  | .looping =>
    if r.host.phase = .running then none
    else
      match r.host.shutdown with
      | (.ok status, h) => some (conclude h status.toInt)
      | (.error e, h) => some (fail h e)
  | .closing status =>
    if r.host.canFinish then some ⟨r.host.finishRelease, .finished status⟩ else none
  | .finished _ => none

/-- Lets a run go on until it has to wait or has ended. -/
def settle : Nat → HostRun → HostRun
  | 0, r => r
  | fuel + 1, r =>
    let r := { r with host := r.host.settle fuel }
    match r.step with
    | some r => settle fuel r
    | none => r

/-- Lets a run go on until a time. -/
def elapse (target : Nat) : Nat → HostRun → HostRun
  | 0, r => r
  | fuel + 1, r =>
    let r := r.settle fuel
    -- Ending children may have taken the clock past the target already.
    let arrive : HostRun := { r with host := r.host.waitUntil target }
    match r.host.nextDeadline with
    | some time =>
      if time ≤ target then elapse target fuel { r with host := r.host.waitUntil time } else arrive
    | none => arrive

/-- The exit status, once it is known. -/
def status? (r : HostRun) : Option Int :=
  match r.stage with
  | .closing status => some status
  | .finished status => some status
  | _ => none

def isFinished (r : HostRun) : Bool :=
  match r.stage with
  | .finished _ => true
  | _ => false

end HostRun
end ScriptService
