import ScriptService.Host.Basic

/-!
# The event loop

The loop hands events to the script one at a time: ends of children that were collected, then
timers that are due, then what it finds by looking for signals and bus events. A request to stop
is seen before every event, so nothing is dispatched after it.
-/

namespace ScriptService

/-- An event to dispatch. -/
inductive LoopEvent where
  | childEnded (pid status : Int)
  | timer (id : Nat)
  | bus (e : BusEvent)
  deriving Inhabited

/-- What the loop does next. -/
inductive LoopTurn where
  | dispatch (e : LoopEvent)
  /-- It has collected the ends of children and looks again. -/
  | lookAgain
  | leave
  /-- There is nothing to do yet. -/
  | wait
  deriving Inhabited

namespace Host

/-! ## Finding the next event -/

/-- Collects the ends of children. -/
def collectEnds (h : Host) : Host :=
  let (ends, world) := ChildList.reap h.resources.children h.world
  let h := h.inWorld fun _ => world
  { h with loop := { h.loop with ready := h.loop.ready ++ ends } }

/-- Starts to listen; children that ended earlier are collected. -/
def listen (h : Host) : Host :=
  if h.loop.started then h
  else { h with loop := { h.loop with started := true } }.collectEnds

/-- Looks for signals and bus events when nothing is ready. -/
def look (h : Host) : LoopTurn × Host :=
  if h.loop.terminationSignal then
    (.leave, (h.inWorld fun w => w.info "Termination signal received" []).stop)
  else if h.world.kernel.childSignal then
    -- The ends that are collected come before timers and bus events.
    let h := h.inWorld fun w => { w with kernel := { w.kernel with childSignal := false } }
    (.lookAgain, h.collectEnds)
  else if h.loop.attached then
    match h.client.nextEvent with
    | some (e, client) => (.dispatch (.bus e), { h with client })
    | none => (.wait, h)
  else (.wait, h)

/-- What the loop does next. -/
def nextTurn (h : Host) : LoopTurn × Host :=
  let h := h.listen
  -- Nothing is dispatched once a stop is requested, whatever is ready.
  if h.resources.stopping then (.leave, h)
  else
    match h.loop.ready with
    | (pid, status) :: ready =>
      (.dispatch (.childEnded pid status), { h with loop := { h.loop with ready } })
    | [] =>
      let (due, timers) := h.resources.timers.popExpired h.now
      let h := h.withResources fun r => { r with timers }
      match due with
      | some id => (.dispatch (.timer id), h)
      | none => h.look

/-! ## Dispatching -/

/-- Takes note of a failed callback; only a request to end the host stops the loop. -/
def report (h : Host) (site : String) : ScriptError → Host
  | .exit code => h.withResources fun r => r.requestExit code
  | e => h.inWorld fun w => w.error ("Unhandled exception in " ++ site) [("error", e.message)]

/-- Calls the function of a timer, which lives on if the function returns the next delay. -/
def fireTimer (h : Host) (id : Nat) : Host :=
  match h.resources.timers.get? id with
  | none => h
  | some t =>
    let unlink (h : Host) : Host :=
      h.withResources fun r => { r with timers := (r.timers.remove id).2 }
    -- The entry stays linked while its function runs.
    match h.call t.callback t.attached.toList [] with
    | (.ok v, h) =>
      match v.int? with
      | some delay =>
        h.withResources fun r => { r with timers := (r.timers.rearm r.now id delay.toInt).2 }
      | none => unlink h
    | (.error e, h) => (unlink h).report "timer callback" e

/-- Calls the function of a child that ended; its entry is unlinked before. -/
def childEnded (h : Host) (pid status : Int) : Host :=
  match ChildList.take h.resources.children pid with
  | (none, _) => h
  | (some c, children) =>
    let h := h.withResources fun r => { r with children }
    -- What the entry held lives on until the function returns.
    match h.call c.callback (.int (.ofInt status) :: c.attached.toList) c.held with
    | (.ok _, h) => h
    | (.error e, h) => h.report "process callback" e

/-- Calls the connect hook of the service, if there is one. -/
def connected (h : Host) : Host :=
  match h.resources.service.bind (·.connect) with
  | none => h
  | some hook =>
    match h.call hook [] [] with
    | (.ok _, h) => h
    | (.error e, h) => h.report "connect hook" e

/-- Answers a call. -/
def answerCall (h : Host) (r : Request) : Host :=
  match h.resources.service with
  | none => h
  | some d =>
    let (dispatch, machine) := Dispatch.answer Resources.natives d r h.machine
    -- The reply is queued whether or not the method failed; an exit counts afterwards.
    let (sent, client) := h.client.reply ⟨r.id, dispatch.status, dispatch.reply⟩
    let h := { h with machine, client }
    let h := if sent then h else
      h.inWorld fun w => w.warn "Bus session gone, reply dropped" [("id", toString r.id.toNat)]
    match dispatch.error with
    | some e => h.report "bus method" e
    | none => h

/-- Dispatches an event to the script. -/
def dispatch (h : Host) : LoopEvent → Host
  | .timer id => h.fireTimer id
  | .childEnded pid status => h.childEnded pid status
  | .bus .connected => h.connected
  | .bus .disconnected => h.inWorld fun w => w.info "Bus connection lost, reconnecting" []
  | .bus (.call r) => h.answerCall r

/-- One turn of the loop: whether there was something to do, and the host after it. -/
def turn (h : Host) : Bool × Host :=
  match h.nextTurn with
  | (.dispatch e, h) => (true, h.dispatch e)
  | (.lookAgain, h) => (true, h)
  | (.leave, h) => (true, h.leave)
  | (.wait, h) => (false, h)

end Host
end ScriptService
