import ScriptService.Host.Loop

/-!
# What the event loop can do

Inversion of a turn of the event loop, once for all: what the loop finds to do next, and what each
kind of event makes of the host.

Main statements: `Host.turns`, `Host.looks`, `Host.fires`, `Host.ends`, `Host.hooks` and
`Host.answers`.
-/

namespace ScriptService.Host

/-! ## Finding the next event -/

/-- What the loop finds by looking for signals and bus events. -/
inductive Looks (h : Host) : LoopTurn → Host → Prop where
  | terminated (hsignal : h.loop.terminationSignal = true) :
      Looks h .leave (h.inWorld fun w => w.info "Termination signal received" []).stop
  | collected (hsignal : h.world.kernel.childSignal = true) :
      Looks h .lookAgain
        (h.inWorld fun w => { w with kernel := { w.kernel with childSignal := false } }).collectEnds
  | heard (e : BusEvent) (client : Client) (hattached : h.loop.attached = true)
      (hnext : h.client.nextEvent = some (e, client)) :
      Looks h (.dispatch (.bus e)) { h with client }
  | idle : Looks h .wait h

theorem looks (h : Host) : Looks h h.look.1 h.look.2 := by
  unfold look
  by_cases hterm : h.loop.terminationSignal = true
  · rw [if_pos hterm]
    exact .terminated hterm
  · rw [if_neg hterm]
    by_cases hchild : h.world.kernel.childSignal = true
    · rw [if_pos hchild]
      exact .collected hchild
    · rw [if_neg hchild]
      by_cases hattached : h.loop.attached = true
      · rw [if_pos hattached]
        cases hnext : h.client.nextEvent with
        | none => exact .idle
        | some p => exact .heard p.1 p.2 hattached hnext
      · rw [if_neg hattached]
        exact .idle

/-- What the loop does next, once it listens. -/
inductive Turns (h : Host) : LoopTurn → Host → Prop where
  | stopped (hstop : h.resources.stopping = true) : Turns h .leave h
  | ended (pid status : Int) (ready : List (Int × Int)) (hstop : h.resources.stopping = false)
      (hready : h.loop.ready = (pid, status) :: ready) :
      Turns h (.dispatch (.childEnded pid status)) { h with loop := { h.loop with ready } }
  | due (id : Nat) (timers : TimerList) (hstop : h.resources.stopping = false)
      (hready : h.loop.ready = [])
      (hdue : h.resources.timers.popExpired h.now = (some id, timers)) :
      Turns h (.dispatch (.timer id)) (h.withResources fun r => { r with timers })
  | looked (timers : TimerList) (turn : LoopTurn) (next : Host)
      (hstop : h.resources.stopping = false) (hready : h.loop.ready = [])
      (hdue : h.resources.timers.popExpired h.now = (none, timers))
      (hlook : Looks (h.withResources fun r => { r with timers }) turn next) : Turns h turn next

theorem turns (h : Host) : Turns h.listen h.nextTurn.1 h.nextTurn.2 := by
  unfold nextTurn
  by_cases hstop : h.listen.resources.stopping = true
  · simp only [hstop, if_true]
    exact .stopped hstop
  · have hgoing : h.listen.resources.stopping = false := by simpa using hstop
    simp only [hgoing, Bool.false_eq_true, if_false]
    cases hready : h.listen.loop.ready with
    | cons p ready => exact .ended p.1 p.2 ready hgoing hready
    | nil =>
      rcases hdue : h.listen.resources.timers.popExpired h.listen.now with ⟨due, timers⟩
      cases due with
      | some id =>
        simp only
        exact .due id timers hgoing hready hdue
      | none =>
        simp only
        exact .looked timers _ _ hgoing hready hdue (looks _)

/-! ## Events -/

/-- Unlinks a timer. -/
def unlink (h : Host) (id : Nat) : Host :=
  h.withResources fun r => { r with timers := (r.timers.remove id).2 }

/-- Gives a timer its next delay. -/
def rearm (h : Host) (id : Nat) (delay : Int) : Host :=
  h.withResources fun r => { r with timers := (r.timers.rearm r.now id delay).2 }

/-- What a timer that is due makes of the host. -/
inductive Fires (h : Host) (id : Nat) : Host → Prop where
  | unlinked (hget : h.resources.timers.get? id = none) : Fires h id h
  | rearmed (t : Timer) (v : Value) (delay : Int64) (next : Host)
      (hget : h.resources.timers.get? id = some t)
      (hcall : h.call t.callback t.attached.toList [] = (.ok v, next))
      (hint : v.int? = some delay) : Fires h id (next.rearm id delay.toInt)
  | finished (t : Timer) (v : Value) (next : Host)
      (hget : h.resources.timers.get? id = some t)
      (hcall : h.call t.callback t.attached.toList [] = (.ok v, next))
      (hint : v.int? = none) : Fires h id (next.unlink id)
  | failed (t : Timer) (e : ScriptError) (next : Host)
      (hget : h.resources.timers.get? id = some t)
      (hcall : h.call t.callback t.attached.toList [] = (.error e, next)) :
      Fires h id ((next.unlink id).report "timer callback" e)

theorem fires (h : Host) (id : Nat) : Fires h id (h.fireTimer id) := by
  unfold fireTimer
  cases hget : h.resources.timers.get? id with
  | none => exact .unlinked hget
  | some t =>
    rcases hcall : h.call t.callback t.attached.toList [] with ⟨result, next⟩
    cases result with
    | ok v =>
      cases hint : v.int? with
      | none =>
        simp only [hcall, hint]
        exact .finished t v next hget hcall hint
      | some delay =>
        simp only [hcall, hint]
        exact .rearmed t v delay next hget hcall hint
    | error e =>
      simp only [hcall]
      exact .failed t e next hget hcall

/-- What a callback that gives nothing back makes of the host. -/
inductive Calls (h : Host) (site : String) (f : Callback) (args held : List Value) :
    Host → Prop where
  | returned (v : Value) (next : Host) (hcall : h.call f args held = (.ok v, next)) :
      Calls h site f args held next
  | failed (e : ScriptError) (next : Host) (hcall : h.call f args held = (.error e, next)) :
      Calls h site f args held (next.report site e)

/-- What the end of a child makes of the host. -/
inductive Ends (h : Host) (pid status : Int) : Host → Prop where
  | unknown : Ends h pid status h
  | known (c : Child) (children : ChildList) (next : Host)
      (htake : ChildList.take h.resources.children pid = (some c, children))
      (hcalls : Calls (h.withResources fun r => { r with children }) "process callback" c.callback
        (.int (.ofInt status) :: c.attached.toList) c.held next) :
      Ends h pid status next

theorem ends (h : Host) (pid status : Int) : Ends h pid status (h.childEnded pid status) := by
  unfold childEnded
  rcases htake : ChildList.take h.resources.children pid with ⟨c, children⟩
  cases c with
  | none => exact .unknown
  | some c =>
    simp only
    rcases hcall : (h.withResources fun r => { r with children }).call c.callback
      (.int (.ofInt status) :: c.attached.toList) c.held with ⟨result, next⟩
    cases result with
    | ok v => exact .known c children next htake (.returned v next hcall)
    | error e => exact .known c children _ htake (.failed e next hcall)

/-- What a new connection makes of the host. -/
inductive Hooks (h : Host) : Host → Prop where
  | none (hhook : h.resources.service.bind (·.connect) = .none) : Hooks h h
  | hook (f : Callback) (next : Host) (hhook : h.resources.service.bind (·.connect) = some f)
      (hcalls : Calls h "connect hook" f [] [] next) : Hooks h next

theorem hooks (h : Host) : Hooks h h.connected := by
  unfold connected
  cases hhook : h.resources.service.bind (·.connect) with
  | none => exact .none hhook
  | some f =>
    rcases hcall : h.call f [] [] with ⟨result, next⟩
    cases result with
    | ok v =>
      simp only [hcall]
      exact .hook f next hhook (.returned v next hcall)
    | error e =>
      simp only [hcall]
      exact .hook f _ hhook (.failed e next hcall)

/-- Takes note of a reply that no session took. -/
def noteSent (h : Host) (sent : Bool) (id : RequestId) : Host :=
  if sent then h
  else h.inWorld fun w => w.warn "Bus session gone, reply dropped" [("id", toString id.toNat)]

/-- What a call makes of the host. -/
inductive Answers (h : Host) (r : Request) : Host → Prop where
  | unserved (hservice : h.resources.service = none) : Answers h r h
  | served (d : ServiceDeclaration) (dispatch : Dispatch) (machine : Machine Resources)
      (sent : Bool) (client : Client) (hservice : h.resources.service = some d)
      (hanswer : Dispatch.answer Resources.natives d r h.machine = (dispatch, machine))
      (hreply : h.client.reply ⟨r.id, dispatch.status, dispatch.reply⟩ = (sent, client)) :
      Answers h r (dispatch.error.elim (noteSent { h with machine, client } sent r.id)
        ((noteSent { h with machine, client } sent r.id).report "bus method"))

theorem answers (h : Host) (r : Request) : Answers h r (h.answerCall r) := by
  unfold answerCall
  cases hservice : h.resources.service with
  | none => exact .unserved hservice
  | some d =>
    rcases hanswer : Dispatch.answer Resources.natives d r h.machine with ⟨dispatch, machine⟩
    rcases hreply : h.client.reply ⟨r.id, dispatch.status, dispatch.reply⟩ with ⟨sent, client⟩
    have hserved := Answers.served d dispatch machine sent client hservice hanswer hreply
    simp only [hanswer, hreply]
    cases herror : dispatch.error with
    | none =>
      rw [herror] at hserved
      exact hserved
    | some e =>
      rw [herror] at hserved
      exact hserved

/-! ## Turns -/

/-- Does what the loop found to do. -/
def carryOut (h : Host) : LoopTurn → Host
  | .dispatch e => h.dispatch e
  | .lookAgain => h
  | .leave => h.leave
  | .wait => h

theorem turn_eq (h : Host) : h.turn.2 = h.nextTurn.2.carryOut h.nextTurn.1 := by
  unfold turn
  rcases h.nextTurn with ⟨turn, g⟩
  cases turn with
  | _ => rfl

end ScriptService.Host
