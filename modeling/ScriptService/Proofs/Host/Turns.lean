import ScriptService.Proofs.Host.Course
import ScriptService.Proofs.Timers.Kept
import ScriptService.Proofs.World.Clock

/-!
# What a turn does

A turn of the event loop does one of a few things with its notes: it runs one part and deals with
the end of it, it leaves the loop, or it does nothing that timers, requests to stop or the exit
status depend on.

Main statements: `Host.dispatches` and `Host.takes`.
-/

namespace ScriptService

namespace Host

open HostRun (Note)

/-! ## Hosts that do not differ in what matters -/

/-- Two hosts with the same timers, but for stale deadlines in the queue, at the same time, in the
same phase, with the same wish to stop and the same script. -/
structure Alike (g h : Host) : Prop where
  timers : g.resources.timers = h.resources.timers ∨
    g.resources.timers = h.resources.timers.settle
  now : g.now = h.now
  stopping : g.resources.stopping = h.resources.stopping
  exitCode : g.resources.exitCode = h.resources.exitCode
  signal : g.loop.terminationSignal = h.loop.terminationSignal
  phase : g.phase = h.phase
  crashed : g.crashed = h.crashed
  script : g.script = h.script

theorem Alike.refl (h : Host) : h.Alike h := ⟨Or.inl rfl, rfl, rfl, rfl, rfl, rfl, rfl, rfl⟩

theorem Alike.trans {k g h : Host} (hkg : k.Alike g) (hgh : g.Alike h) : k.Alike h where
  timers := by
    rcases hkg.timers with hk | hk
    · rcases hgh.timers with hg | hg
      · exact Or.inl (hk.trans hg)
      · exact Or.inr (hk.trans hg)
    · rcases hgh.timers with hg | hg
      · exact Or.inr (by rw [hk, hg])
      · exact Or.inr (by rw [hk, hg, TimerList.settle_settle])
  now := hkg.now.trans hgh.now
  stopping := hkg.stopping.trans hgh.stopping
  exitCode := hkg.exitCode.trans hgh.exitCode
  signal := hkg.signal.trans hgh.signal
  phase := hkg.phase.trans hgh.phase
  crashed := hkg.crashed.trans hgh.crashed
  script := hkg.script.trans hgh.script

/-- The host with another list of timers. -/
def withTimers (h : Host) (timers : TimerList) : Host := h.withResources fun r => { r with timers }

theorem Alike.withTimers {g h : Host} (halike : g.Alike h) (timers : TimerList) :
    (g.withTimers timers).Alike (h.withTimers timers) :=
  ⟨Or.inl rfl, halike.now, halike.stopping, halike.exitCode, halike.signal, halike.phase,
    halike.crashed, halike.script⟩

theorem Alike.withPhase {g h : Host} (halike : g.Alike h) (phase : Phase) :
    Alike { g with phase } { h with phase } :=
  ⟨halike.timers, halike.now, halike.stopping, halike.exitCode, halike.signal, rfl,
    halike.crashed, halike.script⟩

/-- What takes no time in the world does not matter. -/
theorem alike_inWorld (h : Host) (f : World → World) (hclock : ∀ w, (f w).clock = w.clock) :
    (h.inWorld f).Alike h :=
  ⟨Or.inl rfl, hclock _, rfl, rfl, rfl, rfl, rfl, rfl⟩

theorem writeError_alike (h : Host) (text : String) :
    (h.inWorld fun w => w.writeError text).Alike h :=
  alike_inWorld h _ fun _ => rfl

theorem collectEnds_alike (h : Host) : h.collectEnds.Alike h :=
  ⟨Or.inl rfl, ChildList.clock_reap _ _, rfl, rfl, rfl, rfl, rfl, rfl⟩

theorem listen_alike (h : Host) : h.listen.Alike h := by
  unfold listen
  split
  · exact Alike.refl h
  · exact (collectEnds_alike _).trans ⟨Or.inl rfl, rfl, rfl, rfl, rfl, rfl, rfl, rfl⟩

theorem listen_timers (h : Host) : h.listen.resources.timers = h.resources.timers := by
  unfold listen
  split
  · rfl
  · rfl

theorem activateLog_alike (h : Host) : h.activateLog.Alike h := by
  unfold activateLog
  split
  · exact Alike.refl h
  · split
    · exact ⟨Or.inl rfl, Logger.clock_replace _ _ _, rfl, rfl, rfl, rfl, rfl, rfl⟩
    · exact alike_inWorld h _ fun w => rfl

theorem activateService_alike (h : Host) : h.activateService.Alike h := by
  have hpublishes := h.publishes
  generalize h.activateService = active at hpublishes
  cases hpublishes with
  | none => exact Alike.refl h
  | ignored e => exact alike_inWorld h _ fun w => rfl
  | published d w hworld => exact ⟨Or.inl rfl, hworld, rfl, rfl, rfl, rfl, rfl, rfl⟩

theorem noteSent_alike (h : Host) (sent : Bool) (id : RequestId) :
    (h.noteSent sent id).Alike h := by
  unfold noteSent
  split
  · exact Alike.refl h
  · exact alike_inWorld h _ fun w => rfl

/-- Parts other than timers leave nothing to deal with but an exit. -/
theorem settle_eq_heedExit {part : Part} (hpart : part.timer? = none) (result : Except Fault Value)
    (h : Host) : part.settle result h = Part.heedExit result h := by
  cases part with
  | timer id f args => cases hpart
  | _ => rfl

theorem heedExit_alike (result : Except Fault Value) {g h : Host} (halike : g.Alike h) :
    (Part.heedExit result g).Alike (Part.heedExit result h) := by
  unfold Part.heedExit
  cases Part.exitCode? result with
  | none => exact halike
  | some code =>
    exact ⟨halike.timers, halike.now, rfl, rfl, halike.signal, halike.phase, halike.crashed,
      halike.script⟩

/-- The report of a fault is a request to stop if the fault is an exit, and otherwise a line in the
log. -/
theorem report_alike (h : Host) (site : String) (fault : Fault) :
    (h.report site fault.outcome).Alike (Part.heedExit (.error fault) h) := by
  simp only [Part.heedExit, Part.exitCode?]
  cases fault.outcome with
  | exit code => exact Alike.refl _
  | compile => exact alike_inWorld h _ fun w => rfl
  | exception text => exact alike_inWorld h _ fun w => rfl

/-! ## Events -/

/-- What an event makes of the host. -/
inductive Dispatches (h : Host) : LoopEvent → List Note → Host → Prop where
  | quiet (e : LoopEvent) (g : Host) (hg : g.Alike h)
      (htimer : ∀ id, e = .timer id → h.resources.timers.get? id = none) : Dispatches h e [] g
  | ran (e : LoopEvent) (part : Part) (l g : Host) (he : ∀ id, e ≠ .timer id)
      (hpart : part.dispatched = true) (htimer : part.timer? = none) (hl : l.Alike h)
      (hg : g.Alike (part.finish l)) : Dispatches h e (l.partNotes part) g
  | fired (id : Nat) (t : Timer) (g : Host) (hget : h.resources.timers.get? id = some t)
      (hg : g.Alike (Part.finish (.timer id t.callback t.attached.toList) h)) :
      Dispatches h (.timer id) (h.partNotes (.timer id t.callback t.attached.toList)) g

theorem Calls.alike {h next : Host} {site : String} {f : Callback} {args held : List Value}
    (hcalls : Calls h site f args held next) {part : Part} (htimer : part.timer? = none)
    (hcode : h.call f args held = h.perform (part.code Resources Resources.natives)) :
    next.Alike (part.finish h) := by
  unfold Part.finish
  cases hcalls with
  | returned v _ hcall =>
    rw [Part.run_of_ok part (hcode ▸ hcall), settle_eq_heedExit htimer]
    exact Alike.refl next
  | failed e next hcall =>
    rcases Part.run_of_error part (hcode ▸ hcall) with ⟨fault, hrun, rfl⟩
    rw [hrun, settle_eq_heedExit htimer]
    exact report_alike next site fault

theorem fireTimer_alike {h : Host} {id : Nat} {t : Timer}
    (hget : h.resources.timers.get? id = some t) :
    (h.fireTimer id).Alike (Part.finish (.timer id t.callback t.attached.toList) h) := by
  have hfires := h.fires id
  generalize h.fireTimer id = g at hfires
  unfold Part.finish
  cases hfires with
  | unlinked hnone => exact absurd (hnone.symm.trans hget) (by simp)
  | rearmed u v delay next hu hcall hint =>
    cases Option.some.inj (hu.symm.trans hget)
    have hrun := Part.run_of_ok (.timer id t.callback t.attached.toList) hcall
    simp only [hrun, Part.settle, Part.settleTimer, TimerList.delay?, hint, Option.map_some]
    exact Alike.refl _
  | finished u v next hu hcall hint =>
    cases Option.some.inj (hu.symm.trans hget)
    have hrun := Part.run_of_ok (.timer id t.callback t.attached.toList) hcall
    simp only [hrun, Part.settle, Part.settleTimer, TimerList.delay?, hint, Option.map_none]
    exact Alike.refl _
  | failed u e next hu hcall =>
    cases Option.some.inj (hu.symm.trans hget)
    rcases Part.run_of_error (.timer id t.callback t.attached.toList) hcall with
      ⟨fault, hrun, rfl⟩
    rw [hrun]
    exact report_alike (next.unlink id) "timer callback" fault

theorem childEnded_dispatches (h : Host) (pid status : Int) :
    Dispatches h (.childEnded pid status) (h.eventNotes (.childEnded pid status))
      (h.childEnded pid status) := by
  unfold eventNotes partOf childEnded
  rcases htake : ChildList.take h.resources.children pid with ⟨c, children⟩
  cases c with
  | none =>
    simp only [htake]
    exact .quiet (.childEnded pid status) h (Alike.refl h) (by simp)
  | some c =>
    simp only [htake]
    have htaken : (h.withResources fun r => { r with children }).Alike h :=
      ⟨Or.inl rfl, rfl, rfl, rfl, rfl, rfl, rfl, rfl⟩
    refine .ran (.childEnded pid status)
      (.child c.callback (.int (.ofInt status) :: c.attached.toList) c.held) _ _ (by simp) rfl rfl
      htaken ?_
    rcases hcall : (h.withResources fun r => { r with children }).call c.callback
      (.int (.ofInt status) :: c.attached.toList) c.held with ⟨result, next⟩
    cases result with
    | ok v =>
      have hcalls : Calls _ "process callback" _ _ _ next := .returned v next hcall
      exact hcalls.alike rfl rfl
    | error e => exact (Calls.failed e next hcall).alike rfl rfl

theorem connected_dispatches (h : Host) :
    Dispatches h (.bus .connected) (h.eventNotes (.bus .connected)) h.connected := by
  have hhooks := h.hooks
  unfold eventNotes partOf
  generalize h.connected = g at hhooks
  cases hhooks with
  | none hhook =>
    rw [hhook]
    exact .quiet (.bus .connected) h (Alike.refl h) (by simp)
  | hook f g hhook hcalls =>
    rw [hhook]
    refine .ran (.bus .connected) (.hook f) h g (by simp) rfl rfl (Alike.refl h) ?_
    exact hcalls.alike rfl rfl

/-- How a call ends that reaches its function. -/
theorem answer_part {h : Host} {d : ServiceDeclaration} {r : Request} {f : Callback}
    (hobject : r.object = d.object) (hmethod : d.callback? r.method = some f) {dispatch : Dispatch}
    {machine : Machine Resources}
    (hanswer : Dispatch.answer Resources.natives d r h.machine = (dispatch, machine)) :
    (∃ v, Part.run (.method f (r.data.toList.map Value.ofTable)) h =
        (.ok v, { h with machine }) ∧ dispatch.error = none) ∨
      ∃ fault, Part.run (.method f (r.data.toList.map Value.ofTable)) h =
        (.error fault, { h with machine }) ∧ dispatch.error = some fault.outcome := by
  -- The dispatch runs the code of the part, and only reads what it ends with.
  have hcode := Part.interpret_eq (.method f (r.data.toList.map Value.ofTable)) h
  unfold Part.code at hcode
  unfold Dispatch.answer Dispatch.run at hanswer
  simp only [hobject, if_true, hmethod, hcode] at hanswer
  have hmachine : (Part.run (.method f (r.data.toList.map Value.ofTable)) h).2 =
      { h with machine := (Part.run (.method f (r.data.toList.map Value.ofTable)) h).2.machine } :=
    rfl
  rcases hrun : Part.run (.method f (r.data.toList.map Value.ofTable)) h with ⟨result, next⟩
  rw [hrun] at hanswer hmachine
  cases result with
  | ok v =>
    cases hanswer
    exact Or.inl ⟨v, by rw [← hmachine], rfl⟩
  | error fault =>
    cases hanswer
    exact Or.inr ⟨fault, by rw [← hmachine], rfl⟩

/-- A call that does not reach a function runs no code. -/
theorem answer_refused {h : Host} {d : ServiceDeclaration} {r : Request}
    (hrefused : r.object ≠ d.object ∨ d.callback? r.method = none) {dispatch : Dispatch}
    {machine : Machine Resources}
    (hanswer : Dispatch.answer Resources.natives d r h.machine = (dispatch, machine)) :
    machine = h.machine ∧ dispatch.error = none := by
  unfold Dispatch.answer Dispatch.run at hanswer
  by_cases hobject : r.object = d.object
  · rcases hrefused with hother | hmethod
    · exact absurd hobject hother
    · rw [if_pos hobject, hmethod] at hanswer
      cases hanswer
      exact ⟨rfl, rfl⟩
  · rw [if_neg hobject] at hanswer
    cases hanswer
    exact ⟨rfl, rfl⟩

theorem answerCall_dispatches (h : Host) (r : Request) :
    Dispatches h (.bus (.call r)) (h.eventNotes (.bus (.call r))) (h.answerCall r) := by
  have hanswers := h.answers r
  unfold eventNotes partOf
  generalize h.answerCall r = g at hanswers
  cases hanswers with
  | unserved hservice =>
    rw [hservice]
    exact .quiet (.bus (.call r)) h (Alike.refl h) (by simp)
  | served d dispatch machine sent client hservice hanswer hreply =>
    rw [hservice]
    have hsent := noteSent_alike { h with machine, client } sent r.id
    have hclient : Alike { h with machine, client } { h with machine } :=
      ⟨Or.inl rfl, rfl, rfl, rfl, rfl, rfl, rfl, rfl⟩
    by_cases hobject : r.object = d.object
    · cases hmethod : d.callback? r.method with
      | none =>
        have hrefused := answer_refused (Or.inr hmethod) hanswer
        rcases hrefused with ⟨rfl, herror⟩
        simp only [hobject, if_true, hmethod, Option.map_none, herror, Option.elim_none]
        exact .quiet (.bus (.call r)) _ (hsent.trans hclient) (by simp)
      | some f =>
        simp only [hobject, if_true, hmethod, Option.map_some]
        refine .ran (.bus (.call r)) (.method f (r.data.toList.map Value.ofTable)) h _ (by simp) rfl
          rfl (Alike.refl h) ?_
        unfold Part.finish
        rcases answer_part hobject hmethod hanswer with ⟨v, hrun, herror⟩ | ⟨fault, hrun, herror⟩
        · rw [hrun, herror]
          exact hsent.trans hclient
        · -- The reply is queued first, and the fault is reported afterwards.
          rw [hrun, herror]
          have hreport := report_alike (noteSent { h with machine, client } sent r.id) "bus method"
            fault
          exact hreport.trans (heedExit_alike _ (hsent.trans hclient))
    · have hrefused := answer_refused (Or.inl hobject) hanswer
      rcases hrefused with ⟨rfl, herror⟩
      simp only [hobject, if_false, herror, Option.elim_none]
      exact .quiet (.bus (.call r)) _ (hsent.trans hclient) (by simp)

theorem dispatches (h : Host) (e : LoopEvent) : Dispatches h e (h.eventNotes e) (h.dispatch e) := by
  cases e with
  | timer id =>
    unfold eventNotes partOf
    cases hget : h.resources.timers.get? id with
    | none =>
      have hsame : h.dispatch (.timer id) = h := by simp [dispatch, fireTimer, hget]
      rw [hsame]
      simp only [hget, Option.map_none]
      refine .quiet (.timer id) h (Alike.refl h) ?_
      rintro i heq
      cases heq
      exact hget
    | some t =>
      simp only [hget, Option.map_some]
      exact .fired id t _ hget (fireTimer_alike hget)
  | childEnded pid status => exact h.childEnded_dispatches pid status
  | bus e =>
    cases e with
    | connected => exact h.connected_dispatches
    | disconnected => exact .quiet (.bus .disconnected) _ (alike_inWorld h _ fun w => rfl) (by simp)
    | call r => exact h.answerCall_dispatches r

/-! ## Turns -/

/-- What a turn of the event loop does. -/
inductive Takes (h : Host) : List Note → Host → Prop where
  | leaves (g : Host)
      (hstop : h.resources.stopping = true ∨ h.loop.terminationSignal = true)
      (hg : g.Alike { h.stop with phase := .stopRequested }) : Takes h [.left] g
  | rests (g : Host) (hg : g.Alike h) : Takes h [] g
  | runs (part : Part) (l g : Host) (hgoing : h.resources.stopping = false)
      (hpart : part.dispatched = true) (htimer : part.timer? = none) (hl : l.Alike h)
      (hg : g.Alike (part.finish l)) : Takes h (l.partNotes part) g
  | fires (id : Nat) (t : Timer) (timers : TimerList) (l g : Host)
      (hgoing : h.resources.stopping = false)
      (hpop : h.resources.timers.popExpired h.now = (some id, timers))
      (hl : l.Alike (h.withTimers timers)) (hget : l.resources.timers.get? id = some t)
      (hg : g.Alike (Part.finish (.timer id t.callback t.attached.toList) l)) :
      Takes h (l.partNotes (.timer id t.callback t.attached.toList)) g
  | misses (id : Nat) (timers : TimerList) (g : Host)
      (hpop : h.resources.timers.popExpired h.now = (some id, timers))
      (hget : timers.get? id = none) (hg : g.Alike (h.withTimers timers)) : Takes h [] g

/-- What a turn does that hands an event other than a timer to the script. -/
theorem Dispatches.takes {h k g : Host} {e : LoopEvent} {ns : List Note}
    (hdispatches : Dispatches k e ns g) (he : ∀ id, e ≠ .timer id) (hk : k.Alike h)
    (hgoing : h.resources.stopping = false) : Takes h ns g := by
  cases hdispatches with
  | quiet _ _ hg _ => exact .rests g (hg.trans hk)
  | ran _ part l _ _ hpart htimer hl hg => exact .runs part l g hgoing hpart htimer (hl.trans hk) hg
  | fired id t _ hget hg => exact absurd rfl (he id)

theorem takes (h : Host) : Takes h h.turnCourse h.turn.2 := by
  have hlisten := h.listen_alike
  have hturns := h.turns
  unfold turnCourse turn
  rcases hnext : h.nextTurn with ⟨turn, next⟩
  rw [hnext] at hturns
  change Turns h.listen turn next at hturns
  cases hturns with
  | stopped hstop =>
    refine .leaves _ (Or.inl (hlisten.stopping.symm.trans hstop)) ?_
    exact ⟨hlisten.timers, hlisten.now, hstop, hlisten.exitCode, hlisten.signal, rfl,
      hlisten.crashed, hlisten.script⟩
  | ended pid status ready hgoing hready =>
    have htaken : Alike { h.listen with loop := { h.listen.loop with ready } } h :=
      ⟨hlisten.timers, hlisten.now, hlisten.stopping, hlisten.exitCode, hlisten.signal,
        hlisten.phase, hlisten.crashed, hlisten.script⟩
    exact (dispatches _ (.childEnded pid status)).takes (by simp) htaken
      (hlisten.stopping.symm.trans hgoing)
  | due id timers hgoing hready hpop =>
    have htaken : (h.listen.withTimers timers).Alike (h.withTimers timers) :=
      hlisten.withTimers timers
    rw [h.listen_timers, hlisten.now] at hpop
    -- The timer that was taken is looked up once more before it is fired.
    have hdispatches := dispatches (h.listen.withTimers timers) (.timer id)
    show Takes h ((h.listen.withTimers timers).eventNotes (.timer id))
      ((h.listen.withTimers timers).dispatch (.timer id))
    generalize (h.listen.withTimers timers).eventNotes (.timer id) = ns at hdispatches
    generalize (h.listen.withTimers timers).dispatch (.timer id) = g at hdispatches
    cases hdispatches with
    | quiet _ _ hg hnone => exact .misses id timers g hpop (hnone id rfl) (hg.trans htaken)
    | ran _ part l _ he hpart htimer hl hg => exact absurd rfl (he id)
    | fired _ t _ hget hg =>
      exact .fires id t timers _ g (hlisten.stopping.symm.trans hgoing) hpop htaken hget hg
  | looked timers turn next hgoing hready hpop hlook =>
    -- Looking for timers leaves out stale deadlines at most.
    have hsettled := TimerList.popExpired_none hpop
    rw [h.listen_timers] at hsettled
    have htaken : (h.listen.withTimers timers).Alike h :=
      ⟨Or.inr hsettled, hlisten.now, hlisten.stopping, hlisten.exitCode, hlisten.signal,
        hlisten.phase, hlisten.crashed, hlisten.script⟩
    have hgoing' := hlisten.stopping.symm.trans hgoing
    cases hlook with
    | terminated hsignal =>
      refine .leaves _ (Or.inr (hlisten.signal.symm.trans hsignal)) ?_
      exact ⟨htaken.timers, htaken.now, rfl, htaken.exitCode, htaken.signal, rfl, htaken.crashed,
        htaken.script⟩
    | collected hsignal =>
      refine .rests _ ((collectEnds_alike _).trans ?_)
      have hheard := alike_inWorld (h.listen.withTimers timers)
        (fun w => { w with kernel := { w.kernel with childSignal := false } }) fun w => rfl
      exact hheard.trans htaken
    | heard e client hattached hnext =>
      have hclient : Alike { h.listen.withTimers timers with client } h :=
        ⟨htaken.timers, htaken.now, htaken.stopping, htaken.exitCode, htaken.signal, htaken.phase,
          htaken.crashed, htaken.script⟩
      exact (dispatches _ (.bus e)).takes (by simp) hclient hgoing'
    | idle => exact .rests _ htaken

end Host
end ScriptService
