import ScriptService.Host.Loop
import ScriptService.Proofs.Script.Related
import ScriptService.Proofs.World.Clock

/-!
# What scripts cannot tell apart

A script does not see whether its host has been asked to stop, with which status, nor what was
logged. So hosts that differ in nothing else run its code in the same way: every event that they
dispatch has the same results, and they queue the same replies.

Main statement: `Host.Indistinct.dispatch`.
-/

namespace ScriptService

/-! ## Resources -/

/-- What a script holds is the same, but for the wish to stop and for what was logged. -/
structure Resources.Indistinct (r s : Resources) : Prop where
  timers : r.timers = s.timers
  children : r.children = s.children
  logger : r.logger = s.logger
  service : r.service = s.service
  clock : r.world.clock = s.world.clock
  kernel : r.world.kernel = s.world.kernel

namespace Resources

variable {r s t : Resources}

theorem Indistinct.refl (r : Resources) : r.Indistinct r := ⟨rfl, rfl, rfl, rfl, rfl, rfl⟩

theorem Indistinct.trans (hrs : r.Indistinct s) (hst : s.Indistinct t) : r.Indistinct t where
  timers := hrs.timers.trans hst.timers
  children := hrs.children.trans hst.children
  logger := hrs.logger.trans hst.logger
  service := hrs.service.trans hst.service
  clock := hrs.clock.trans hst.clock
  kernel := hrs.kernel.trans hst.kernel

theorem indistinct_note (e : Event) (r : Resources) : (r.note e).Indistinct r :=
  ⟨rfl, rfl, rfl, rfl, rfl, rfl⟩

theorem indistinct_stop (r : Resources) : r.stop.Indistinct r := ⟨rfl, rfl, rfl, rfl, rfl, rfl⟩

theorem indistinct_requestExit (r : Resources) (code : Int32) :
    (r.requestExit code).Indistinct r := ⟨rfl, rfl, rfl, rfl, rfl, rfl⟩

theorem indistinct_log (severity : Severity) (v : Value) (r : Resources) :
    (r.log severity v).Indistinct r where
  timers := rfl
  children := rfl
  logger := rfl
  service := rfl
  clock := Logger.clock_emit r.logger r.world severity v.text
  kernel := by
    show (r.logger.emit r.world severity v.text).kernel = r.world.kernel
    unfold Logger.emit
    cases r.logger.identity with
    | none => rfl
    | some identity =>
      simp only
      split <;> split <;> split <;> rfl

theorem Indistinct.symm (hrs : r.Indistinct s) : s.Indistinct r where
  timers := hrs.timers.symm
  children := hrs.children.symm
  logger := hrs.logger.symm
  service := hrs.service.symm
  clock := hrs.clock.symm
  kernel := hrs.kernel.symm

/-! ### The functions of the host -/

theorem Indistinct.timeout (hrs : r.Indistinct s) (callback delay : Value)
    (attached : Option Value) :
    (r.timeout callback delay attached).1 = (s.timeout callback delay attached).1 ∧
      (r.timeout callback delay attached).2.Indistinct (s.timeout callback delay attached).2 := by
  unfold Resources.timeout
  cases callback.callback? with
  | none => exact ⟨rfl, hrs⟩
  | some f =>
    cases delay.int? with
    | none => exact ⟨rfl, hrs⟩
    | some d =>
      have hnow : r.now = s.now := hrs.clock
      simp only [hrs.timers, hnow]
      exact ⟨trivial, rfl, hrs.children, hrs.logger, hrs.service, hrs.clock, hrs.kernel⟩

theorem Indistinct.fork (hrs : r.Indistinct s) (argv : List String) :
    ∃ result w w', Child.fork r.world argv = (result, w) ∧ Child.fork s.world argv = (result, w') ∧
      w.clock = w'.clock ∧ w.kernel = w'.kernel := by
  unfold Child.fork
  by_cases hrefused : argv.isEmpty ∨ argv.any (·.toList.contains '\x00')
  · simp only [if_pos hrefused]
    exact ⟨_, _, _, rfl, rfl, hrs.clock, hrs.kernel⟩
  · simp only [if_neg hrefused, World.fork, hrs.kernel]
    exact ⟨_, _, _, rfl, rfl, hrs.clock, rfl⟩

theorem Indistinct.process (hrs : r.Indistinct s) (callback argv : Value)
    (attached : Option Value) :
    (r.process callback argv attached).1 = (s.process callback argv attached).1 ∧
      (r.process callback argv attached).2.Indistinct (s.process callback argv attached).2 := by
  unfold Resources.process
  cases callback.callback? with
  | none => exact ⟨rfl, hrs⟩
  | some f =>
    cases argv.array? with
    | none => exact ⟨rfl, hrs⟩
    | some argv =>
      obtain ⟨result, w, w', hleft, hright, hclock, hkernel⟩ := hrs.fork (argv.map Value.text)
      simp only [hleft, hright]
      cases result with
      | ok pid =>
        refine ⟨rfl, hrs.timers, ?_, hrs.logger, hrs.service, hclock, hkernel⟩
        show ChildList.track r.children _ = ChildList.track s.children _
        rw [hrs.children]
      | error e => exact ⟨rfl, hrs.timers, hrs.children, hrs.logger, hrs.service, hclock, hkernel⟩

theorem Indistinct.held (hrs : r.Indistinct s) : r.held = s.held := by
  unfold Resources.held
  rw [hrs.timers, hrs.children, hrs.service]

/-- A script gets the same from hosts that it cannot tell apart. -/
theorem related_natives : Natives.Related Indistinct natives natives where
  invoke := by
    intro name args r s hrs
    have hgive : ∀ {left right : Value × Resources},
        left.1 = right.1 ∧ left.2.Indistinct right.2 →
          ∃ (result : Except Fault Value) (r' s' : Resources),
            some (.ok left.1, left.2) = some (result, r') ∧
              some (.ok right.1, right.2) = some (result, s') ∧ r'.Indistinct s' := by
      rintro ⟨v, r'⟩ ⟨v', s'⟩ ⟨rfl, hnext⟩
      exact ⟨.ok v, r', s', rfl, rfl, hnext⟩
    show (invoke name args r = none ∧ invoke name args s = none) ∨ _
    unfold natives invoke
    simp only
    split
    · exact Or.inr (hgive (hrs.timeout _ _ none))
    · exact Or.inr (hgive (hrs.timeout _ _ (some _)))
    · exact Or.inr (hgive (hrs.process _ _ none))
    · exact Or.inr (hgive (hrs.process _ _ (some _)))
    · have hstop := ((indistinct_stop r).trans hrs).trans (indistinct_stop s).symm
      exact Or.inr ⟨_, _, _, rfl, rfl, hstop⟩
    · exact Or.inr ⟨_, r, s, rfl, rfl, hrs⟩
    · exact Or.inr ⟨_, r, s, rfl, rfl, hrs⟩
    · -- Other names are those of the functions that log.
      rename_i v _
      cases Severity.ofFunction? name with
      | none => exact Or.inl ⟨rfl, rfl⟩
      | some severity =>
        have hlog := ((indistinct_log severity v r).trans hrs).trans
          (indistinct_log severity v s).symm
        exact Or.inr ⟨_, _, _, rfl, rfl, hlog⟩
    · exact Or.inl ⟨rfl, rfl⟩
  note := fun e r s _ hrs => ((indistinct_note e r).trans hrs).trans (indistinct_note e s).symm
  held := fun _ _ hrs => hrs.held

end Resources

/-! ## Hosts -/

/-- Two hosts with the same script and the same session, whose resources the script cannot tell
apart. -/
structure Host.Indistinct (g h : Host) : Prop where
  script : g.script = h.script
  resources : g.resources.Indistinct h.resources
  client : g.client = h.client

namespace Host

variable {g h k : Host}

theorem Indistinct.refl (h : Host) : h.Indistinct h := ⟨rfl, .refl _, rfl⟩

theorem Indistinct.symm (hgh : g.Indistinct h) : h.Indistinct g :=
  ⟨hgh.script.symm, hgh.resources.symm, hgh.client.symm⟩

theorem Indistinct.trans (hgh : g.Indistinct h) (hhk : h.Indistinct k) : g.Indistinct k :=
  ⟨hgh.script.trans hhk.script, hgh.resources.trans hhk.resources, hgh.client.trans hhk.client⟩

theorem Indistinct.withResources (hgh : g.Indistinct h) {f : Resources → Resources}
    (hf : ∀ {r s : Resources}, r.Indistinct s → (f r).Indistinct (f s)) :
    (g.withResources f).Indistinct (h.withResources f) :=
  ⟨hgh.script, hf hgh.resources, hgh.client⟩

/-- A script cannot see what is only logged. -/
theorem indistinct_inWorld (h : Host) (f : World → World) (hclock : ∀ w, (f w).clock = w.clock)
    (hkernel : ∀ w, (f w).kernel = w.kernel) : (h.inWorld f).Indistinct h :=
  ⟨rfl, ⟨rfl, rfl, rfl, rfl, hclock _, hkernel _⟩, rfl⟩

/-- A script cannot see what is reported of a fault, nor that the host was asked to end. -/
theorem indistinct_report (h : Host) (site : String) (e : ScriptError) :
    (h.report site e).Indistinct h := by
  cases e with
  | exit code => exact ⟨rfl, Resources.indistinct_requestExit _ code, rfl⟩
  | compile => exact indistinct_inWorld h _ (fun _ => rfl) fun _ => rfl
  | exception text => exact indistinct_inWorld h _ (fun _ => rfl) fun _ => rfl

theorem Indistinct.report (hgh : g.Indistinct h) (site : String) (e : ScriptError) :
    (g.report site e).Indistinct (h.report site e) :=
  ((indistinct_report g site e).trans hgh).trans (indistinct_report h site e).symm

theorem Indistinct.machine (hgh : g.Indistinct h) :
    Machine.Related Resources.Indistinct g.machine h.machine := ⟨hgh.script, hgh.resources⟩

/-- Code that runs over machines which it cannot tell apart ends in the same way on both. -/
theorem perform_related {m n : Machine Resources} (f : Callback) (args held : List Value)
    (hmn : Machine.Related Resources.Indistinct m n) :
    ∃ result m' n',
      Interpreter.perform (Interpreter.callBack Resources.natives held f args) m = (result, m') ∧
      Interpreter.perform (Interpreter.callBack Resources.natives held f args) n = (result, n') ∧
      Machine.Related Resources.Indistinct m' n' := by
  have hrun := Interpreter.callBack_related Resources.related_natives held f args m n hmn
  unfold Interpreter.perform
  rcases hm : (Interpreter.callBack Resources.natives held f args).run.run m with ⟨result, m'⟩
  rcases hn : (Interpreter.callBack Resources.natives held f args).run.run n with ⟨result', n'⟩
  rw [hm, hn] at hrun
  obtain ⟨rfl, hnext⟩ := hrun
  cases result with
  | ok v => exact ⟨_, m', n', rfl, rfl, hnext⟩
  | error fault => exact ⟨_, m', n', rfl, rfl, hnext⟩

theorem Indistinct.call (hgh : g.Indistinct h) (f : Callback) (args held : List Value) :
    ∃ result g' h', g.call f args held = (result, g') ∧ h.call f args held = (result, h') ∧
      g'.Indistinct h' := by
  obtain ⟨result, m, n, hm, hn, hnext⟩ := perform_related f args held hgh.machine
  refine ⟨result, { g with machine := m }, { h with machine := n }, ?_, ?_, ?_⟩
  · rw [Host.call, Host.perform, hm]
  · rw [Host.call, Host.perform, hn]
  · exact ⟨hnext.script, hnext.host, hgh.client⟩

/-! ### Events -/

theorem Indistinct.fireTimer (hgh : g.Indistinct h) (id : Nat) :
    (g.fireTimer id).Indistinct (h.fireTimer id) := by
  have hremove : ∀ {r s : Resources}, r.Indistinct s →
      Resources.Indistinct { r with timers := (r.timers.remove id).2 }
        { s with timers := (s.timers.remove id).2 } := by
    intro r s hrs
    exact ⟨by rw [hrs.timers], hrs.children, hrs.logger, hrs.service, hrs.clock, hrs.kernel⟩
  have hrearm : ∀ {r s : Resources} (delay : Int), r.Indistinct s →
      Resources.Indistinct { r with timers := (r.timers.rearm r.now id delay).2 }
        { s with timers := (s.timers.rearm s.now id delay).2 } := by
    intro r s delay hrs
    have hnow : r.now = s.now := hrs.clock
    exact ⟨by rw [hrs.timers, hnow], hrs.children, hrs.logger, hrs.service, hrs.clock, hrs.kernel⟩
  unfold Host.fireTimer
  rw [hgh.resources.timers]
  cases h.resources.timers.get? id with
  | none => exact hgh
  | some t =>
    obtain ⟨result, g', h', hg, hh, hnext⟩ := hgh.call t.callback t.attached.toList []
    simp only [hg, hh]
    cases result with
    | ok v =>
      simp only
      cases v.int? with
      | none => exact hnext.withResources hremove
      | some delay => exact hnext.withResources (hrearm delay.toInt)
    | error e => exact (hnext.withResources hremove).report "timer callback" e

theorem Indistinct.childEnded (hgh : g.Indistinct h) (pid status : Int) :
    (g.childEnded pid status).Indistinct (h.childEnded pid status) := by
  unfold Host.childEnded
  rw [hgh.resources.children]
  rcases ChildList.take h.resources.children pid with ⟨c, children⟩
  cases c with
  | none => exact hgh
  | some c =>
    have htaken : (g.withResources fun r => { r with children }).Indistinct
        (h.withResources fun r => { r with children }) := by
      refine hgh.withResources fun hrs => ?_
      exact ⟨hrs.timers, rfl, hrs.logger, hrs.service, hrs.clock, hrs.kernel⟩
    obtain ⟨result, g', h', hg, hh, hnext⟩ :=
      htaken.call c.callback (.int (.ofInt status) :: c.attached.toList) c.held
    simp only [hg, hh]
    cases result with
    | ok v => exact hnext
    | error e => exact hnext.report "process callback" e

theorem Indistinct.connected (hgh : g.Indistinct h) : g.connected.Indistinct h.connected := by
  unfold Host.connected
  rw [hgh.resources.service]
  cases h.resources.service.bind (·.connect) with
  | none => exact hgh
  | some hook =>
    obtain ⟨result, g', h', hg, hh, hnext⟩ := hgh.call hook [] []
    simp only [hg, hh]
    cases result with
    | ok v => exact hnext
    | error e => exact hnext.report "connect hook" e

/-- The dispatch of a call over machines that scripts cannot tell apart. -/
theorem answer_related (d : ServiceDeclaration) (q : Request) {m n : Machine Resources}
    (hmn : Machine.Related Resources.Indistinct m n) :
    ∃ dispatch m' n', Dispatch.answer Resources.natives d q m = (dispatch, m') ∧
      Dispatch.answer Resources.natives d q n = (dispatch, n') ∧
        Machine.Related Resources.Indistinct m' n' := by
  unfold Dispatch.answer
  split
  · unfold Dispatch.run
    cases d.callback? q.method with
    | none => exact ⟨_, m, n, rfl, rfl, hmn⟩
    | some f =>
      obtain ⟨result, m', n', hm, hn, hnext⟩ :=
        perform_related f (q.data.toList.map Value.ofTable) [] hmn
      simp only [hm, hn]
      cases result with
      | ok v => exact ⟨_, m', n', rfl, rfl, hnext⟩
      | error e => exact ⟨_, m', n', rfl, rfl, hnext⟩
  · exact ⟨_, m, n, rfl, rfl, hmn⟩

/-- The host after a call, if nothing is reported: its method was run, and its reply is queued. -/
def answerQuietly (h : Host) (d : ServiceDeclaration) (q : Request) : Host :=
  let (dispatch, machine) := Dispatch.answer Resources.natives d q h.machine
  { h with machine, client := (h.client.reply ⟨q.id, dispatch.status, dispatch.reply⟩).2 }

/-- What else is done with a call, a script cannot see. -/
theorem answerCall_indistinct {d : ServiceDeclaration} (hservice : h.resources.service = some d)
    (q : Request) : (h.answerCall q).Indistinct (h.answerQuietly d q) := by
  unfold answerCall answerQuietly
  rw [hservice]
  simp only
  rcases Dispatch.answer Resources.natives d q h.machine with ⟨dispatch, machine⟩
  rcases h.client.reply ⟨q.id, dispatch.status, dispatch.reply⟩ with ⟨sent, client⟩
  have hsent : Indistinct (if sent = true then { h with machine, client }
      else Host.inWorld { h with machine, client } fun w =>
        w.warn "Bus session gone, reply dropped" [("id", toString q.id.toNat)])
      { h with machine, client } := by
    split
    · exact .refl _
    · exact indistinct_inWorld _ _ (fun _ => rfl) fun _ => rfl
  cases herror : dispatch.error with
  | none => exact hsent
  | some e => exact (indistinct_report _ _ e).trans hsent

theorem Indistinct.answerCall (hgh : g.Indistinct h) (q : Request) :
    (g.answerCall q).Indistinct (h.answerCall q) := by
  cases hservice : h.resources.service with
  | none =>
    have hnone := hgh.resources.service.trans hservice
    unfold Host.answerCall
    rw [hservice, hnone]
    exact hgh
  | some d =>
    -- On both sides the call is compared with the answer to it, of which nothing is reported.
    have hleft := answerCall_indistinct (hgh.resources.service.trans hservice) q
    have hright := answerCall_indistinct hservice q
    have hquiet : (g.answerQuietly d q).Indistinct (h.answerQuietly d q) := by
      obtain ⟨dispatch, m, n, hg, hh, hnext⟩ := answer_related d q hgh.machine
      unfold answerQuietly
      rw [hg, hh, hgh.client]
      exact ⟨hnext.script, hnext.host, rfl⟩
    exact (hleft.trans hquiet).trans hright.symm

/-- Hosts that a script cannot tell apart stay so, whatever they dispatch. -/
theorem Indistinct.dispatch (hgh : g.Indistinct h) (e : LoopEvent) :
    (g.dispatch e).Indistinct (h.dispatch e) := by
  cases e with
  | timer id => exact hgh.fireTimer id
  | childEnded pid status => exact hgh.childEnded pid status
  | bus e =>
    cases e with
    | connected => exact hgh.connected
    | disconnected =>
      -- Of a lost connection there is only a line in the log.
      have hlost := fun k : Host => indistinct_inWorld k
        (fun w => w.info "Bus connection lost, reconnecting" []) (fun _ => rfl) fun _ => rfl
      exact ((hlost g).trans hgh).trans (hlost h).symm
    | call q => exact hgh.answerCall q

theorem Indistinct.dispatchAll (hgh : g.Indistinct h) (events : List LoopEvent) :
    (events.foldl Host.dispatch g).Indistinct (events.foldl Host.dispatch h) := by
  induction events generalizing g h with
  | nil => exact hgh
  | cons e rest ih => exact ih (hgh.dispatch e)

end Host
end ScriptService
