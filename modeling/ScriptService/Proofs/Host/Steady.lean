import ScriptService.Proofs.Children.Signals
import ScriptService.Proofs.Host.Turns

/-!
# What the event loop leaves alone

Neither script code nor what the event loop does between two parts sends a signal to a process, or
changes the settings and the service of the host. What lasts through parts and through the few
changes that a host makes around them lasts through every dispatch (`Host.Lasting.dispatch`).

Main statements: `Host.Lasting.dispatch` and `Host.steady_turn`.
-/

namespace ScriptService

/-! ## What sends no signal -/

namespace Logger

variable (l : Logger) (w : World)

theorem signals_emit (severity : Severity) (text : String) :
    (l.emit w severity text).signals = w.signals := by
  unfold emit
  cases l.identity with
  | none => rfl
  | some identity =>
    simp only
    split <;> split <;> split <;> first | rfl | exact World.signals_note_of_none _ rfl

theorem signals_close : (l.close w).2.signals = w.signals := by
  unfold close
  simp only
  split
  · exact World.signals_note_of_none w rfl
  · rfl

theorem signals_openOn (d : LogDeclaration) : (openOn w d).2.signals = w.signals := by
  have hopen : ∀ (v : World) identity, (v.note (.openLog identity)).signals = v.signals :=
    fun v identity => World.signals_note_of_none v rfl
  unfold openOn
  simp only
  split <;> split <;> simp only [hopen, World.signals_warn]

theorem signals_replace (d : LogDeclaration) : (l.replace w d).2.signals = w.signals := by
  unfold replace
  exact (signals_close l _).trans (signals_openOn w d)

end Logger

theorem Child.signals_fork (w : World) (argv : List String) :
    (Child.fork w argv).2.signals = w.signals := by
  unfold Child.fork
  split
  · rfl
  · exact World.signals_fork w

namespace ChildList

theorem signals_collect (w : World) (pid : Int) : (collect w pid).2.signals = w.signals := by
  have hpoll : (w.poll pid).2.signals = w.signals := rfl
  unfold collect
  split
  all_goals
    rename_i heq
    rw [heq] at hpoll
  · exact hpoll
  · exact hpoll
  · exact (World.signals_warn _ _ _).trans hpoll
  · exact (World.signals_warn _ _ _).trans hpoll

theorem signals_reapAll (w : World) (pids : List Int) : (reapAll w pids).2.signals = w.signals := by
  induction pids generalizing w with
  | nil => rfl
  | cons pid rest ih => exact (ih _).trans (signals_collect w pid)

end ChildList

namespace Resources

/-- What a function of the host does to the world: nothing, a fork, which is complained about if it
fails, or a record in the log. -/
inductive Stirs (r : Resources) : World → Prop where
  | still : Stirs r r.world
  | forked (argv : List String) : Stirs r (Child.fork r.world argv).2
  | refused (argv : List String) (e : SystemError) :
      Stirs r ((Child.fork r.world argv).2.warn "Failed to spawn child" [("error", e.message)])
  | logged (severity : Severity) (text : String) : Stirs r (r.logger.emit r.world severity text)

theorem stirs_timeout (r : Resources) (callback delay : Value) (attached : Option Value) :
    Stirs r (r.timeout callback delay attached).2.world := by
  unfold timeout
  split
  · exact .still
  · exact .still

theorem stirs_process (r : Resources) (callback argv : Value) (attached : Option Value) :
    Stirs r (r.process callback argv attached).2.world := by
  unfold process
  split
  · rename_i items _ _
    have hforked := Stirs.forked (r := r) (items.map Value.text)
    have hrefused := Stirs.refused (r := r) (items.map Value.text)
    rcases hfork : Child.fork r.world (items.map Value.text) with ⟨result, world⟩
    rw [hfork] at hforked hrefused
    cases result with
    | ok pid => exact hforked
    | error e => exact hrefused e
  · exact .still

theorem stirs {r s : Resources} {name : String} {args : List Value} {result : Except Fault Value}
    (hinvoke : invoke name args r = some (result, s)) : Stirs r s.world := by
  unfold invoke at hinvoke
  simp only at hinvoke
  split at hinvoke
  · cases hinvoke
    exact r.stirs_timeout _ _ none
  · cases hinvoke
    exact r.stirs_timeout _ _ (some _)
  · cases hinvoke
    exact r.stirs_process _ _ none
  · cases hinvoke
    exact r.stirs_process _ _ (some _)
  · cases hinvoke
    exact .still
  · cases hinvoke
    exact .still
  · cases hinvoke
    exact .still
  · obtain ⟨severity, -, hgive⟩ := Option.bind_eq_some_iff.1 hinvoke
    cases hgive
    exact .logged severity _
  · cases hinvoke

/-- A function of the host sends no signal. -/
theorem signals_invoke {r s : Resources} {name : String} {args : List Value}
    {result : Except Fault Value} (hinvoke : invoke name args r = some (result, s)) :
    s.world.signals = r.world.signals := by
  have hstirs := stirs hinvoke
  generalize s.world = w at hstirs
  cases hstirs with
  | still => rfl
  | forked argv => exact Child.signals_fork r.world argv
  | refused argv e => exact (World.signals_warn _ _ _).trans (Child.signals_fork r.world argv)
  | logged severity text => exact Logger.signals_emit _ _ _ _

/-- Script code sends no signal. -/
theorem signals_code {code : Code Value} (hcode : code.Parametric) (m : Machine Resources) :
    ((code Resources natives).run.run m).2.host.world.signals = m.host.world.signals := by
  refine Code.preserves hcode
    (fun (s : Resources) => s.world.signals = m.host.world.signals) ?_ ?_ rfl
  · intro name args s result next hs hinvoke
    exact (signals_invoke hinvoke).trans hs
  · intro e s he hs
    have hnone : e.signal? = none := by
      cases e <;> first | rfl | cases he
    exact (World.signals_note_of_none s.world hnone).trans hs

/-- No function of the host changes the service. -/
theorem service_invoke {r s : Resources} {name : String} {args : List Value}
    {result : Except Fault Value} (hinvoke : invoke name args r = some (result, s)) :
    s.service = r.service := by
  have htimeout : ∀ callback delay attached,
      (r.timeout callback delay attached).2.service = r.service := by
    intro callback delay attached
    unfold timeout
    split <;> rfl
  have hprocess : ∀ callback argv attached,
      (r.process callback argv attached).2.service = r.service := by
    intro callback argv attached
    unfold process
    split
    · split <;> rfl
    · rfl
  unfold invoke at hinvoke
  simp only at hinvoke
  split at hinvoke
  · cases hinvoke
    exact htimeout _ _ _
  · cases hinvoke
    exact htimeout _ _ _
  · cases hinvoke
    exact hprocess _ _ _
  · cases hinvoke
    exact hprocess _ _ _
  · cases hinvoke
    rfl
  · cases hinvoke
    rfl
  · cases hinvoke
    rfl
  · obtain ⟨severity, -, hgive⟩ := Option.bind_eq_some_iff.1 hinvoke
    cases hgive
    rfl
  · cases hinvoke

end Resources

namespace Host

/-! ## Hosts that have sent the same signals -/

/-- Two hosts of the same settings that have sent the same signals. -/
structure SameSignals (g h : Host) : Prop where
  signals : g.world.signals = h.world.signals
  config : g.config = h.config

theorem SameSignals.refl (h : Host) : h.SameSignals h := ⟨rfl, rfl⟩

theorem SameSignals.symm {g h : Host} (hg : g.SameSignals h) : h.SameSignals g :=
  ⟨hg.signals.symm, hg.config.symm⟩

theorem SameSignals.trans {k g h : Host} (hkg : k.SameSignals g) (hgh : g.SameSignals h) :
    k.SameSignals h :=
  ⟨hkg.signals.trans hgh.signals, hkg.config.trans hgh.config⟩

/-- Two hosts that publish the same service as well. -/
structure Steady (g h : Host) : Prop extends SameSignals g h where
  service : g.resources.service = h.resources.service

theorem Steady.refl (h : Host) : h.Steady h := ⟨SameSignals.refl h, rfl⟩

theorem Steady.trans {k g h : Host} (hkg : k.Steady g) (hgh : g.Steady h) : k.Steady h :=
  ⟨hkg.toSameSignals.trans hgh.toSameSignals, hkg.service.trans hgh.service⟩

/-- A host that only writes into its logs. -/
theorem steady_inWorld (h : Host) {f : World → World} (hf : ∀ w, (f w).signals = w.signals) :
    (h.inWorld f).Steady h :=
  ⟨⟨hf _, rfl⟩, rfl⟩

theorem steady_run (part : Part) (h : Host) : (part.run h).2.Steady h := by
  refine ⟨⟨Resources.signals_code part.parametric h.machine, rfl⟩, ?_⟩
  refine Code.preserves part.parametric
    (fun (r : Resources) => r.service = h.resources.service) ?_ ?_ rfl
  · intro name args r result s hr hinvoke
    exact (Resources.service_invoke hinvoke).trans hr
  · intro e r _ hr
    exact hr

section

variable {h next g : Host} {f : Callback} {args held : List Value}

/-! ## What lasts while an event is dispatched -/

/-- A relation to an earlier host that lasts through all that the dispatch of an event is made of.
-/
structure Lasting (R : Host → Host → Prop) : Prop where
  refl : ∀ h, R h h
  trans : ∀ {k g h}, R k g → R g h → R k h
  ran : ∀ part h, R (Part.run part h).2 h
  timers : ∀ h timers, R (h.withTimers timers) h
  children : ∀ h children, R (h.withResources fun r => { r with children }) h
  asked : ∀ h code, R (h.withResources fun r => r.requestExit code) h
  diagnosed : ∀ h d, R (h.inWorld fun w => w.note (.diagnostic d)) h
  replied : ∀ h q, R { h with client := (h.client.reply q).2 } h

namespace Lasting

variable {R : Host → Host → Prop} (hlasting : Lasting R)

include hlasting

theorem call {result : Except ScriptError Value} (hcall : h.call f args held = (result, next)) :
    R next h := by
  rw [Part.eq_run (.child f args held) hcall]
  exact hlasting.ran _ h

theorem report (h : Host) (site : String) (e : ScriptError) : R (h.report site e) h := by
  cases e with
  | exit code => exact hlasting.asked h code
  | compile => exact hlasting.diagnosed h _
  | exception text => exact hlasting.diagnosed h _

theorem calls {site : String} (hcalls : Calls h site f args held next) : R next h := by
  cases hcalls with
  | returned v _ hcall => exact hlasting.call hcall
  | failed e next hcall => exact hlasting.trans (hlasting.report next site e) (hlasting.call hcall)

theorem fires {id : Nat} (hfires : Fires h id next) : R next h := by
  cases hfires with
  | unlinked _ => exact hlasting.refl h
  | rearmed t v delay g _ hcall _ =>
    have harmed : R (g.rearm id delay.toInt) g := hlasting.timers g _
    exact hlasting.trans harmed (hlasting.call hcall)
  | finished t v g _ hcall _ =>
    have hunlinked : R (g.unlink id) g := hlasting.timers g _
    exact hlasting.trans hunlinked (hlasting.call hcall)
  | failed t e g _ hcall =>
    have hunlinked : R (g.unlink id) g := hlasting.timers g _
    exact hlasting.trans (hlasting.report _ _ e) (hlasting.trans hunlinked (hlasting.call hcall))

theorem ends {pid status : Int} (hends : Ends h pid status next) : R next h := by
  cases hends with
  | unknown => exact hlasting.refl h
  | known c children _ _ hcalls =>
    exact hlasting.trans (hlasting.calls hcalls) (hlasting.children h children)

theorem hooks (hhooks : Hooks h next) : R next h := by
  cases hhooks with
  | none _ => exact hlasting.refl h
  | hook f _ _ hcalls => exact hlasting.calls hcalls

theorem noteSent (h : Host) (sent : Bool) (id : RequestId) : R (h.noteSent sent id) h := by
  unfold Host.noteSent
  split
  · exact hlasting.refl h
  · exact hlasting.diagnosed h _

/-- Answering a call runs a part or no script code. -/
theorem answer {d : ServiceDeclaration} {r : Request} {dispatch : Dispatch}
    {machine : Machine Resources}
    (hanswer : Dispatch.answer Resources.natives d r h.machine = (dispatch, machine)) :
    R { h with machine } h := by
  by_cases hrefused : r.object ≠ d.object ∨ d.callback? r.method = none
  · rw [(answer_refused hrefused hanswer).1]
    exact hlasting.refl h
  · obtain ⟨hobject, hmethod⟩ := not_or.1 hrefused
    obtain ⟨f, hf⟩ := Option.ne_none_iff_exists'.1 hmethod
    have hran := hlasting.ran (.method f (r.data.toList.map Value.ofTable)) h
    rcases answer_part (not_not.1 hobject) hf hanswer with ⟨v, hrun, -⟩ | ⟨fault, hrun, -⟩
    · rw [hrun] at hran
      exact hran
    · rw [hrun] at hran
      exact hran

theorem answers {r : Request} (hanswers : Answers h r next) : R next h := by
  cases hanswers with
  | unserved _ => exact hlasting.refl h
  | served d dispatch machine sent client _ hanswer hreply =>
    have hreplied := hlasting.replied { h with machine } ⟨r.id, dispatch.status, dispatch.reply⟩
    have hclient : (h.client.reply ⟨r.id, dispatch.status, dispatch.reply⟩).2 = client := by
      rw [hreply]
    rw [hclient] at hreplied
    have hsent := hlasting.trans (hlasting.noteSent { h with machine, client } sent r.id)
      (hlasting.trans hreplied (hlasting.answer hanswer))
    cases dispatch.error with
    | none => exact hsent
    | some e => exact hlasting.trans (hlasting.report _ _ e) hsent

theorem dispatch (h : Host) (e : LoopEvent) : R (h.dispatch e) h := by
  cases e with
  | timer id => exact hlasting.fires (h.fires id)
  | childEnded pid status => exact hlasting.ends (h.ends pid status)
  | bus e =>
    cases e with
    | connected => exact hlasting.hooks h.hooks
    | disconnected => exact hlasting.diagnosed h _
    | call r => exact hlasting.answers (h.answers r)

end Lasting

theorem lasting_steady : Lasting Steady where
  refl := Steady.refl
  trans := Steady.trans
  ran := steady_run
  timers _ _ := ⟨⟨rfl, rfl⟩, rfl⟩
  children _ _ := ⟨⟨rfl, rfl⟩, rfl⟩
  asked _ _ := ⟨⟨rfl, rfl⟩, rfl⟩
  diagnosed h _ := steady_inWorld h fun w => World.signals_note_of_none w rfl
  replied _ _ := ⟨⟨rfl, rfl⟩, rfl⟩

theorem Answers.steady {r : Request} (hanswers : Answers h r next) : next.Steady h :=
  lasting_steady.answers hanswers

theorem steady_dispatch (h : Host) (e : LoopEvent) : (h.dispatch e).Steady h :=
  lasting_steady.dispatch h e

/-! ## Turns -/

theorem steady_collectEnds (h : Host) : h.collectEnds.Steady h :=
  ⟨⟨ChildList.signals_reapAll _ _, rfl⟩, rfl⟩

theorem steady_listen (h : Host) : h.listen.Steady h := by
  unfold Host.listen
  split
  · exact Steady.refl h
  · have hsame : Steady { h with loop := { h.loop with started := true } } h := ⟨⟨rfl, rfl⟩, rfl⟩
    exact (steady_collectEnds _).trans hsame

theorem Looks.steady {turn : LoopTurn} (hlooks : Looks h turn g) : g.Steady h := by
  cases hlooks with
  | terminated _ =>
    have hstopped : ∀ k : Host, k.stop.Steady k := fun k => ⟨⟨rfl, rfl⟩, rfl⟩
    exact (hstopped _).trans (steady_inWorld h fun w => World.signals_info w _ _)
  | collected _ =>
    have hsame : Steady
        (h.inWorld fun w => { w with kernel := { w.kernel with childSignal := false } }) h :=
      ⟨⟨rfl, rfl⟩, rfl⟩
    exact (steady_collectEnds _).trans hsame
  | heard e client _ _ => exact ⟨⟨rfl, rfl⟩, rfl⟩
  | idle => exact Steady.refl h

theorem Turns.steady {turn : LoopTurn} (hturns : Turns h turn g) : g.Steady h := by
  cases hturns with
  | stopped _ => exact Steady.refl h
  | ended pid status ready _ _ => exact ⟨⟨rfl, rfl⟩, rfl⟩
  | due id timers _ _ _ => exact ⟨⟨rfl, rfl⟩, rfl⟩
  | looked timers _ _ _ _ _ hlook =>
    have hsame : Steady (h.withResources fun r => { r with timers }) h := ⟨⟨rfl, rfl⟩, rfl⟩
    exact hlook.steady.trans hsame

theorem steady_nextTurn (h : Host) : h.nextTurn.2.Steady h :=
  h.turns.steady.trans h.steady_listen

/-- A turn of the event loop sends no signal, and keeps the service. -/
theorem steady_turn (h : Host) : h.turn.2.Steady h := by
  have hfound := h.steady_nextTurn
  rw [turn_eq]
  cases h.nextTurn.1 with
  | dispatch e => exact (steady_dispatch _ e).trans hfound
  | lookAgain => exact hfound
  | leave => exact ⟨⟨hfound.signals, hfound.config⟩, hfound.service⟩
  | wait => exact hfound

end

end Host
end ScriptService
