import ScriptService.Proofs.Host.Clients
import ScriptService.Proofs.Host.Operations

/-!
# What is left of a released host

A host that has released everything holds no timer, child, service, program and global value, has no
status to pass on and no event to dispatch, and keeps no object of its script alive. This stays so
whatever happens to it afterwards, since nobody listens to its session any more.

Main statements: `Host.Released.alive_eq_nil`, `Host.Bare.waited`, `Host.teardown_bare`,
`Host.closeWhile_bare` and `HostRun.Emptied.act`.
-/

namespace ScriptService

/-! ## Sessions that nobody listens to -/

/-- A session that nobody listens to has nothing more to tell. -/
theorem Session.events_step {s : Session} (hheard : s.heard = false) (now : Nat) (m : Session.Move) :
    (s.step now m).2.events = s.events := by
  have htells := s.tells (.move now m)
  generalize s.facts (.move now m) = ns at htells
  generalize hnext : (s.act (.move now m)).2 = t at htells
  change (s.step now m).2 = t at hnext
  rw [hnext]
  cases htells with
  | registered _ c _ h => exact absurd (h.symm.trans hheard) (by simp)
  | received _ c r _ h => exact absurd (h.symm.trans hheard) (by simp)
  | lost _ _ c _ h => exact absurd (h.symm.trans hheard) (by simp)
  | _ => rfl

/-- Nobody listens to the session of the client, and no event is queued. -/
def Client.Ignored (client : Client) : Prop :=
  ∀ s, client.session = some s → s.heard = false ∧ s.events = []

namespace Client.Ignored

variable {client : Client}

theorem of_ignore (client : Client) : client.ignore.Ignored := by
  intro s hs
  rcases Option.map_eq_some_iff.1 hs with ⟨t, -, rfl⟩
  exact ⟨rfl, rfl⟩

theorem of_session {next : Client} (hi : client.Ignored) (hsame : next.session = client.session) :
    next.Ignored := by
  intro s hs
  exact hi s (hsame ▸ hs)

theorem abort (hi : client.Ignored) (now : Nat) : (client.abort now).Ignored := by
  unfold Client.abort
  cases hs : client.session with
  | none => exact hi
  | some s =>
    simp only
    split
    · exact hi
    · intro t ht
      rw [← Option.some.inj ht]
      unfold Session.abort
      split
      · exact hi s hs
      · exact hi s hs

/-- The session goes on working, but it is not heard. -/
theorem step (hi : client.Ignored) {now : Nat} {next : Client}
    (hstep : client.step now = some next) : next.Ignored := by
  unfold Client.step at hstep
  split at hstep
  · cases hstep
  · rename_i s hs
    split at hstep
    · rename_i m transport hmove
      cases hstep
      intro t ht
      rw [← Option.some.inj ht]
      have hsession := hi s hs
      exact ⟨(Session.step_frame s now m).2.trans hsession.1,
        (Session.events_step hsession.1 now m).trans hsession.2⟩
    · split at hstep
      · cases hstep
        have hlate : Client.Ignored
            { client with trace := client.trace ++ [Stamped.mk now Session.overdue] } :=
          hi.of_session rfl
        exact hlate.abort now
      · cases hstep

end Client.Ignored

namespace Host

/-! ## Released hosts -/

/-- A released host with no status to pass on and no event to dispatch. -/
structure Bare (h : Host) : Prop extends Released h where
  ready : h.loop.ready = []
  ignored : h.client.Ignored

variable {h : Host}

theorem Released.alive_eq_nil (hr : h.Released) : h.alive = [] := by
  have hscript : h.machine.script.held = [] := by
    have hglobals : h.machine.script.globals = [] := hr.script.2
    rw [Script.held, hglobals]
    rfl
  have hheld : Resources.natives.held h.machine.host = [] := by
    have htimers : h.machine.host.timers.timers = [] := hr.timers.1
    have hchildren : h.machine.host.children = [] := hr.children
    have hservice : h.machine.host.service = none := hr.service
    show h.machine.host.held = []
    rw [Resources.held, TimerList.held, htimers, hchildren, hservice]
    rfl
  unfold Host.alive Interpreter.alive
  rw [hscript, hheld]
  simp [Value.liveLabels, Value.objectsOfItems]

theorem finishRelease_bare (hr : h.finishRelease.Released) : h.finishRelease.Bare :=
  ⟨hr, rfl, Client.Ignored.of_ignore h.client⟩

theorem teardown_bare (hphase : h.phase ≠ .tornDown) : h.teardown.Bare := by
  have hr := teardown_released hphase
  rw [teardown, if_neg hphase] at hr ⊢
  exact finishRelease_bare hr

theorem closeWhile_bare (hphase : h.phase ≠ .tornDown) (acts : List HostRun.Act) :
    (h.closeWhile acts).Bare := by
  have hr := closeWhile_released hphase acts
  rw [closeWhile, if_neg hphase] at hr ⊢
  exact finishRelease_bare hr

/-- What happens beside a host makes it hold nothing. -/
theorem Bare.waited (hb : h.Bare) (a : HostRun.Act) : (waited.act h a).Bare := by
  have hr := hb.toReleased.keeps (waited_keeps h a)
  cases a with
  | move =>
    refine ⟨hr, hb.ready, ?_⟩
    show ((h.client.step h.now).getD h.client).Ignored
    cases hstep : h.client.step h.now with
    | none => exact hb.ignored
    | some next => exact hb.ignored.step hstep
  | turn => exact hb
  | proceed => exact hb
  | wait time => exact ⟨hr, hb.ready, hb.ignored⟩
  | meet m => exact ⟨hr, hb.ready, hb.ignored.of_session rfl⟩
  | beside m => exact ⟨hr, hb.ready, hb.ignored.of_session (Client.beside_session _ m)⟩
  | stop => exact ⟨hr, hb.ready, hb.ignored⟩
  | terminate => exact ⟨hr, hb.ready, hb.ignored⟩
  | child index state announced => exact ⟨hr, hb.ready, hb.ignored⟩

end Host

/-! ## Runs at their end -/

namespace HostRun

/-- Between two stages, and outside the event loop, a run only goes where its host does. -/
theorem act_of_waited {r : HostRun} (hphase : r.host.phase ≠ .running) {a : Act}
    (hproceed : a ≠ .proceed) : r.act a = { r with host := Host.waited.act r.host a } := by
  cases a with
  | proceed => exact absurd rfl hproceed
  | turn =>
    show r.turnLoop = _
    rw [turnLoop, if_neg hphase]
    rfl
  | _ => rfl

/-- A run that releases everything has no timer and no child left; once it is finished, its host has
nothing left. -/
structure Emptied (r : HostRun) : Prop where
  closing : ∀ status, r.stage = .closing status →
    (r.host.resources.timers.timers = [] ∧ r.host.resources.timers.queue = []) ∧
      r.host.resources.children = [] ∧ r.host.resources.logger = .closed
  finished : ∀ status, r.stage = .finished status → r.host.Bare

theorem emptied_of_open {r : HostRun} (hopen : r.stage = .looping ∨ ∃ f, r.stage = .launching f) :
    Emptied r := by
  refine ⟨?_, ?_⟩
  · rintro status hstage
    rcases hopen with hlooping | ⟨f, hlaunching⟩
    · cases hlooping.symm.trans hstage
    · cases hlaunching.symm.trans hstage
  · rintro status hstage
    rcases hopen with hlooping | ⟨f, hlaunching⟩
    · cases hlooping.symm.trans hstage
    · cases hlaunching.symm.trans hstage

theorem emptied_conclude (h : Host) (status : Int) : Emptied (conclude h status) where
  closing := fun _ _ => ⟨⟨rfl, rfl⟩, rfl, rfl⟩
  finished := fun _ hstage => by cases hstage

theorem emptied_launched {h : Host} {file : ScriptFile} {ns : List Note} {next : HostRun}
    (hlaunches : Host.Launches h file ns next) : Emptied next := by
  cases hlaunches with
  | entered => exact emptied_of_open (Or.inl rfl)
  | _ => exact emptied_conclude _ _

variable {r : HostRun}

theorem Emptied.proceed (he : Emptied r) (hstaged : Staged r) : Emptied (r.act .proceed) := by
  have hact : r.act .proceed = r.step.getD r := rfl
  rw [hact]
  unfold step
  cases hstage : r.stage with
  | launching file =>
    simp only [Option.getD_some]
    exact emptied_launched (Host.launches (hstaged.launching file hstage).1 file)
  | looping =>
    by_cases hphase : r.host.phase = .running
    · simp only [hphase, if_true, Option.getD_none]
      exact he
    · simp only [hphase, if_false]
      rcases r.host.shutdown with ⟨result, g⟩
      cases result with
      | ok status => exact emptied_conclude g _
      | error e => exact emptied_conclude _ _
  | closing status =>
    by_cases hfinish : r.host.canFinish = true
    · simp only [hfinish, if_true, Option.getD_some]
      rcases he.closing status hstage with ⟨htimers, hchildren, hlogger⟩
      refine ⟨?_, ?_⟩
      · intro _ hclosing
        cases hclosing
      · intro _ _
        exact Host.finishRelease_bare (Host.finishRelease_released htimers hchildren hlogger)
    · simp only [hfinish, Bool.false_eq_true, if_false, Option.getD_none]
      exact he
  | finished status =>
    simp only [Option.getD_none]
    exact he

/-- Every act leaves a run with as little as its stage allows. -/
theorem Emptied.act (he : Emptied r) (hstaged : Staged r) (a : Act) : Emptied (r.act a) := by
  by_cases hproceed : a = .proceed
  · rw [hproceed]
    exact he.proceed hstaged
  · by_cases hphase : r.host.phase = .running
    · -- Only `proceed` takes a run out of its loop.
      have hstage : (r.act a).stage = .looping := by
        rw [← hstaged.running hphase]
        cases a with
        | proceed => exact absurd rfl hproceed
        | turn =>
          show r.turnLoop.stage = _
          rw [turnLoop, if_pos hphase]
          rfl
        | _ => rfl
      exact emptied_of_open (Or.inl hstage)
    · rw [act_of_waited hphase hproceed]
      have hkeeps := Host.waited_keeps r.host a
      refine ⟨?_, ?_⟩
      · intro status hstage
        rcases he.closing status hstage with ⟨htimers, hchildren, hlogger⟩
        refine ⟨?_, hkeeps.children.trans hchildren, hkeeps.logger.trans hlogger⟩
        rw [hkeeps.timers]
        exact htimers
      · intro status hstage
        exact (he.finished status hstage).waited a

end HostRun
end ScriptService
