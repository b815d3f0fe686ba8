import ScriptService.Proofs.Host.Children

/-!
# Signals over whole runs

A run sends no signal until it begins to release everything, whatever its script does; then it
dismisses the children that are watched at that moment. A child whose status was collected and is
still to be passed on is among them, so it is asked to end although it is gone: that happens when
the event loop is left between the two (`HostRun.asked_collected`). No such child is ever ended by
force.

Main statement: `HostRun.signals_lawful`.
-/

namespace ScriptService

open ChildList (Orderly Undisturbed Dismissed watched? isCollected pending)

/-! ## Acts -/

namespace HostRun

variable {past : List ChildList.Note}

/-- What the release of a host sends: if children are not to be kept, those that a history says are
watched are dismissed. -/
def Farewell (h : Host) (past : List ChildList.Note) (sent : List (Int × Nat)) : Prop :=
  if h.config.keepsChildren then sent = [] else Dismissed past sent

/-- The signals that a run has sent since its world was `world`, and the children that its history
says they were sent to. -/
structure Signalled (world : World) (r : HostRun) (h : List ChildList.Note) : Prop where
  /-- Nothing is sent before everything is released. -/
  silent : r.isOpen = true → r.host.world.signals = world.signals
  released : r.isOpen = false → ∃ later past sent, h = later ++ .released :: past ∧
    r.host.world.signals = world.signals ++ sent ∧ Farewell r.host past sent

/-- Releasing everything dismisses the children. -/
theorem signalled_conclude {world : World} {g : Host} (hg : g.Tended Orderly past)
    (hsilent : g.world.signals = world.signals) (status : Int) :
    Signalled world (conclude g status) (.released :: past) := by
  refine ⟨fun hopen => absurd hopen Bool.false_ne_true, fun _ => ?_⟩
  have hclose : ∀ w : World, (g.resources.logger.close w).2.signals = w.signals :=
    fun w => Logger.signals_close _ w
  have hworld : (conclude g status).host.world = (g.resources.logger.close
      (if g.config.keepsChildren then g.world
      else ChildList.terminateAll g.resources.children Host.terminateGrace g.world)).2 := rfl
  -- The logger is closed last, and sends nothing.
  by_cases hkeeps : g.config.keepsChildren = true
  · refine ⟨[], past, [], rfl, ?_, ?_⟩
    · rw [hworld, hclose, if_pos hkeeps, hsilent, List.append_nil]
    · exact (if_pos hkeeps).mpr rfl
  · obtain ⟨sent, hsent, hdismissed⟩ :=
      hg.tended.inStep.kept.dismiss hg.tended.inStep.lawful Host.terminateGrace
    have hterminated : (ChildList.terminateAll g.resources.children Host.terminateGrace
        g.world).signals = g.world.signals ++ sent := hsent
    refine ⟨[], past, sent, rfl, ?_, ?_⟩
    · rw [hworld, hclose, if_neg hkeeps, hterminated, hsilent]
    · exact (if_neg hkeeps).mpr hdismissed

/-- Where the way leads that a run goes on by, the signals are as they should be. -/
theorem signalled_leads {world : World} {h : Host} {ns : List ChildList.Note} {next : HostRun}
    (hleads : h.Leads ns next) (hh : h.Tended Orderly past) (hu : Undisturbed (ns ++ past))
    (hsilent : h.world.signals = world.signals) : Signalled world next (ns ++ past) := by
  cases hleads with
  | loops hpath =>
    refine ⟨fun _ => hpath.sameSignals.signals.trans hsilent, ?_⟩
    intro hclosed
    exact absurd hclosed.symm Bool.false_ne_true
  | ends hpath status =>
    have hended := hpath.tended ChildList.invariant_orderly hh hu
    exact signalled_conclude hended (hpath.sameSignals.signals.trans hsilent) status

/-- What changes neither the stage nor the settings of a run, and sends nothing. -/
theorem Signalled.still {world : World} {r : HostRun} {h ns : List ChildList.Note}
    (hr : Signalled world r h) {g : Host} (hg : g.SameSignals r.host) :
    Signalled world { r with host := g } (ns ++ h) := by
  refine ⟨fun hopen => hg.signals.trans (hr.silent hopen), fun hclosed => ?_⟩
  obtain ⟨later, past, sent, rfl, hsent, hfarewell⟩ := hr.released hclosed
  refine ⟨ns ++ later, past, sent, (List.append_assoc _ _ _).symm, hg.signals.trans hsent, ?_⟩
  unfold Farewell at hfarewell ⊢
  rw [hg.config]
  exact hfarewell

theorem Signalled.goes {world : World} {r next : HostRun} {ns : List ChildList.Note}
    (hr : Signalled world r past) (htended : Tended Orderly r past) (hgoes : Goes r ns next)
    (hu : Undisturbed (ns ++ past)) : Signalled world next (ns ++ past) := by
  cases hgoes with
  | leads hopen hleads =>
    exact signalled_leads hleads (htended.watched hopen) hu (hr.silent hopen)
  | closes status hstage =>
    have hsame : r.host.finishRelease.SameSignals r.host := ⟨rfl, rfl⟩
    have hnext : Signalled world { r with host := r.host.finishRelease } ([] ++ past) :=
      hr.still hsame
    have hclosed : r.isOpen = false := by simp [isOpen, hstage]
    exact ⟨fun hopen => absurd hopen Bool.false_ne_true, fun _ => hnext.released hclosed⟩
  | rests => exact hr

/-- Every act leaves the signals as they should be. -/
theorem Signalled.act {world : World} {r : HostRun} (hr : Signalled world r past)
    (hstaged : Staged r) (htended : Tended Orderly r past) (a : Act)
    (hu : Undisturbed (childNotes r a ++ past)) :
    Signalled world (r.act a) (childNotes r a ++ past) := by
  cases a with
  | move => exact hr.still ⟨rfl, rfl⟩
  | turn =>
    unfold childNotes HostRun.act turnLoop
    by_cases hphase : r.host.phase = .running
    · simp only [hphase, if_true]
      exact hr.still r.host.steady_turn.toSameSignals
    · simp only [hphase, if_false]
      exact hr
  | proceed => exact hr.goes htended (goes_proceed hstaged) hu
  | wait time => exact hr.still ⟨rfl, rfl⟩
  | meet m => exact hr.still ⟨rfl, rfl⟩
  | beside m => exact hr.still ⟨rfl, rfl⟩
  | stop => exact hr.still ⟨rfl, rfl⟩
  | terminate => exact hr.still ⟨rfl, rfl⟩
  | child index state announced => exact hr.still ⟨rfl, rfl⟩

/--
A run sends no signal before it releases everything. Then, unless it keeps its children, it asks
exactly those to end that are watched, each once, and ends by force only some of them; never one of
which the status was collected. Such a child is asked to end only if its status is still to be
passed on.
-/
theorem signals_lawful (config : HostConfig) (transport : Transport) (world : World)
    (file : ScriptFile) (acts : List Act)
    (hundisturbed : Undisturbed (parentage.run (fresh config transport world file) acts).2) :
    Signalled world (parentage.run (fresh config transport world file) acts).1
      (parentage.run (fresh config transport world file) acts).2 := by
  induction acts using List.reverseRecOn with
  | nil => exact ⟨fun _ => rfl, fun hclosed => absurd hclosed.symm Bool.false_ne_true⟩
  | append_singleton acts a ih =>
    have hraised := raised_run ChildList.invariant_orderly config transport world file acts
    rw [Observed.run_append_singleton] at hundisturbed ⊢
    have hbefore := hundisturbed.of_append
    exact (ih hbefore).act hraised.staged (hraised.tended hbefore) a hundisturbed

/-- A script that starts two children, and whose loop is left by the function of the first one that
ends. -/
def hastyScript : Program where
  functions := [
    ⟨"start", 0, [[
      .native none "uloop_process" [.function "done" [], .array [.constant (.string "a")]],
      .native none "uloop_process" [.function "done" [], .array [.constant (.string "b")]]]]⟩,
    ⟨"done", 1, [[.native none "uloop_end" []]]⟩]

/-- Both children have ended before the loop listens, so one sweep collects both statuses. -/
def hastyWorld : World where
  kernel := { plans := [{ start := .exited 1 }, { start := .exited 2 }] }

/-- The launch, the turn that passes on the first status, and the turn that leaves the loop. -/
def hastyActs : List Act := [.proceed, .turn, .turn]

/-- The same acts, and the release. -/
def releasedActs : List Act := hastyActs ++ [.proceed]

/-- The run of the script after some acts. -/
def hastyRun (acts : List Act) : HostRun × List ChildList.Note :=
  parentage.run (fresh {} (.memory {}) hastyWorld (.program hastyScript)) acts

/-- The status of the second child is collected with that of the first one, but the loop is left
before it is passed on: the release asks a child to end that is gone. -/
theorem asked_collected :
    isCollected 1002 (hastyRun hastyActs).2 = true ∧
      (hastyRun hastyActs).1.host.world.signals = [] ∧
      (1002, Kernel.sigTerm) ∈ (hastyRun releasedActs).1.host.world.signals := by
  decide +kernel

theorem signals_lawful_hasty :
    (hastyRun releasedActs).1.isOpen = false ∧
      Signalled hastyWorld (hastyRun releasedActs).1 (hastyRun releasedActs).2 :=
  ⟨by decide +kernel, signals_lawful {} (.memory {}) hastyWorld (.program hastyScript) releasedActs
    (by decide +kernel)⟩

end HostRun
end ScriptService
