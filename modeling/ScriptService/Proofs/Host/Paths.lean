import ScriptService.Proofs.Children.Dispatch
import ScriptService.Proofs.Host.Stages

/-!
# Paths through the phases

The launch of a script and the call of `stop` are paths: parts that run, with changes in between
that neither touch the children nor send a signal. A path leads into the event loop or to the
release of everything.

Main statement: `HostRun.goes_proceed`.
-/

namespace ScriptService

namespace Host

/-! ## Into the loop and out of it -/

def startChildNotes (h : Host) : List ChildList.Note :=
  match h.script.entryPoint "start" with
  | .callable f => h.partChildNotes (.start f)
  | _ => []

def stopChildNotes (h : Host) : List ChildList.Note :=
  if h.crashed then []
  else
    match h.script.entryPoint "stop" with
    | .callable f => h.partChildNotes (.stop f)
    | _ => []

/-- What is noted of children from the call of `start` on until the event loop is entered. -/
def entryChildNotes (h : Host) : List ChildList.Note :=
  match h.start with
  | (.ok none, started) =>
    match started.enter with
    | (.ok _, _) => h.startChildNotes
    | (.error _, _) => .released :: h.startChildNotes
  | _ => .released :: h.startChildNotes

/-- What is noted of children while a host comes from its script's file into the event loop. -/
def launchChildNotes (h : Host) (file : ScriptFile) : List ChildList.Note :=
  match h.load file with
  | (.error _, _) => [.released]
  | (.ok _, loaded) =>
    match loaded.execute with
    | (.ok none, executed) => executed.entryChildNotes ++ loaded.withArguments.partChildNotes .top
    | _ => .released :: loaded.withArguments.partChildNotes .top

theorem activateLog_sameChildren (h : Host) : h.activateLog.SameChildren h := by
  unfold activateLog
  split
  · exact SameChildren.refl h
  · split
    · refine ⟨rfl, ?_, rfl, rfl⟩
      exact congrArg Kernel.processes (Logger.kernel_replace _ _ _)
    · exact ⟨rfl, rfl, rfl, rfl⟩

theorem activateService_sameChildren (h : Host) : h.activateService.SameChildren h := by
  unfold activateService
  split
  · exact SameChildren.refl h
  · split
    · exact ⟨rfl, rfl, rfl, rfl⟩
    · exact ⟨rfl, rfl, rfl, rfl⟩

/-! ## Parts on the way -/

section

variable {h g : Host} {ns : List ChildList.Note}

theorem sameSignals_activateLog (h : Host) : h.activateLog.SameSignals h := by
  unfold activateLog
  split
  · exact SameSignals.refl h
  · split
    · exact ⟨Logger.signals_replace _ _ _, rfl⟩
    · exact ⟨World.signals_warn _ _ _, rfl⟩

theorem sameSignals_activateService (h : Host) : h.activateService.SameSignals h := by
  unfold activateService
  split
  · exact SameSignals.refl h
  · split
    · exact ⟨World.signals_info _ _ _, rfl⟩
    · exact ⟨World.signals_warn _ _ _, rfl⟩

/-- A part that runs on the way. -/
theorem Path.perform {next : Host} {result : Except ScriptError Value} (hpath : Path h ns g)
    (part : Part) (hcall : g.perform (part.code Resources Resources.natives) = (result, next)) :
    Path h (g.partChildNotes part ++ ns) next := by
  rw [Part.eq_run part hcall]
  exact hpath.ran part

theorem Path.executes {next : Host} {result : Except HostError (Option Int32)}
    (hpath : Path h ns g) (hphase : g.phase = .compiled) (hexecutes : Executes g result next) :
    Path h (g.withArguments.partChildNotes .top ++ ns) next := by
  have harguments : Path h ns g.withArguments := hpath.still ⟨rfl, rfl, rfl, rfl⟩ ⟨rfl, rfl⟩
  cases hexecutes with
  | refused hother => exact absurd hphase hother
  | returned v next _ hrun =>
    have hexecuted : Path h (g.withArguments.partChildNotes .top ++ ns) next.executed :=
      (harguments.perform .top hrun).still ⟨rfl, rfl, rfl, rfl⟩ ⟨rfl, rfl⟩
    exact hexecuted.still (activateLog_sameChildren _) (sameSignals_activateLog _)
  | exited code next _ hrun =>
    exact (harguments.perform .top hrun).still ⟨rfl, rfl, rfl, rfl⟩ ⟨rfl, rfl⟩
  | uncompiled next _ hrun =>
    exact (harguments.perform .top hrun).still ⟨rfl, rfl, rfl, rfl⟩ ⟨rfl, rfl⟩
  | raised text next _ hrun =>
    exact (harguments.perform .top hrun).still ⟨rfl, rfl, rfl, rfl⟩ ⟨rfl, rfl⟩

theorem Path.starts {next : Host} {result : Except HostError (Option Int32)}
    (hpath : Path h ns g) (hphase : g.phase = .topLevelExecuted) (hstarts : Starts g result next) :
    Path h (g.startChildNotes ++ ns) next := by
  unfold startChildNotes
  cases hstarts with
  | refused hother => exact absurd hphase hother
  | missing _ hentry =>
    rw [hentry]
    exact hpath
  | notCallable _ hentry =>
    rw [hentry]
    exact hpath
  | returned f v next _ hentry hcall =>
    rw [hentry]
    exact (hpath.perform (.start f) hcall).still ⟨rfl, rfl, rfl, rfl⟩ ⟨rfl, rfl⟩
  | exited f code next _ hentry hcall =>
    rw [hentry]
    exact (hpath.perform (.start f) hcall).still ⟨rfl, rfl, rfl, rfl⟩ ⟨rfl, rfl⟩
  | raised f e next _ hentry hcall he =>
    rw [hentry]
    exact (hpath.perform (.start f) hcall).still ⟨rfl, rfl, rfl, rfl⟩ ⟨rfl, rfl⟩

theorem Path.stops {next : Host} (hpath : Path h ns g) (hstops : Stops g next) :
    Path h (g.stopChildNotes ++ ns) next := by
  unfold stopChildNotes
  cases hstops with
  | crashed hcrashed =>
    rw [if_pos hcrashed]
    exact hpath
  | missing hcrashed hentry =>
    rw [hcrashed, hentry]
    exact hpath
  | notCallable hcrashed hentry =>
    rw [hcrashed, hentry]
    exact hpath.still ⟨rfl, rfl, rfl, rfl⟩ ⟨World.signals_warn _ _ _, rfl⟩
  | returned f v next hcrashed hentry hcall =>
    rw [hcrashed, hentry]
    exact hpath.perform (.stop f) hcall
  | exited f code next hcrashed hentry hcall =>
    rw [hcrashed, hentry]
    exact (hpath.perform (.stop f) hcall).still ⟨rfl, rfl, rfl, rfl⟩ ⟨rfl, rfl⟩
  | raised f e next hcrashed hentry hcall he =>
    rw [hcrashed, hentry]
    exact (hpath.perform (.stop f) hcall).still ⟨rfl, rfl, rfl, rfl⟩ ⟨World.signals_error _ _ _, rfl⟩

/-- Where a path leads: into the event loop, or to the release of everything. -/
inductive Leads (h : Host) : List ChildList.Note → HostRun → Prop where
  | loops {ns : List ChildList.Note} {g : Host} (hpath : Path h ns g) : Leads h ns ⟨g, .looping⟩
  | ends {ns : List ChildList.Note} {g : Host} (hpath : Path h ns g) (status : Int) :
      Leads h (.released :: ns) (HostRun.conclude g status)

/-- An error is reported on the way out. -/
theorem Leads.fails (hpath : Path h ns g) (e : HostError) :
    Leads h (.released :: ns) (HostRun.fail g e) := by
  have hreported : Path h ns (g.inWorld fun w => w.writeError e.report) :=
    hpath.still ⟨rfl, rfl, rfl, rfl⟩ ⟨rfl, rfl⟩
  exact .ends hreported _

theorem leads_startAndEnter (hpath : Path h ns g) (hphase : g.phase = .topLevelExecuted) :
    Leads h (g.entryChildNotes ++ ns) g.startAndEnter := by
  have hstarts := g.starts
  unfold entryChildNotes startAndEnter
  rcases hstart : g.start with ⟨result, started⟩
  rw [hstart] at hstarts
  change Starts g result started at hstarts
  have hstarted := hpath.starts hphase hstarts
  cases result with
  | error e => exact .fails hstarted e
  | ok asked =>
    cases asked with
    | some status => exact .ends hstarted _
    | none =>
      have henters := started.enters
      rcases henter : started.enter with ⟨result, entered⟩
      rw [henter] at henters
      change Enters started result entered at henters
      simp only [henter]
      cases henters with
      | refused hother => exact .fails hstarted _
      | entered _ =>
        have hactive := hstarted.still started.activateService_sameChildren
          started.sameSignals_activateService
        exact .loops (hactive.still ⟨rfl, rfl, rfl, rfl⟩ ⟨rfl, rfl⟩)

theorem leads_execute (hpath : Path h ns g) (hphase : g.phase = .compiled) :
    Leads h
      ((match g.execute with
      | (.ok none, executed) => executed.entryChildNotes ++ g.withArguments.partChildNotes .top
      | _ => .released :: g.withArguments.partChildNotes .top) ++ ns)
      (match g.execute with
      | (.error e, h) => HostRun.fail h e
      | (.ok (some status), h) => HostRun.conclude h status.toInt
      | (.ok none, h) => h.startAndEnter) := by
  have hexecutes := g.executes
  rcases hexecute : g.execute with ⟨result, executed⟩
  rw [hexecute] at hexecutes
  change Executes g result executed at hexecutes
  have hexecuted := hpath.executes hphase hexecutes
  cases result with
  | error e => exact .fails hexecuted e
  | ok asked =>
    cases asked with
    | some status => exact .ends hexecuted _
    | none =>
      simp only [List.append_assoc]
      refine leads_startAndEnter hexecuted ?_
      cases hexecutes with
      | returned v next _ _ => exact (activateLog_alike _).phase

/-- The launch of a script leads into the loop or to the release. -/
theorem leads_launch (hphase : h.phase = .uninitialized) (file : ScriptFile) :
    Leads h (h.launchChildNotes file) (HostRun.launch h file) := by
  have hloads := h.loads file
  unfold launchChildNotes HostRun.launch
  rcases hload : h.load file with ⟨result, loaded⟩
  rw [hload] at hloads
  change Loads h file result loaded at hloads
  cases hloads with
  | refused _ hother => exact absurd hphase hother
  | unreadable path reason _ => exact .fails .begins _
  | uncompiled p _ _ => exact .fails .begins _
  | loaded p script _ _ =>
    have hloaded : Path h [] { h.withScript fun _ => script with phase := .compiled } :=
      Path.begins.still ⟨rfl, rfl, rfl, rfl⟩ ⟨rfl, rfl⟩
    have hleads := leads_execute hloaded rfl
    rw [List.append_nil] at hleads
    exact hleads

/-- The call of `stop` leads to the release. -/
theorem leads_shutdown (hphase : h.phase = .stopRequested) :
    Leads h (.released :: h.stopChildNotes)
      (match h.shutdown with
      | (.ok status, h) => HostRun.conclude h status.toInt
      | (.error e, h) => HostRun.fail h e) := by
  have hshuts := h.shutsDown
  rcases hshutdown : h.shutdown with ⟨result, next⟩
  rw [hshutdown] at hshuts
  change ShutsDown h result next at hshuts
  cases hshuts with
  | refused hother => exact absurd hphase hother
  | done next _ hstops =>
    have hpath := Path.begins.stops hstops
    rw [List.append_nil] at hpath
    exact .ends hpath _

end

end Host

/-! ## From stage to stage -/

namespace HostRun

/-- What is noted of children when a run goes on to its next stage. -/
def proceedChildNotes (r : HostRun) : List ChildList.Note :=
  match r.stage with
  | .launching file => r.host.launchChildNotes file
  | .looping =>
    match r.host.phase with
    | .running => []
    | .stopRequested => .released :: r.host.stopChildNotes
    | _ => [.released]
  | .closing _ => []
  | .finished _ => []

/-- Whether a run has not begun to release everything. -/
def isOpen (r : HostRun) : Bool :=
  match r.stage with
  | .launching _ => true
  | .looping => true
  | .closing _ => false
  | .finished _ => false

/-- Where a run goes when it goes on to its next stage. -/
inductive Goes (r : HostRun) : List ChildList.Note → HostRun → Prop where
  | leads {ns : List ChildList.Note} {next : HostRun} (hopen : r.isOpen = true)
      (hleads : r.host.Leads ns next) : Goes r ns next
  | closes (status : Int) (hstage : r.stage = .closing status) :
      Goes r [] ⟨r.host.finishRelease, .finished status⟩
  | rests : Goes r [] r

theorem goes_proceed {r : HostRun} (hstaged : Staged r) :
    Goes r r.proceedChildNotes (r.step.getD r) := by
  unfold proceedChildNotes step
  cases hstage : r.stage with
  | launching file =>
    have hopen : r.isOpen = true := by simp [isOpen, hstage]
    exact .leads hopen (Host.leads_launch (hstaged.launching file hstage).1 file)
  | looping =>
    have hopen : r.isOpen = true := by simp [isOpen, hstage]
    rcases (hstaged.looping hstage).1 with hphase | hphase
    · simp only [hphase, if_true, Option.getD_none]
      exact .rests
    · have hleads := r.host.leads_shutdown hphase
      simp only [hphase, reduceCtorEq, if_false]
      rcases hshutdown : r.host.shutdown with ⟨result, g⟩
      rw [hshutdown] at hleads
      cases result with
      | ok status => exact .leads hopen hleads
      | error e => exact .leads hopen hleads
  | closing status =>
    simp only
    split
    · exact .closes status hstage
    · exact .rests
  | finished status => exact .rests

end HostRun
end ScriptService
