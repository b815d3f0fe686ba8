import ScriptService.Proofs.Host.Outcome

/-!
# The operations of a host

A host is asked for one operation after the other, in any order, and between them the world goes on:
its session makes moves, time passes, children end, and others use the bus. Each operation has notes
of the script code that it runs, and does one of a few things.

Main statement: `Host.applies`.
-/

namespace ScriptService

namespace HostRun

/-- The part that a note is about. -/
def Note.part? : Note → Option Part
  | .began part _ => some part
  | .ended part _ _ => some part
  | _ => none

/-- Whether a note is about no part of the script but those that the event loop runs. -/
def Note.Aside (n : Note) : Prop := ∀ part, n.part? = some part → part.dispatched = true

theorem Note.aside_of_silent {n : Note} (h : n.part? = none) : n.Aside := by
  intro part hpart
  rw [h] at hpart
  cases hpart

/-- Whether a part ended with an exception that nothing handled. -/
def raised (result : Except Fault Value) : Bool :=
  match result with
  | .ok _ => false
  | .error _ => (exitStatus? result).isNone

theorem raised_of_exit {fault : Fault} {code : Int32} (h : fault.outcome = .exit code) :
    raised (.error fault) = false := by
  simp [raised, exitStatus?_of_exit h]

theorem raised_of_raise {fault : Fault} (h : ∀ code, fault.outcome ≠ .exit code) :
    raised (.error fault) = true := by
  simp [raised, exitStatus?_of_raise h]

end HostRun

namespace Host

open HostRun (Note raised raised_of_exit raised_of_raise)

/-! ## Operations -/

/-- What is asked of a host, and what happens beside it. -/
inductive Operation where
  | load (file : ScriptFile)
  | execute
  | start
  /-- The event loop is entered; then its turns, and what happens between them. -/
  | run (acts : List HostRun.Act)
  | shutdown
  | teardown
  /-- What happens while the session writes the replies queued for it. -/
  | close (acts : List HostRun.Act)
  | meanwhile (a : HostRun.Act)
  deriving Inhabited

/-- The phase that an operation belongs to, and its name. The release works in every phase. -/
def Operation.own? : Operation → Option (Phase × String)
  | .load _ => some (.uninitialized, "load")
  | .execute => some (.compiled, "execute")
  | .start => some (.topLevelExecuted, "start")
  | .run _ => some (.started, "run")
  | .shutdown => some (.stopRequested, "shutdown")
  | .teardown => none
  | .close _ => none
  | .meanwhile _ => none

/-- The host as a run that has nothing to go on to. -/
def alone (h : Host) : HostRun := ⟨h, .finished 0⟩

/-- What happens while the host is in its event loop. -/
def looped : Observed Host HostRun.Act Note where
  act h a := (h.alone.act a).host
  notes h a := HostRun.courseNotes h.alone a

/-- What happens while it is not: the loop takes no turns. -/
def waited : Observed Host HostRun.Act Note where
  act h
    | .turn => h
    | a => looped.act h a
  notes h
    | .turn => []
    | a => looped.notes h a

/-- Releases everything in order; what happens meanwhile. -/
def closeWhile (h : Host) (acts : List HostRun.Act) : Host :=
  if h.phase = .tornDown then h else (waited.run h.beginClose acts).1.finishRelease

/-- Asks the host for an operation; whether it fails, and the host after it. -/
def apply (h : Host) : Operation → Except HostError Unit × Host
  | .load file => h.load file
  | .execute => (h.execute.1.map fun _ => (), h.execute.2)
  | .start => (h.start.1.map fun _ => (), h.start.2)
  | .run acts =>
    match h.enter with
    | (.error e, h) => (.error e, h)
    | (.ok _, h) => (.ok (), (looped.run h acts).1)
  | .shutdown => (h.shutdown.1.map fun _ => (), h.shutdown.2)
  | .teardown => (.ok (), h.teardown)
  | .close acts => (.ok (), h.closeWhile acts)
  | .meanwhile a => (.ok (), waited.act h a)

/-- What is noted of an operation. -/
def operationNotes (h : Host) : Operation → List Note
  | .load _ => []
  | .execute => if h.phase = .compiled then h.topNotes else []
  | .start => if h.phase = .topLevelExecuted then h.startNotes else []
  | .run acts =>
    match h.enter with
    | (.error _, _) => []
    | (.ok _, h) => (looped.run h acts).2
  | .shutdown => if h.phase = .stopRequested then h.stopNotes else []
  | .teardown => if h.phase = .tornDown then [] else [.released]
  | .close acts =>
    if h.phase = .tornDown then [] else (waited.run h.beginClose acts).2 ++ [.released]
  | .meanwhile a => waited.notes h a

/-- Hosts whose operations are observed. -/
def operated : Observed Host Operation Note := ⟨fun h op => (h.apply op).2, operationNotes⟩

/-- A host to which nothing happened. -/
def new (config : HostConfig) (transport : Transport) (world : World) : Host :=
  { config, client := { transport }, machine := ⟨{}, { world }⟩ }

/-! ## What happens beside the operations -/

/-- What nothing but the operations of a host changes. -/
structure Keeps (g h : Host) : Prop where
  phase : g.phase = h.phase
  crashed : g.crashed = h.crashed
  script : g.script = h.script
  timers : g.resources.timers = h.resources.timers
  children : g.resources.children = h.resources.children
  logger : g.resources.logger = h.resources.logger
  service : g.resources.service = h.resources.service

theorem Keeps.refl (h : Host) : h.Keeps h := ⟨rfl, rfl, rfl, rfl, rfl, rfl, rfl⟩

theorem Keeps.trans {k g h : Host} (hkg : k.Keeps g) (hgh : g.Keeps h) : k.Keeps h :=
  ⟨hkg.phase.trans hgh.phase, hkg.crashed.trans hgh.crashed, hkg.script.trans hgh.script,
    hkg.timers.trans hgh.timers, hkg.children.trans hgh.children, hkg.logger.trans hgh.logger,
    hkg.service.trans hgh.service⟩

theorem waited_keeps (h : Host) (a : HostRun.Act) : (waited.act h a).Keeps h := by
  cases a with
  | move => exact ⟨rfl, rfl, rfl, rfl, rfl, rfl, rfl⟩
  | turn => exact Keeps.refl h
  | proceed => exact Keeps.refl h
  | wait time => exact ⟨rfl, rfl, rfl, rfl, rfl, rfl, rfl⟩
  | meet m => exact ⟨rfl, rfl, rfl, rfl, rfl, rfl, rfl⟩
  | beside m => exact ⟨rfl, rfl, rfl, rfl, rfl, rfl, rfl⟩
  | stop => exact ⟨rfl, rfl, rfl, rfl, rfl, rfl, rfl⟩
  | terminate => exact ⟨rfl, rfl, rfl, rfl, rfl, rfl, rfl⟩
  | child index state announced => exact ⟨rfl, rfl, rfl, rfl, rfl, rfl, rfl⟩

theorem waited_silent (h : Host) (a : HostRun.Act) : ∀ n ∈ waited.notes h a, n.part? = none := by
  intro n hn
  cases a with
  | stop =>
    obtain rfl := List.mem_singleton.1 hn
    rfl
  | terminate =>
    obtain rfl := List.mem_singleton.1 hn
    rfl
  | _ => cases hn

/-- What the code of a part does is about no part. -/
theorem code_silent (part : Part) (h : Host) :
    ∀ n ∈ part.code.notes Resources.natives Resources.seen h.machine, n.part? = none := by
  intro n hn
  rcases HostRun.code_notes part h n hn with rfl | ⟨id, time, delay, f, attached, rfl⟩
  · rfl
  · rfl

/-- A part is about nothing but itself. -/
theorem part?_of_mem_partNotes {h : Host} {part other : Part} {n : Note}
    (hn : n ∈ h.partNotes part) (hother : n.part? = some other) : other = part := by
  rcases List.mem_cons.1 hn with rfl | hn
  · cases hother
    rfl
  · rcases List.mem_append.1 hn with hcode | hbegan
    · rw [code_silent part h n hcode] at hother
      cases hother
    · obtain rfl := List.mem_singleton.1 hbegan
      cases hother
      rfl

theorem partNotes_aside (h : Host) {part : Part} (hpart : part.dispatched = true) :
    ∀ n ∈ h.partNotes part, n.Aside := by
  intro n hn other hother
  rw [part?_of_mem_partNotes hn hother]
  exact hpart

theorem Takes.aside {h g : Host} {ns : List Note} (htakes : Takes h ns g) : ∀ n ∈ ns, n.Aside := by
  cases htakes with
  | leaves =>
    intro n hn
    obtain rfl := List.mem_singleton.1 hn
    exact Note.aside_of_silent rfl
  | rests => exact fun n hn => by cases hn
  | runs part l _ _ hpart => exact partNotes_aside l hpart
  | fires id t timers l => exact partNotes_aside l rfl
  | misses => exact fun n hn => by cases hn

/-- What a turn makes of the phase and of a crash. -/
theorem Takes.phase {h g : Host} {ns : List Note} (htakes : Takes h ns g) :
    (g.phase = h.phase ∨ g.phase = .stopRequested) ∧ g.crashed = h.crashed := by
  cases htakes with
  | leaves _ _ hg => exact ⟨.inr hg.phase, hg.crashed⟩
  | rests _ hg => exact ⟨.inl hg.phase, hg.crashed⟩
  | runs part l _ _ _ _ hl hg =>
    rw [hg.phase, hg.crashed, Part.finish_phase, Part.finish_crashed]
    exact ⟨.inl hl.phase, hl.crashed⟩
  | fires id t timers l _ _ _ hl _ hg =>
    rw [hg.phase, hg.crashed, Part.finish_phase, Part.finish_crashed]
    exact ⟨.inl hl.phase, hl.crashed⟩
  | misses id timers _ _ _ hg => exact ⟨.inl hg.phase, hg.crashed⟩

/-- A host on its way through the event loop. -/
structure Looping (crashed : Bool) (h : Host) (past : List Note) : Prop where
  phase : h.phase = .running ∨ h.phase = .stopRequested
  crashed : h.crashed = crashed
  aside : ∀ n ∈ past, n.Aside

theorem Looping.act {crashed : Bool} {h : Host} {past : List Note} (hl : Looping crashed h past)
    (a : HostRun.Act) : Looping crashed (looped.act h a) (looped.notes h a ++ past) := by
  have hother (ha : a ≠ .turn) : Looping crashed (waited.act h a) (waited.notes h a ++ past) := by
    have hkeeps := waited_keeps h a
    refine ⟨by rw [hkeeps.phase]; exact hl.phase, hkeeps.crashed.trans hl.crashed, ?_⟩
    intro n hn
    rcases List.mem_append.1 hn with hn | hn
    · exact Note.aside_of_silent (waited_silent h a n hn)
    · exact hl.aside n hn
  cases a with
  | turn =>
    by_cases hphase : h.phase = .running
    · have htakes := h.takes
      have hact : looped.act h .turn = h.turn.2 := by
        simp [looped, HostRun.act, HostRun.turnLoop, alone, hphase, HostRun.onHost]
      have hnotes : looped.notes h .turn = h.turnCourse := by
        simp [looped, HostRun.courseNotes, alone, hphase]
      rw [hact, hnotes]
      refine ⟨?_, htakes.phase.2.trans hl.crashed, ?_⟩
      · rcases htakes.phase.1 with hsame | hleft
        · exact .inl (hsame.trans hphase)
        · exact .inr hleft
      · intro n hn
        rcases List.mem_append.1 hn with hn | hn
        · exact htakes.aside n hn
        · exact hl.aside n hn
    · have hact : looped.act h .turn = h := by
        simp [looped, HostRun.act, HostRun.turnLoop, alone, hphase]
      have hnotes : looped.notes h .turn = [] := by
        simp [looped, HostRun.courseNotes, alone, hphase]
      rw [hact, hnotes]
      exact hl
  | _ => exact hother (by simp)

theorem looped_looping {h : Host} (hphase : h.phase = .running) (acts : List HostRun.Act) :
    Looping h.crashed (looped.run h acts).1 (looped.run h acts).2 :=
  looped.run_invariant ⟨.inl hphase, rfl, fun _ hn => by cases hn⟩ (fun _ _ a hl => hl.act a) acts

theorem waited_run (h : Host) (acts : List HostRun.Act) :
    (waited.run h acts).1.Keeps h ∧ ∀ n ∈ (waited.run h acts).2, n.part? = none := by
  refine @Observed.run_invariant _ _ _ waited
    (fun g past => g.Keeps h ∧ ∀ n ∈ past, n.part? = none) h
    ⟨Keeps.refl h, fun _ hn => by cases hn⟩ ?_ acts
  rintro g past a ⟨hkeeps, hsilent⟩
  refine ⟨(waited_keeps g a).trans hkeeps, fun n hn => ?_⟩
  rcases List.mem_append.1 hn with hn | hn
  · exact waited_silent g a n hn
  · exact hsilent n hn

/-! ## Release -/

/-- A host that holds nothing. -/
structure Released (h : Host) : Prop where
  phase : h.phase = .tornDown
  timers : h.resources.timers.timers = [] ∧ h.resources.timers.queue = []
  children : h.resources.children = []
  logger : h.resources.logger = .closed
  service : h.resources.service = none
  script : h.script.program = {} ∧ h.script.globals = []

/-- What ends the program and the service leaves a host without timers, children and log with
nothing. -/
theorem finishRelease_released {h : Host}
    (htimers : h.resources.timers.timers = [] ∧ h.resources.timers.queue = [])
    (hchildren : h.resources.children = []) (hlogger : h.resources.logger = .closed) :
    h.finishRelease.Released :=
  ⟨rfl, htimers, hchildren, hlogger, rfl, rfl, rfl⟩

theorem teardown_released {h : Host} (hphase : h.phase ≠ .tornDown) : h.teardown.Released := by
  rw [teardown, if_neg hphase]
  exact finishRelease_released ⟨rfl, rfl⟩ rfl rfl

theorem closeWhile_released {h : Host} (hphase : h.phase ≠ .tornDown) (acts : List HostRun.Act) :
    (h.closeWhile acts).Released := by
  have hkeeps := (waited_run h.beginClose acts).1
  rw [closeWhile, if_neg hphase]
  refine finishRelease_released ?_ (hkeeps.children.trans rfl) (hkeeps.logger.trans rfl)
  rw [hkeeps.timers]
  exact ⟨rfl, rfl⟩

/-- A released host keeps holding nothing. -/
theorem Released.keeps {g h : Host} (hr : h.Released) (hkeeps : g.Keeps h) : g.Released :=
  ⟨hkeeps.phase.trans hr.phase, by rw [hkeeps.timers]; exact hr.timers,
    hkeeps.children.trans hr.children, hkeeps.logger.trans hr.logger,
    hkeeps.service.trans hr.service, by rw [hkeeps.script]; exact hr.script⟩

/-! ## What an operation does -/

/-- Whether an operation releases everything. -/
def Operation.isRelease : Operation → Bool
  | .teardown => true
  | .close _ => true
  | _ => false

/-- A result that is not the refusal of an operation out of its phase. -/
def Admitted (result : Except HostError Unit) : Prop :=
  ∀ name phase, result ≠ .error (.wrongPhase name phase)

/-- What an operation does: whether it fails, its notes, and the host after it. -/
inductive Applies (h : Host) : Operation → Except HostError Unit → List Note → Host → Prop where
  /-- The operation belongs to another phase. -/
  | refused (op : Operation) (phase : Phase) (name : String) (hown : op.own? = some (phase, name))
      (hphase : h.phase ≠ phase) : Applies h op (.error (.wrongPhase name h.phase)) [] h
  | unloaded (file : ScriptFile) (e : HostError) (hphase : h.phase = .uninitialized)
      (hfile : file.runs = false) (he : Admitted (.error e)) :
      Applies h (.load file) (.error e) [] h
  | loaded (file : ScriptFile) (script : Script) (hphase : h.phase = .uninitialized)
      (hfile : file.runs = true) :
      Applies h (.load file) (.ok ()) [] { h.withScript fun _ => script with phase := .compiled }
  | executed (result : Except HostError Unit) (g : Host) (hphase : h.phase = .compiled)
      (hresult : Admitted result) (hg : g.phase = .topLevelExecuted)
      (hcrashed : g.crashed = (h.crashed || raised (Part.top.run h.withArguments).1)) :
      Applies h .execute result h.topNotes g
  | unstarted (e : HostError) (entry : EntryPoint) (hphase : h.phase = .topLevelExecuted)
      (he : Admitted (.error e)) : Applies h .start (.error e) [.found "start" entry] h
  /-- Only a `start` that ends without an exception takes the host further. -/
  | started (f : Callback) (result : Except HostError Unit) (g : Host)
      (hphase : h.phase = .topLevelExecuted) (hresult : Admitted result)
      (hg : g.phase =
        if raised (Part.run (.start f) h).1 then .topLevelExecuted else .started)
      (hcrashed : g.crashed = (h.crashed || raised (Part.run (.start f) h).1)) :
      Applies h .start result (h.partNotes (.start f) ++ [.found "start" (.callable f)]) g
  | ran (acts : List HostRun.Act) (ns : List Note) (g : Host) (hphase : h.phase = .started)
      (hg : g.phase = .running ∨ g.phase = .stopRequested) (hcrashed : g.crashed = h.crashed)
      (hns : ∀ n ∈ ns, n.Aside) : Applies h (.run acts) (.ok ()) ns g
  | unstopped (ns : List Note) (g : Host) (hphase : h.phase = .stopRequested)
      (hg : g.phase = .stopRequested) (hcrashed : g.crashed = h.crashed)
      (hns : ∀ n ∈ ns, n.part? = none) : Applies h .shutdown (.ok ()) ns g
  /-- A script that crashed is not called again; the phase stays. -/
  | stopped (f : Callback) (g : Host) (hphase : h.phase = .stopRequested)
      (hsound : h.crashed = false) (hg : g.phase = .stopRequested) (hcrashed : g.crashed = false) :
      Applies h .shutdown (.ok ()) (h.partNotes (.stop f) ++ [.found "stop" (.callable f)]) g
  | released (op : Operation) (ns : List Note) (g : Host) (hop : op.isRelease = true)
      (hg : if h.phase = .tornDown then g = h else g.Released) (hcrashed : g.crashed = h.crashed)
      (hns : ∀ n ∈ ns, n.part? = none) : Applies h op (.ok ()) ns g
  | waited (a : HostRun.Act) (ns : List Note) (g : Host) (hkeeps : g.Keeps h)
      (hns : ∀ n ∈ ns, n.part? = none) : Applies h (.meanwhile a) (.ok ()) ns g

section

variable (h : Host)

-- Every operation has an equation of its own, by which its case is opened.
attribute [local simp] apply operationNotes startNotes

theorem applies_load (file : ScriptFile) :
    Applies h (.load file) (h.apply (.load file)).1 (h.operationNotes (.load file))
      (h.apply (.load file)).2 := by
  have hloads := h.loads file
  simp only [apply, operationNotes]
  generalize h.load file = out at hloads
  rcases out with ⟨result, g⟩
  change Loads h file result g at hloads
  cases hloads with
  | refused _ hphase => exact .refused _ _ _ rfl hphase
  | unreadable path reason hphase => exact .unloaded _ _ hphase rfl (by rintro _ _ ⟨⟩)
  | uncompiled p hphase hcompile =>
    refine .unloaded _ _ hphase ?_ (by rintro _ _ ⟨⟩)
    simpa [ScriptFile.runs, Script.compile] using hcompile
  | loaded p script hphase hcompile =>
    refine .loaded _ script hphase ?_
    by_contra hfile
    simp only [ScriptFile.runs] at hfile
    simp [Script.compile, hfile] at hcompile

theorem applies_execute :
    Applies h .execute (h.apply .execute).1 (h.operationNotes .execute) (h.apply .execute).2 := by
  have hexecutes := h.executes
  simp only [apply, operationNotes]
  generalize h.execute = out at hexecutes
  rcases out with ⟨result, g⟩
  change Executes h result g at hexecutes
  -- What script code leaves of a host has the phase and the crash it had.
  have hran : (Part.top.run h.withArguments).2.crashed = h.crashed := rfl
  cases hexecutes with
  | refused hphase =>
    rw [if_neg hphase]
    exact .refused _ _ _ rfl hphase
  | returned v next hphase hrun =>
    rw [Part.run_of_ok .top hrun] at hran
    have halike := next.executed.activateLog_alike
    rw [if_pos hphase]
    refine .executed _ _ hphase (by rintro _ _ ⟨⟩) halike.phase ?_
    rw [Part.run_of_ok .top hrun, halike.crashed]
    exact hran.trans (Bool.or_false _).symm
  | exited code next hphase hrun =>
    rcases Part.run_of_error .top hrun with ⟨fault, hfault, hexit⟩
    rw [hfault] at hran
    rw [if_pos hphase]
    refine .executed _ _ hphase (by rintro _ _ ⟨⟩) rfl ?_
    rw [hfault, raised_of_exit hexit, Bool.or_false]
    exact hran
  | uncompiled next hphase hrun =>
    rcases Part.run_of_error .top hrun with ⟨fault, hfault, hcompile⟩
    rw [if_pos hphase]
    refine .executed _ _ hphase (by rintro _ _ ⟨⟩) rfl ?_
    rw [hfault, raised_of_raise (by simp [hcompile]), Bool.or_true]
  | raised text next hphase hrun =>
    rcases Part.run_of_error .top hrun with ⟨fault, hfault, htext⟩
    rw [if_pos hphase]
    refine .executed _ _ hphase (by rintro _ _ ⟨⟩) rfl ?_
    rw [hfault, raised_of_raise (by simp [htext]), Bool.or_true]

theorem applies_start :
    Applies h .start (h.apply .start).1 (h.operationNotes .start) (h.apply .start).2 := by
  have hstarts := h.starts
  simp only [apply, operationNotes, startNotes]
  generalize h.start = out at hstarts
  rcases out with ⟨result, g⟩
  change Starts h result g at hstarts
  cases hstarts with
  | refused hphase =>
    rw [if_neg hphase]
    exact .refused _ _ _ rfl hphase
  | missing hphase hentry =>
    rw [if_pos hphase, hentry]
    exact .unstarted _ _ hphase (by rintro _ _ ⟨⟩)
  | notCallable hphase hentry =>
    rw [if_pos hphase, hentry]
    exact .unstarted _ _ hphase (by rintro _ _ ⟨⟩)
  | returned f v next hphase hentry hcall =>
    have hrun := Part.run_of_ok (.start f) hcall
    have hran : (Part.run (.start f) h).2.crashed = h.crashed := rfl
    rw [if_pos hphase, hentry]
    refine .started f _ _ hphase (by rintro _ _ ⟨⟩) (by simp [hrun, raised]) ?_
    rw [hrun] at hran ⊢
    simpa [raised] using hran
  | exited f code next hphase hentry hcall =>
    rcases Part.run_of_error (.start f) hcall with ⟨fault, hfault, hexit⟩
    have hran : (Part.run (.start f) h).2.crashed = h.crashed := rfl
    rw [if_pos hphase, hentry]
    refine .started f _ _ hphase (by rintro _ _ ⟨⟩) ?_ ?_
    · rw [hfault, raised_of_exit hexit]
      rfl
    · rw [hfault] at hran
      rw [hfault, raised_of_exit hexit, Bool.or_false]
      exact hran
  | raised f e next hphase hentry hcall he =>
    rcases Part.run_of_error (.start f) hcall with ⟨fault, hfault, rfl⟩
    have hsame : (Part.run (.start f) h).2.phase = h.phase := rfl
    rw [if_pos hphase, hentry]
    refine .started f _ _ hphase (by rintro _ _ ⟨⟩) ?_ ?_
    · rw [hfault] at hsame
      rw [hfault, raised_of_raise he, if_pos rfl]
      exact hsame.trans hphase
    · rw [hfault, raised_of_raise he, Bool.or_true]

theorem applies_run (acts : List HostRun.Act) :
    Applies h (.run acts) (h.apply (.run acts)).1 (h.operationNotes (.run acts))
      (h.apply (.run acts)).2 := by
  have henters := h.enters
  simp only [apply, operationNotes]
  generalize h.enter = out at henters
  rcases out with ⟨result, g⟩
  change Enters h result g at henters
  cases henters with
  | refused hphase => exact .refused _ _ _ rfl hphase
  | entered hphase =>
    have hlooping := looped_looping (h := { h.activateService with phase := .running }) rfl acts
    exact .ran acts _ _ hphase hlooping.phase
      (hlooping.crashed.trans h.activateService_alike.crashed) hlooping.aside

theorem found_silent (name : String) (entry : EntryPoint) :
    ∀ n ∈ [Note.found name entry], n.part? = none := by
  intro n hn
  obtain rfl := List.mem_singleton.1 hn
  rfl

theorem applies_shutdown :
    Applies h .shutdown (h.apply .shutdown).1 (h.operationNotes .shutdown)
      (h.apply .shutdown).2 := by
  have hshuts := h.shutsDown
  simp only [apply, operationNotes]
  generalize h.shutdown = out at hshuts
  rcases out with ⟨result, g⟩
  change ShutsDown h result g at hshuts
  cases hshuts with
  | refused hphase =>
    rw [if_neg hphase]
    exact .refused _ _ _ rfl hphase
  | done g hphase hstops =>
    rw [if_pos hphase]
    unfold stopNotes
    cases hstops with
    | crashed hcrashed =>
      rw [if_pos hcrashed]
      exact .unstopped _ _ hphase hphase rfl fun n hn => by cases hn
    | missing hsound hentry =>
      rw [hsound, hentry]
      exact .unstopped _ _ hphase hphase rfl (found_silent "stop" _)
    | notCallable hsound hentry =>
      rw [hsound, hentry]
      exact .unstopped _ _ hphase hphase rfl (found_silent "stop" _)
    | returned f v next hsound hentry hcall =>
      rw [Part.eq_run (.stop f) hcall, hsound, hentry]
      exact .stopped f _ hphase hsound hphase hsound
    | exited f code next hsound hentry hcall =>
      rw [Part.eq_run (.stop f) hcall, hsound, hentry]
      exact .stopped f _ hphase hsound hphase hsound
    | raised f e next hsound hentry hcall he =>
      rw [Part.eq_run (.stop f) hcall, hsound, hentry]
      exact .stopped f _ hphase hsound hphase hsound

theorem released_silent : ∀ n ∈ [Note.released], n.part? = none := by
  intro n hn
  obtain rfl := List.mem_singleton.1 hn
  rfl

theorem applies_teardown :
    Applies h .teardown (h.apply .teardown).1 (h.operationNotes .teardown)
      (h.apply .teardown).2 := by
  simp only [apply, operationNotes]
  by_cases hphase : h.phase = .tornDown
  · rw [if_pos hphase]
    have hsame : h.teardown = h := if_pos hphase
    refine .released _ _ _ rfl ?_ (by rw [hsame]) fun n hn => by cases hn
    rw [if_pos hphase, hsame]
  · have hcrashed : h.teardown.crashed = h.crashed := by
      rw [teardown, if_neg hphase]
      rfl
    rw [if_neg hphase]
    refine .released _ _ _ rfl ?_ hcrashed released_silent
    rw [if_neg hphase]
    exact teardown_released hphase

theorem applies_close (acts : List HostRun.Act) :
    Applies h (.close acts) (h.apply (.close acts)).1 (h.operationNotes (.close acts))
      (h.apply (.close acts)).2 := by
  simp only [apply, operationNotes]
  by_cases hphase : h.phase = .tornDown
  · have hsame : h.closeWhile acts = h := if_pos hphase
    rw [if_pos hphase]
    refine .released _ _ _ rfl ?_ (by rw [hsame]) fun n hn => by cases hn
    rw [if_pos hphase, hsame]
  · obtain ⟨hkeeps, hsilent⟩ := waited_run h.beginClose acts
    have hcrashed : (h.closeWhile acts).crashed = h.crashed := by
      rw [closeWhile, if_neg hphase]
      exact hkeeps.crashed
    rw [if_neg hphase]
    refine .released _ _ _ rfl ?_ hcrashed fun n hn => ?_
    · rw [if_neg hphase]
      exact closeWhile_released hphase acts
    · rcases List.mem_append.1 hn with hn | hn
      · exact hsilent n hn
      · exact released_silent n hn

/-- Every operation is refused out of its phase, or does one of a few things with its notes. -/
theorem applies (op : Operation) :
    Applies h op (h.apply op).1 (h.operationNotes op) (h.apply op).2 := by
  cases op with
  | load file => exact h.applies_load file
  | execute => exact h.applies_execute
  | start => exact h.applies_start
  | run acts => exact h.applies_run acts
  | shutdown => exact h.applies_shutdown
  | teardown => exact h.applies_teardown
  | close acts => exact h.applies_close acts
  | meanwhile a => exact .waited a _ _ (waited_keeps h a) (waited_silent h a)

end

/-! ## The loops of the host are operations -/

theorem alone_act (h : Host) (a : HostRun.Act) : h.alone.act a = (looped.act h a).alone := by
  cases a with
  | turn =>
    by_cases hphase : h.phase = .running
    · simp [looped, HostRun.act, HostRun.turnLoop, alone, hphase, HostRun.onHost]
    · simp [looped, HostRun.act, HostRun.turnLoop, alone, hphase]
  | _ => rfl

theorem foldl_alone (h : Host) (acts : List HostRun.Act) :
    acts.foldl HostRun.act h.alone = (looped.run h acts).1.alone := by
  induction acts using List.reverseRecOn with
  | nil => rfl
  | append_singleton acts a ih =>
    rw [List.foldl_concat, ih, looped.run_append_singleton, alone_act]
    rfl

theorem reaches_loopUntil (stopTime fuel : Nat) (r : HostRun) :
    HostRun.Reaches r { r with host := r.host.loopUntil stopTime fuel } := by
  have hend : ∀ (fuel : Nat) (h : Host), HostRun.Reaches { r with host := h }
      { r with host := ((h.waitUntil stopTime).stop.settle fuel) } := fun fuel h =>
    ((HostRun.reaches_act _ (.wait stopTime)).trans (HostRun.reaches_act _ .stop)).trans
      (HostRun.reaches_settleHost fuel _)
  induction fuel generalizing r with
  | zero => exact .refl r
  | succ fuel ih =>
    have hsettle := HostRun.reaches_settleHost fuel r
    unfold loopUntil
    by_cases hphase : (r.host.settle fuel).phase = .running
    · simp only [hphase, if_true]
      cases hnext : (r.host.settle fuel).nextDeadline with
      | none => exact hsettle.trans (hend fuel _)
      | some time =>
        by_cases htime : time ≤ stopTime
        · simp only [htime, if_true]
          exact (hsettle.trans (HostRun.reaches_act _ (.wait time))).trans
            (ih { r with host := (r.host.settle fuel).waitUntil time } hend)
        · simp only [htime, if_false]
          exact hsettle.trans (hend fuel _)
    · simp only [hphase, if_false]
      exact hsettle

/-- The run of a script's event loop is an operation. -/
theorem run_eq_apply (fuel duration : Nat) (h : Host) :
    ∃ acts, h.run fuel duration = h.apply (.run acts) := by
  unfold run apply
  rcases h.enter with ⟨result, g⟩
  cases result with
  | error e => exact ⟨[], rfl⟩
  | ok u =>
    obtain ⟨acts, hacts⟩ := reaches_loopUntil (g.now + duration) fuel g.alone
    rw [foldl_alone] at hacts
    have hlooped : (looped.run g acts).1 = g.loopUntil (g.now + duration) fuel :=
      congrArg HostRun.host hacts
    exact ⟨acts, by simp only [hlooped]⟩

/-- Whether waiting leads from one host to another. -/
def Waits (h g : Host) : Prop := ∃ acts, (waited.run h acts).1 = g

theorem Waits.trans {h g k : Host} (hg : Waits h g) (hk : Waits g k) : Waits h k := by
  obtain ⟨acts, rfl⟩ := hg
  obtain ⟨more, rfl⟩ := hk
  exact ⟨acts ++ more, by rw [waited.run_append]⟩

theorem waits_serve (fuel : Nat) (h : Host) : Waits h (h.serve fuel) := by
  have hwork : ∀ client : Client,
      Waits { h with client } { h with client := client.work h.now fuel } := by
    induction fuel with
    | zero => exact fun client => ⟨[], rfl⟩
    | succ fuel ih =>
      intro client
      unfold Client.work
      cases hstep : client.step h.now with
      | none => exact ⟨[], rfl⟩
      | some next =>
        have hmove : Waits { h with client } { h with client := next } := by
          have hact : waited.act { h with client } .move =
              { h with client := (client.step h.now).getD client } := rfl
          refine ⟨[.move], ?_⟩
          rw [waited.run_singleton, hact, hstep, Option.getD_some]
        exact hmove.trans (ih next)
  exact hwork h.client

/-- The release of everything in order is an operation. -/
theorem close_eq_apply (fuel : Nat) (h : Host) : ∃ acts, h.close fuel = (h.apply (.close acts)).2 := by
  simp only [close, apply, closeWhile]
  by_cases hphase : h.phase = .tornDown
  · exact ⟨[], by rw [if_pos hphase, if_pos hphase]⟩
  · simp only [if_neg hphase]
    have hserve := waits_serve fuel h.beginClose
    split
    · rename_i time _ _
      have hwait : Waits (h.beginClose.serve fuel) ((h.beginClose.serve fuel).waitUntil time) :=
        ⟨[.wait time], by rw [waited.run_singleton]; rfl⟩
      obtain ⟨acts, hacts⟩ := (hserve.trans hwait).trans (waits_serve fuel _)
      exact ⟨acts, by rw [hacts]⟩
    · obtain ⟨acts, hacts⟩ := hserve
      exact ⟨acts, by rw [hacts]⟩

end Host
end ScriptService
