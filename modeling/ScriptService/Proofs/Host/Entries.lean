import ScriptService.Proofs.Host.Lifecycle
import ScriptService.Proofs.Host.Numbers
import ScriptService.Proofs.Host.Timers
import ScriptService.Proofs.Script.Globals

/-!
# Timers, children and the service over operations

However a host is used, its timers and its children stay in step with their histories, and its
service is the one that the global scope declares, from the entry into the event loop until the
release. What an operation makes of a host is said once (`Host.Performs`); timers, children and the
service each go by its cases.

Main statements: `Host.performs`, `Host.timed_operated`, `Host.tended_operated`,
`Host.served_operated` and `HostRun.declared_run`.
-/

namespace ScriptService

namespace Host

open ChildList (Numbered)
open HostRun (Note)

/-! ## What is noted of children -/

/-- While the host is in its event loop, the loop takes a turn, or something happens beside it. -/
theorem looped_cases (h : Host) (a : HostRun.Act) :
    (a = .turn ∧ h.phase = .running ∧ looped.act h a = h.turn.2 ∧
        looped.notes h a = h.turnCourse) ∨
      (looped.act h a = waited.act h a ∧ looped.notes h a = waited.notes h a) := by
  cases a with
  | turn =>
    by_cases hphase : h.phase = .running
    · refine Or.inl ⟨rfl, hphase, ?_, ?_⟩
      · simp [looped, HostRun.act, HostRun.turnLoop, alone, hphase, HostRun.onHost]
      · simp [looped, HostRun.courseNotes, alone, hphase]
    · refine Or.inr ⟨?_, ?_⟩
      · simp [looped, waited, HostRun.act, HostRun.turnLoop, alone, hphase]
      · simp [looped, waited, HostRun.courseNotes, alone, hphase]
  | _ => exact Or.inr ⟨rfl, rfl⟩

/-- What is noted of children beside a host. -/
def childrenWaited : Observed Host HostRun.Act ChildList.Note where
  act := waited.act
  notes h
    | .child index state _ => h.world.kernel.changeNotes index state
    | _ => []

/-- What is noted of children while a host is in its event loop. -/
def childrenLooped : Observed Host HostRun.Act ChildList.Note where
  act := looped.act
  notes h a := HostRun.childNotes h.alone a

/-- What is noted of children in an operation. -/
def operationChildNotes (h : Host) : Operation → List ChildList.Note
  | .load _ => []
  | .execute => if h.phase = .compiled then h.withArguments.partChildNotes .top else []
  | .start => if h.phase = .topLevelExecuted then h.startChildNotes else []
  | .run acts =>
    match h.enter with
    | (.error _, _) => []
    | (.ok _, h) => (childrenLooped.run h acts).2
  | .shutdown => if h.phase = .stopRequested then h.stopChildNotes else []
  | .teardown => if h.phase = .tornDown then [] else [.released]
  | .close acts =>
    if h.phase = .tornDown then [] else (childrenWaited.run h.beginClose acts).2 ++ [.released]
  | .meanwhile a => childrenWaited.notes h a

/-- Hosts whose operations are observed for children. -/
def reared : Observed Host Operation ChildList.Note := ⟨operated.act, operationChildNotes⟩

/-- While the host is in its event loop, its children are noted of in a turn, or beside it. -/
theorem childrenLooped_cases (h : Host) (a : HostRun.Act) :
    (childrenLooped.act h a = h.turn.2 ∧ childrenLooped.notes h a = h.turnChildNotes) ∨
      (childrenLooped.act h a = waited.act h a ∧
        childrenLooped.notes h a = childrenWaited.notes h a) := by
  cases a with
  | turn =>
    by_cases hphase : h.phase = .running
    · refine Or.inl ⟨?_, ?_⟩
      · simp [childrenLooped, looped, HostRun.act, HostRun.turnLoop, alone, hphase, HostRun.onHost]
      · simp [childrenLooped, HostRun.childNotes, alone, hphase]
    · refine Or.inr ⟨?_, ?_⟩
      · simp [childrenLooped, looped, waited, HostRun.act, HostRun.turnLoop, alone, hphase]
      · simp [childrenLooped, childrenWaited, HostRun.childNotes, alone, hphase]
  | _ => exact Or.inr ⟨rfl, rfl⟩

theorem childrenWaited_run_fst (h : Host) (acts : List HostRun.Act) :
    (childrenWaited.run h acts).1 = (waited.run h acts).1 := by
  have hact : childrenWaited.act = waited.act := rfl
  exact Observed.run_fst_eq hact h acts

theorem childrenLooped_run_fst (h : Host) (acts : List HostRun.Act) :
    (childrenLooped.run h acts).1 = (looped.run h acts).1 := by
  have hact : childrenLooped.act = looped.act := rfl
  exact Observed.run_fst_eq hact h acts

theorem reared_run_fst (h : Host) (ops : List Operation) :
    (reared.run h ops).1 = (operated.run h ops).1 := by
  have hact : reared.act = operated.act := rfl
  exact Observed.run_fst_eq hact h ops

/-! ## Operations -/

/-- The host that has entered its event loop. -/
def entered (h : Host) : Host := { h.activateService with phase := .running }

/-- What an operation makes of a host, with what is noted of it and of children. -/
inductive Performs (h : Host) :
    Operation → List Note → List ChildList.Note → Host → Prop where
  /-- The operation is refused, or there is nothing left to release. -/
  | none (op : Operation) : Performs h op [] [] h
  | loaded (file : ScriptFile) (script : Script) (hphase : h.phase = .uninitialized) :
      Performs h (.load file) [] [] { h.withScript fun _ => script with phase := .compiled }
  | executed {result : Except HostError (Option Int32)} {g : Host} (hphase : h.phase = .compiled)
      (hexecutes : Executes h result g) :
      Performs h .execute h.topNotes (h.withArguments.partChildNotes .top) g
  | started {result : Except HostError (Option Int32)} {g : Host}
      (hphase : h.phase = .topLevelExecuted) (hstarts : Starts h result g) :
      Performs h .start h.startNotes h.startChildNotes g
  | ran (acts : List HostRun.Act) (hphase : h.phase = .started) :
      Performs h (.run acts) (looped.run h.entered acts).2 (childrenLooped.run h.entered acts).2
        (looped.run h.entered acts).1
  | stopped {g : Host} (hphase : h.phase = .stopRequested) (hstops : Stops h g) :
      Performs h .shutdown h.stopNotes h.stopChildNotes g
  | tornDown (hphase : h.phase ≠ .tornDown) :
      Performs h .teardown [.released] [.released]
        { h.releaseLocal with client := h.releaseLocal.client.abort h.releaseLocal.now }.finishRelease
  | closed (acts : List HostRun.Act) (hphase : h.phase ≠ .tornDown) :
      Performs h (.close acts) ((waited.run h.beginClose acts).2 ++ [.released])
        ((childrenWaited.run h.beginClose acts).2 ++ [.released])
        (waited.run h.beginClose acts).1.finishRelease
  | waited (a : HostRun.Act) :
      Performs h (.meanwhile a) (waited.notes h a) (childrenWaited.notes h a) (waited.act h a)

theorem performs (h : Host) (op : Operation) :
    Performs h op (h.operationNotes op) (h.operationChildNotes op) (h.apply op).2 := by
  cases op with
  | load file =>
    have hloads := h.loads file
    show Performs h (.load file) [] [] (h.load file).2
    generalize h.load file = out at hloads
    rcases out with ⟨result, g⟩
    change Loads h file result g at hloads
    cases hloads with
    | loaded p script hphase => exact .loaded _ script hphase
    | _ => exact .none _
  | execute =>
    have hexecutes := h.executes
    simp only [operationNotes, operationChildNotes]
    by_cases hphase : h.phase = .compiled
    · rw [if_pos hphase, if_pos hphase]
      exact .executed hphase hexecutes
    · have hrefused : h.apply .execute = (.error (.wrongPhase "execute" h.phase), h) ∧
          h.operationNotes .execute = [] := apply_refused rfl hphase
      rw [if_neg hphase, if_neg hphase, hrefused.1]
      exact .none _
  | start =>
    have hstarts := h.starts
    simp only [operationNotes, operationChildNotes]
    by_cases hphase : h.phase = .topLevelExecuted
    · rw [if_pos hphase, if_pos hphase]
      exact .started hphase hstarts
    · have hrefused : h.apply .start = (.error (.wrongPhase "start" h.phase), h) ∧
          h.operationNotes .start = [] := apply_refused rfl hphase
      rw [if_neg hphase, if_neg hphase, hrefused.1]
      exact .none _
  | run acts =>
    have henters := h.enters
    simp only [Host.apply, operationNotes, operationChildNotes]
    generalize h.enter = out at henters
    rcases out with ⟨result, g⟩
    change Enters h result g at henters
    cases henters with
    | refused => exact .none _
    | entered hphase => exact .ran acts hphase
  | shutdown =>
    have hshuts := h.shutsDown
    simp only [Host.apply, operationNotes, operationChildNotes]
    generalize h.shutdown = out at hshuts
    rcases out with ⟨result, g⟩
    change ShutsDown h result g at hshuts
    cases hshuts with
    | refused hphase =>
      rw [if_neg hphase, if_neg hphase]
      exact .none _
    | done g hphase hstops =>
      rw [if_pos hphase, if_pos hphase]
      exact .stopped hphase hstops
  | teardown =>
    simp only [Host.apply, operationNotes, operationChildNotes, teardown]
    by_cases hphase : h.phase = .tornDown
    · simp only [if_pos hphase]
      exact .none _
    · simp only [if_neg hphase]
      exact .tornDown hphase
  | close acts =>
    simp only [Host.apply, operationNotes, operationChildNotes, closeWhile]
    by_cases hphase : h.phase = .tornDown
    · simp only [if_pos hphase]
      exact .none _
    · simp only [if_neg hphase]
      exact .closed acts hphase
  | meanwhile a => exact .waited a

/-! ## Timers -/

section

variable {h g : Host} {past : List Note}

/-- What happens beside a host takes time, and leaves its timers alone. -/
theorem Timed.waited (ht : h.Timed past) (a : HostRun.Act) :
    (waited.act h a).Timed (waited.notes h a ++ past) := by
  cases a with
  | wait time => exact Resources.Timed.later ht (Or.inl rfl) (Nat.le_max_left _ _)
  | move => exact Resources.Timed.same ht rfl rfl
  | turn => exact ht
  | proceed => exact ht
  | meet m => exact Resources.Timed.same ht rfl rfl
  | beside m => exact Resources.Timed.same ht rfl rfl
  | stop => exact Resources.Timed.same ht rfl rfl
  | terminate => exact Resources.Timed.same ht rfl rfl
  | child index state announced => exact Resources.Timed.same ht rfl rfl

theorem Timed.looped (ht : h.Timed past) (a : HostRun.Act) :
    (looped.act h a).Timed (looped.notes h a ++ past) := by
  rcases h.looped_cases a with ⟨-, -, hact, hnotes⟩ | ⟨hact, hnotes⟩
  · rw [hact, hnotes]
    exact ht.takes h.takes
  · rw [hact, hnotes]
    exact ht.waited a

theorem Timed.executes {result : Except HostError (Option Int32)} (ht : h.Timed past)
    (hphase : h.phase = .compiled) (hexecutes : Executes h result g) :
    g.Timed (h.topNotes ++ past) := by
  have harguments : h.withArguments.Timed past := ht
  have htop : (Part.top.run h.withArguments).2.Timed (h.topNotes ++ past) := harguments.run rfl
  cases hexecutes with
  | refused hother => exact absurd hphase hother
  | returned v next _ hrun =>
    rw [← Part.eq_run .top hrun] at htop
    have hexecuted : next.executed.Timed (h.topNotes ++ past) := htop
    exact hexecuted.alike next.executed.activateLog_alike
  | exited code next _ hrun =>
    rw [← Part.eq_run .top hrun] at htop
    exact htop
  | uncompiled next _ hrun =>
    rw [← Part.eq_run .top hrun] at htop
    exact Resources.Timed.same htop rfl rfl
  | raised text next _ hrun =>
    rw [← Part.eq_run .top hrun] at htop
    exact Resources.Timed.same htop rfl rfl

theorem Timed.starts {result : Except HostError (Option Int32)} (ht : h.Timed past)
    (hphase : h.phase = .topLevelExecuted) (hstarts : Starts h result g) :
    g.Timed (h.startNotes ++ past) := by
  have hstart : ∀ f, (Part.run (.start f) h).2.Timed
      (h.partNotes (.start f) ++ [.found "start" (.callable f)] ++ past) := by
    intro f
    have hfound : h.Timed (.found "start" (.callable f) :: past) := ht
    rw [List.append_assoc]
    exact hfound.run rfl
  unfold startNotes
  cases hstarts with
  | refused hother => exact absurd hphase hother
  | missing _ hentry =>
    rw [hentry]
    exact ht
  | notCallable _ hentry =>
    rw [hentry]
    exact ht
  | returned f v next _ hentry hcall =>
    rw [hentry, Part.eq_run (.start f) hcall]
    exact hstart f
  | exited f code next _ hentry hcall =>
    rw [hentry, Part.eq_run (.start f) hcall]
    exact hstart f
  | raised f e next _ hentry hcall he =>
    rw [hentry, Part.eq_run (.start f) hcall]
    exact hstart f

theorem Timed.stops (ht : h.Timed past) (hstops : Stops h g) : g.Timed (h.stopNotes ++ past) := by
  have hstop : ∀ f, (Part.run (.stop f) h).2.Timed
      (h.partNotes (.stop f) ++ [.found "stop" (.callable f)] ++ past) := by
    intro f
    have hfound : h.Timed (.found "stop" (.callable f) :: past) := ht
    rw [List.append_assoc]
    exact hfound.run rfl
  unfold stopNotes
  cases hstops with
  | crashed hcrashed =>
    rw [if_pos hcrashed]
    exact ht
  | missing hsound hentry =>
    rw [hsound, hentry]
    exact ht
  | notCallable hsound hentry =>
    rw [hsound, hentry]
    exact Resources.Timed.same ht rfl rfl
  | returned f v next hsound hentry hcall =>
    rw [hsound, hentry, Part.eq_run (.stop f) hcall]
    exact hstop f
  | exited f code next hsound hentry hcall =>
    rw [hsound, hentry, Part.eq_run (.stop f) hcall]
    exact Resources.Timed.same (hstop f) rfl rfl
  | raised f e next hsound hentry hcall he =>
    rw [hsound, hentry, Part.eq_run (.stop f) hcall]
    exact Resources.Timed.same (hstop f) rfl rfl

/-- Time passes beside a host, and its timers stay in step. -/
theorem Timed.waited_run (ht : h.Timed past) (acts : List HostRun.Act) :
    (Host.waited.run h acts).1.Timed ((Host.waited.run h acts).2 ++ past) :=
  Host.waited.run_invariant_from ht (fun _ _ a (_ : True) hg => hg.waited a) fun _ _ => trivial

/-- Every operation keeps the timers in step. -/
theorem Timed.performs {op : Operation} {ns : List Note} {childNotes : List ChildList.Note}
    (ht : h.Timed past) (hperforms : Performs h op ns childNotes g) : g.Timed (ns ++ past) := by
  cases hperforms with
  | none => exact ht
  | loaded => exact ht
  | executed hphase hexecutes => exact ht.executes hphase hexecutes
  | started hphase hstarts => exact ht.starts hphase hstarts
  | ran acts =>
    have hactive : h.activateService.Timed past := ht.alike h.activateService_alike
    have hentered : h.entered.Timed past := hactive
    exact Host.looped.run_invariant_from hentered (fun _ _ a (_ : True) hg => hg.looped a)
      fun _ _ => trivial
  | stopped _ hstops => exact ht.stops hstops
  | tornDown => exact Resources.Timed.same ht.releaseLocal rfl rfl
  | closed acts =>
    have hbegun : h.beginClose.Timed (.released :: past) := ht.releaseLocal
    rw [List.append_assoc]
    exact Resources.Timed.same (hbegun.waited_run acts) rfl rfl
  | waited a => exact ht.waited a

/-- However a host is used, its timers are in step with their history. -/
theorem timed_operated (config : HostConfig) (transport : Transport) (world : World)
    (ops : List Operation) :
    (operated.run (new config transport world) ops).1.Timed
      (operated.run (new config transport world) ops).2 :=
  operated.run_invariant ⟨TimerList.kept_init, .init _, rfl⟩
    (fun g _ op ht => ht.performs (g.performs op)) ops

end

/-! ## Children -/

section

variable {h g : Host} {ready : List (Int × Int)} {past : List ChildList.Note}

/-- What happens beside a host leaves its children in the list; the system may tell of one. -/
theorem tended_waited (hr : h.resources.Tended Numbered ready past) (a : HostRun.Act) :
    (waited.act h a).resources.Tended Numbered ready (childrenWaited.notes h a ++ past) := by
  have hsame : (waited.act h a).resources.Tended Numbered ready past := by
    refine ⟨⟨?_, hr.inStep.possible⟩, hr.queued⟩
    rw [(waited_keeps h a).children]
    exact hr.inStep.listed
  cases a with
  -- Only here is something noted, and no child is started or called by it.
  | child index state announced =>
    refine ⟨⟨?_, hr.inStep.possible.changeNotes _ index state⟩, ?_⟩
    · exact hsame.inStep.listed.same fun q => ChildList.watched?_changeNotes _ index state q past
    · exact (ChildList.pending_changeNotes _ index state past).trans hr.queued
  | _ => exact hsame

theorem tended_waited_run (hr : h.resources.Tended Numbered ready past) (acts : List HostRun.Act) :
    (waited.run h acts).1.resources.Tended Numbered ready
      ((childrenWaited.run h acts).2 ++ past) := by
  have hrun := @Observed.run_invariant_from _ _ _ childrenWaited
    (fun g past => g.resources.Tended Numbered ready past) (fun _ => True) h past hr
    (fun _ _ a _ hg => tended_waited hg a) acts fun _ _ => trivial
  rwa [childrenWaited_run_fst] at hrun

theorem Tended.waited (hh : h.Tended Numbered past) (a : HostRun.Act) :
    (waited.act h a).Tended Numbered (childrenWaited.notes h a ++ past) := by
  have htended := tended_waited hh.tended a
  cases a with
  | _ => exact ⟨htended, hh.idle⟩

theorem Tended.looped (hh : h.Tended Numbered past) (a : HostRun.Act) :
    (childrenLooped.act h a).Tended Numbered (childrenLooped.notes h a ++ past) := by
  rcases h.childrenLooped_cases a with ⟨hact, hnotes⟩ | ⟨hact, hnotes⟩
  · rw [hact, hnotes]
    exact hh.turn ChildList.invariant_numbered trivial
  · rw [hact, hnotes]
    exact hh.waited a

theorem Tended.looped_run (hh : h.Tended Numbered past) (acts : List HostRun.Act) :
    (childrenLooped.run h acts).1.Tended Numbered ((childrenLooped.run h acts).2 ++ past) :=
  childrenLooped.run_invariant_from hh (fun _ _ a (_ : True) hg => hg.looped a) fun _ _ => trivial

/-- A host that begins to release everything watches no child any more. -/
theorem Tended.releaseLocal (hh : h.Tended Numbered past) :
    h.releaseLocal.resources.Tended Numbered [] (.released :: past) :=
  ⟨ChildList.invariant_numbered.release hh.tended.inStep _, rfl⟩

theorem tended_finishRelease (hr : h.resources.Tended Numbered [] past) :
    h.finishRelease.Tended Numbered past :=
  ⟨⟨hr.inStep, hr.queued⟩, fun _ => rfl⟩

theorem Path.numbered {ns : List ChildList.Note} (hpath : Path h ns g)
    (hh : h.Tended Numbered past) : g.Tended Numbered (ns ++ past) :=
  hpath.tended ChildList.invariant_numbered hh trivial

/-- Every operation keeps the children in step. -/
theorem Tended.performs {op : Operation} {ns : List Note} {childNotes : List ChildList.Note}
    (hh : h.Tended Numbered past) (hperforms : Performs h op ns childNotes g) :
    g.Tended Numbered (childNotes ++ past) := by
  cases hperforms with
  | none => exact hh
  | loaded => exact hh.same ⟨rfl, rfl, rfl, rfl⟩
  | executed hphase hexecutes =>
    have hpath := Path.begins.executes hphase hexecutes
    rw [List.append_nil] at hpath
    exact hpath.numbered hh
  | started hphase hstarts =>
    have hpath := Path.begins.starts hphase hstarts
    rw [List.append_nil] at hpath
    exact hpath.numbered hh
  | ran acts =>
    have hactive : h.activateService.Tended Numbered past := hh.same h.activateService_sameChildren
    have hentered : h.entered.Tended Numbered past := hactive.same ⟨rfl, rfl, rfl, rfl⟩
    have hlooped := hentered.looped_run acts
    rwa [childrenLooped_run_fst] at hlooped
  | stopped _ hstops =>
    have hpath := Path.begins.stops hstops
    rw [List.append_nil] at hpath
    exact hpath.numbered hh
  | tornDown => exact tended_finishRelease hh.releaseLocal
  | closed acts =>
    have hbegun : h.beginClose.resources.Tended Numbered [] (.released :: past) := hh.releaseLocal
    rw [List.append_assoc]
    exact tended_finishRelease (tended_waited_run hbegun acts)
  | waited a => exact hh.waited a

/-- However a host is used, its children are in step with their history. -/
theorem tended_operated (config : HostConfig) (transport : Transport) (world : World)
    (ops : List Operation) :
    (operated.run (new config transport world) ops).1.Tended Numbered
      (reared.run (new config transport world) ops).2 := by
  have hinit : (new config transport world).Tended Numbered [] :=
    ⟨⟨ChildList.invariant_numbered.init _, rfl⟩, fun _ => rfl⟩
  rw [← reared_run_fst]
  exact reared.run_invariant hinit (fun g _ op hh => hh.performs (g.performs op)) ops

end

/-! ## The service -/

/-- The service that a host has to publish: what the global scope declares, from the entry into the
event loop until the release. -/
def activeService? (h : Host) : Option ServiceDeclaration :=
  if h.phase = .running ∨ h.phase = .stopRequested then
    (h.script.global? ServiceDeclaration.global).bind fun v =>
      (ServiceDeclaration.ofValue? v).toOption
  else none

/-- The host publishes the service that it has to. -/
def Served (h : Host) : Prop := h.resources.service = h.activeService?

section

variable {h g : Host} {ns : List Note}

/-- Only the top level of a script defines global values. -/
theorem run_globals {part : Part} (hpart : part ≠ .top) (h : Host) :
    (part.run h).2.script.globals = h.script.globals := by
  cases part with
  | top => exact absurd rfl hpart
  | start f => exact Interpreter.callBack_scoped _ _ f _ h.machine
  | timer id f args => exact Interpreter.callBack_scoped _ _ f args h.machine
  | child f args held => exact Interpreter.callBack_scoped _ held f args h.machine
  | hook f => exact Interpreter.callBack_scoped _ _ f _ h.machine
  | method f args => exact Interpreter.callBack_scoped _ _ f args h.machine
  | stop f => exact Interpreter.callBack_scoped _ _ f _ h.machine

theorem finish_globals {part : Part} (hpart : part.dispatched = true) (h : Host) :
    (part.finish h).script.globals = h.script.globals := by
  have hrun : (part.run h).2.script.globals = h.script.globals := by
    refine run_globals ?_ h
    rintro rfl
    cases hpart
  have hsame : (part.finish h).script = (part.run h).2.script := by
    unfold Part.finish Part.settle Part.heedExit
    rw [Part.settleTimer_frame]
    split
    · rfl
    · rfl
  rw [hsame, hrun]

/-- The event loop leaves the global scope alone. -/
theorem Takes.globals (htakes : Takes h ns g) : g.script.globals = h.script.globals := by
  cases htakes with
  | leaves _ _ hg => exact congrArg Script.globals hg.script
  | rests _ hg => exact congrArg Script.globals hg.script
  | runs part l _ _ hpart _ hl hg => rw [hg.script, finish_globals hpart, hl.script]
  | fires id t timers l _ _ _ hl _ hg =>
    rw [hg.script, finish_globals rfl, hl.script]
    rfl
  | misses _ _ _ _ _ hg => exact congrArg Script.globals hg.script

/-- Outside the event loop, before it or after the release, no service is published. -/
theorem served_of_idle (hrunning : h.phase ≠ .running) (hstopped : h.phase ≠ .stopRequested)
    (hnone : h.resources.service = none) : h.Served := by
  rw [Served, hnone, activeService?, if_neg (not_or.2 ⟨hrunning, hstopped⟩)]

theorem Served.idle (hs : h.Served) (hrunning : h.phase ≠ .running)
    (hstopped : h.phase ≠ .stopRequested) : h.resources.service = none := by
  rw [hs, activeService?, if_neg (not_or.2 ⟨hrunning, hstopped⟩)]

/-- From the entry into the event loop on, the service stays, and so does its declaration. -/
theorem Served.stays (hs : h.Served) (hh : h.phase = .running ∨ h.phase = .stopRequested)
    (hg : g.phase = .running ∨ g.phase = .stopRequested)
    (hservice : g.resources.service = h.resources.service)
    (hglobals : g.script.globals = h.script.globals) : g.Served := by
  have hglobal : g.script.global? ServiceDeclaration.global =
      h.script.global? ServiceDeclaration.global := by
    rw [Script.global?, hglobals, Script.global?]
  rw [Served, hservice, hs, activeService?, activeService?, if_pos hh, if_pos hg, hglobal]

theorem Served.keeps (hs : h.Served) (hkeeps : g.Keeps h) : g.Served := by
  rw [Served, hkeeps.service, hs, activeService?, activeService?, hkeeps.phase, hkeeps.script]

theorem Served.executes {result : Except HostError (Option Int32)} (hs : h.Served)
    (hexecutes : Executes h result g) : g.Served := by
  have htop := (steady_run .top h.withArguments).service
  have hnone (hphase : h.phase = .compiled) : h.resources.service = none :=
    hs.idle (by simp [hphase]) (by simp [hphase])
  cases hexecutes with
  | refused => exact hs
  | returned v next hphase hrun =>
    rw [← Part.eq_run .top hrun] at htop
    have hlog : next.executed.activateLog.resources.service = next.resources.service := by
      unfold activateLog
      split
      · rfl
      · split
        · rfl
        · rfl
    have hleft : next.executed.activateLog.phase = .topLevelExecuted :=
      next.executed.activateLog_alike.phase
    exact served_of_idle (by simp [hleft]) (by simp [hleft])
      ((hlog.trans htop).trans (hnone hphase))
  | exited code next hphase hrun =>
    rw [← Part.eq_run .top hrun] at htop
    exact served_of_idle (by simp [executed]) (by simp [executed]) (htop.trans (hnone hphase))
  | uncompiled next hphase hrun =>
    rw [← Part.eq_run .top hrun] at htop
    exact served_of_idle (by simp [executed]) (by simp [executed]) (htop.trans (hnone hphase))
  | raised text next hphase hrun =>
    rw [← Part.eq_run .top hrun] at htop
    exact served_of_idle (by simp [executed]) (by simp [executed]) (htop.trans (hnone hphase))

theorem Served.starts {result : Except HostError (Option Int32)} (hs : h.Served)
    (hstarts : Starts h result g) : g.Served := by
  have hnone (hphase : h.phase = .topLevelExecuted) : h.resources.service = none :=
    hs.idle (by simp [hphase]) (by simp [hphase])
  have hstart (f : Callback) := (steady_run (.start f) h).service
  cases hstarts with
  | refused => exact hs
  | missing => exact hs
  | notCallable => exact hs
  | returned f v next hphase _ hcall =>
    rw [Part.eq_run (.start f) hcall]
    exact served_of_idle (by simp) (by simp) ((hstart f).trans (hnone hphase))
  | exited f code next hphase _ hcall =>
    rw [Part.eq_run (.start f) hcall]
    exact served_of_idle (by simp) (by simp) ((hstart f).trans (hnone hphase))
  | raised f e next hphase _ hcall =>
    have hsame : (Part.run (.start f) h).2.phase = .topLevelExecuted := hphase
    rw [Part.eq_run (.start f) hcall]
    exact served_of_idle (by simp [hsame]) (by simp [hsame]) ((hstart f).trans (hnone hphase))

/-- Entering the event loop publishes the service that the global scope declares. -/
theorem Served.enters (hs : h.Served) (hphase : h.phase = .started) :
    h.entered.Served := by
  have hnone := hs.idle (by simp [hphase]) (by simp [hphase])
  have hscript : h.activateService.script = h.script := h.activateService_alike.script
  have hactive : h.entered.activeService? =
      (h.script.global? ServiceDeclaration.global).bind fun v =>
        (ServiceDeclaration.ofValue? v).toOption := by
    rw [← hscript]
    rfl
  rw [Served, hactive]
  show h.activateService.resources.service = _
  unfold activateService
  cases h.script.global? ServiceDeclaration.global with
  | none => exact hnone
  | some v =>
    simp only [Option.bind_some]
    cases ServiceDeclaration.ofValue? v with
    | error e => exact hnone
    | ok d => rfl

theorem Served.looped (hs : h.Served) (a : HostRun.Act) : (looped.act h a).Served := by
  rcases h.looped_cases a with ⟨-, hphase, hact, -⟩ | ⟨hact, -⟩
  · rw [hact]
    have htakes := h.takes
    refine hs.stays (.inl hphase) ?_ h.steady_turn.service htakes.globals
    rcases htakes.phase.1 with hsame | hleft
    · exact .inl (hsame.trans hphase)
    · exact .inr hleft
  · rw [hact]
    exact hs.keeps (waited_keeps h a)

theorem Served.looped_run (hs : h.Served) (acts : List HostRun.Act) :
    (Host.looped.run h acts).1.Served :=
  @Observed.run_invariant _ _ _ Host.looped (fun g _ => g.Served) h hs
    (fun _ _ a hg => hg.looped a) acts

theorem Served.stops (hs : h.Served) (hphase : h.phase = .stopRequested) (hstops : Stops h g) :
    g.Served := by
  have hstays (f : Callback) : (Part.run (.stop f) h).2.Served :=
    hs.stays (.inr hphase) (.inr hphase) (steady_run (.stop f) h).service
      (run_globals (by simp) h)
  cases hstops with
  | crashed => exact hs
  | missing => exact hs
  | notCallable => exact hs
  | returned f v next _ _ hcall =>
    rw [Part.eq_run (.stop f) hcall]
    exact hstays f
  | exited f code next _ _ hcall =>
    rw [Part.eq_run (.stop f) hcall]
    exact hstays f
  | raised f e next _ _ hcall =>
    rw [Part.eq_run (.stop f) hcall]
    exact hstays f

theorem served_finishRelease (h : Host) : h.finishRelease.Served :=
  served_of_idle (by simp [finishRelease]) (by simp [finishRelease]) rfl

/-- Every operation keeps to the service that the global scope declares. -/
theorem Served.performs {op : Operation} {childNotes : List ChildList.Note} (hs : h.Served)
    (hperforms : Performs h op ns childNotes g) : g.Served := by
  cases hperforms with
  | none => exact hs
  | loaded file script hphase =>
    have hnone := hs.idle (by simp [hphase]) (by simp [hphase])
    exact served_of_idle (by simp) (by simp) hnone
  | executed _ hexecutes => exact hs.executes hexecutes
  | started _ hstarts => exact hs.starts hstarts
  | ran acts hphase => exact (hs.enters hphase).looped_run acts
  | stopped hphase hstops => exact hs.stops hphase hstops
  | tornDown => exact served_finishRelease _
  | closed => exact served_finishRelease _
  | waited a => exact hs.keeps (waited_keeps h a)

/-- However a host is used, it publishes the service that the global scope declares, from the entry
into the event loop until the release. -/
theorem served_operated (config : HostConfig) (transport : Transport) (world : World)
    (ops : List Operation) : (operated.run (new config transport world) ops).1.Served :=
  @Observed.run_invariant _ _ _ operated (fun g _ => g.Served) (new config transport world) rfl
    (fun g _ op hs => hs.performs (g.performs op)) ops

/-! ### Runs of a script's file -/

/-- What a launch comes to keeps to the service, and so does the beginning of a release. -/
theorem Served.launch (hs : h.Served) (file : ScriptFile) :
    (HostRun.launch h file).host.Served := by
  have hloaded : (h.load file).2.Served := hs.performs (h.performs (.load file))
  unfold HostRun.launch
  generalize h.load file = out at hloaded ⊢
  rcases out with ⟨_ | _, loaded⟩
  · exact hloaded
  · have hexecuted : loaded.execute.2.Served := Served.performs hloaded (loaded.performs .execute)
    simp only
    generalize loaded.execute = out at hexecuted ⊢
    rcases out with ⟨_ | _ | status, executed⟩
    · exact hexecuted
    · have hstarted : executed.start.2.Served :=
        Served.performs hexecuted (executed.performs .start)
      simp only
      generalize executed.start = out at hstarted ⊢
      rcases out with ⟨_ | _ | status, started⟩
      · exact hstarted
      · have henters := started.enters
        simp only
        generalize started.enter = out at henters ⊢
        rcases out with ⟨result, next⟩
        change Enters started result next at henters
        cases henters with
        | refused => exact hstarted
        | entered hphase => exact Served.enters hstarted hphase
      · exact hstarted
    · exact hexecuted

end

end Host

namespace HostRun

/-- Every act but that of going on to the next stage does to a run what it does to its host. -/
theorem act_host (r : HostRun) {a : Act} (hproceed : a ≠ .proceed) :
    (r.act a).host = Host.looped.act r.host a := by
  cases a with
  | proceed => exact absurd rfl hproceed
  | turn =>
    show r.turnLoop.host = r.host.alone.turnLoop.host
    have hhost : r.host.alone.host = r.host := rfl
    unfold turnLoop
    rw [hhost]
    split
    · rfl
    · rfl
  | _ => rfl

theorem declared_step {r next : HostRun} (hs : r.host.Served) (hstep : r.step = some next) :
    next.host.Served := by
  unfold step at hstep
  cases hstage : r.stage with
  | launching file =>
    rw [hstage] at hstep
    cases hstep
    exact hs.launch file
  | looping =>
    have hshut : r.host.shutdown.2.Served := hs.performs (r.host.performs .shutdown)
    rw [hstage] at hstep
    simp only at hstep
    split at hstep
    · cases hstep
    · generalize r.host.shutdown = out at hshut hstep
      rcases out with ⟨_ | _, g⟩
      · cases hstep
        exact hshut
      · cases hstep
        exact hshut
  | closing status =>
    rw [hstage] at hstep
    simp only at hstep
    split at hstep
    · cases hstep
      exact Host.served_finishRelease _
    · cases hstep
  | finished status =>
    rw [hstage] at hstep
    cases hstep

/-- Every run publishes the service that the global scope declares, from the entry into the event
loop until the release. -/
theorem declared_run (config : HostConfig) (transport : Transport) (world : World)
    (file : ScriptFile) (acts : List Act) :
    (course.run (fresh config transport world file) acts).1.host.Served := by
  refine @Observed.run_invariant _ _ _ course (fun r _ => r.host.Served)
    (fresh config transport world file) rfl ?_ acts
  intro r past a hs
  show (r.act a).host.Served
  by_cases hproceed : a = .proceed
  · rw [hproceed]
    show (r.step.getD r).host.Served
    cases hstep : r.step with
    | none => exact hs
    | some next => exact declared_step hs hstep
  · rw [act_host r hproceed]
    exact hs.looped a

end HostRun
end ScriptService
