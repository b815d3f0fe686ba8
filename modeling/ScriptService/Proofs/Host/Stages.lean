import ScriptService.Proofs.Host.Turns

/-!
# What an act does

The launch of a script and the call of `stop` do one of a few things with their notes, and so does
every act of a run. What an act does besides is nothing that timers, requests to stop or the exit
status depend on.

Main statements: `Host.launches`, `Host.quits` and `HostRun.does`.
-/

namespace ScriptService

namespace Host

open HostRun (Note)

/-! ## Before and after the event loop -/

/-- The host with a script that is ready to run. -/
def compiled (h : Host) (script : Script) : Host :=
  { h.withScript fun _ => script with phase := .compiled }

/-- The status that a failed top level ends the host with. -/
def failureStatus (fault : Fault) : Int :=
  match fault.outcome with
  | .compile => -1
  | _ => -2

/-- What the launch of a script does. -/
inductive Launches (h : Host) (file : ScriptFile) : List Note → HostRun → Prop where
  | unrunnable (g : Host) (hfile : file.runs = false) (hg : g.Alike h) :
      Launches h file [.released] (HostRun.conclude g (-1))
  | topFailed (l g : Host) (fault : Fault) (hfile : file.runs = true)
      (hl : l.Alike (h.compiled l.script)) (hrun : (Part.top.run l).1 = .error fault)
      (hexit : ∀ code, fault.outcome ≠ .exit code)
      (hg : g.Alike { (Part.top.run l).2 with phase := .topLevelExecuted, crashed := true }) :
      Launches h file (.released :: l.partNotes .top) (HostRun.conclude g (failureStatus fault))
  | topExited (l g : Host) (fault : Fault) (code : Int32) (hfile : file.runs = true)
      (hl : l.Alike (h.compiled l.script)) (hrun : (Part.top.run l).1 = .error fault)
      (hexit : fault.outcome = .exit code)
      (hg : g.Alike { (Part.top.run l).2 with phase := .topLevelExecuted }) :
      Launches h file (.released :: l.partNotes .top) (HostRun.conclude g code.toInt)
  | unstarted (l g : Host) (v : Value) (entry : EntryPoint) (hfile : file.runs = true)
      (hl : l.Alike (h.compiled l.script)) (hrun : (Part.top.run l).1 = .ok v)
      (hentry : ∀ f, entry ≠ .callable f)
      (hg : g.Alike { (Part.top.run l).2 with phase := .topLevelExecuted }) :
      Launches h file (.released :: ([.found "start" entry] ++ l.partNotes .top))
        (HostRun.conclude g (-2))
  | startFailed (l k g : Host) (v : Value) (f : Callback) (fault : Fault) (hfile : file.runs = true)
      (hl : l.Alike (h.compiled l.script)) (hrun : (Part.top.run l).1 = .ok v)
      (hk : k.Alike { (Part.top.run l).2 with phase := .topLevelExecuted })
      (hstart : (Part.run (.start f) k).1 = .error fault)
      (hexit : ∀ code, fault.outcome ≠ .exit code)
      (hg : g.Alike { (Part.run (.start f) k).2 with crashed := true }) :
      Launches h file
        (.released ::
          (k.partNotes (.start f) ++ [.found "start" (.callable f)] ++ l.partNotes .top))
        (HostRun.conclude g (-2))
  | startExited (l k g : Host) (v : Value) (f : Callback) (fault : Fault) (code : Int32)
      (hfile : file.runs = true) (hl : l.Alike (h.compiled l.script))
      (hrun : (Part.top.run l).1 = .ok v)
      (hk : k.Alike { (Part.top.run l).2 with phase := .topLevelExecuted })
      (hstart : (Part.run (.start f) k).1 = .error fault) (hexit : fault.outcome = .exit code)
      (hg : g.Alike { (Part.run (.start f) k).2 with phase := .started }) :
      Launches h file
        (.released ::
          (k.partNotes (.start f) ++ [.found "start" (.callable f)] ++ l.partNotes .top))
        (HostRun.conclude g code.toInt)
  | entered (l k g : Host) (v w : Value) (f : Callback) (hfile : file.runs = true)
      (hl : l.Alike (h.compiled l.script)) (hrun : (Part.top.run l).1 = .ok v)
      (hk : k.Alike { (Part.top.run l).2 with phase := .topLevelExecuted })
      (hstart : (Part.run (.start f) k).1 = .ok w)
      (hg : g.Alike { (Part.run (.start f) k).2 with phase := .running }) :
      Launches h file
        (k.partNotes (.start f) ++ [.found "start" (.callable f)] ++ l.partNotes .top) ⟨g, .looping⟩

/-- Takes a host from its `start` into the event loop. -/
def startAndEnter (h : Host) : HostRun :=
  match h.start with
  | (.error e, h) => HostRun.fail h e
  | (.ok (some status), h) => HostRun.conclude h status.toInt
  | (.ok none, h) =>
    match h.enter with
    | (.error e, h) => HostRun.fail h e
    | (.ok _, h) => ⟨h, .looping⟩

/-- What follows a top level that returned. -/
theorem launches_start {h l k : Host} {file : ScriptFile} {v : Value} (hfile : file.runs = true)
    (hl : l.Alike (h.compiled l.script)) (hrun : (Part.top.run l).1 = .ok v)
    (hk : k.Alike { (Part.top.run l).2 with phase := .topLevelExecuted }) :
    Launches h file (k.entryNotes ++ l.partNotes .top) k.startAndEnter := by
  have hstarts := k.starts
  unfold entryNotes startAndEnter startNotes
  rcases hstart : k.start with ⟨result, g⟩
  rw [hstart] at hstarts
  change Starts k result g at hstarts
  cases hstarts with
  | refused hphase => exact absurd hk.phase hphase
  | missing _ hentry =>
    rw [hentry]
    exact .unstarted l _ v .missing hfile hl hrun (by simp) ((writeError_alike k _).trans hk)
  | notCallable _ hentry =>
    rw [hentry]
    exact .unstarted l _ v .notCallable hfile hl hrun (by simp) ((writeError_alike k _).trans hk)
  | returned f w next _ hentry hcall =>
    have hran := Part.run_of_ok (.start f) hcall
    rw [hentry]
    -- The loop is entered from a `start` that returned, whatever becomes of the service.
    have hnext : next.Alike (Part.run (.start f) k).2 := by
      rw [hran]
      exact Alike.refl next
    refine .entered l k _ v w f hfile hl hrun hk (by rw [hran]) ?_
    exact ((activateService_alike _).withPhase .running).trans (hnext.withPhase .running)
  | exited f code next _ hentry hcall =>
    rcases Part.run_of_error (.start f) hcall with ⟨fault, hran, hexit⟩
    rw [hentry]
    refine .startExited l k _ v f fault code hfile hl hrun hk (by rw [hran]) hexit ?_
    rw [hran]
    exact Alike.refl _
  | raised f e next _ hentry hcall he =>
    rcases Part.run_of_error (.start f) hcall with ⟨fault, hran, rfl⟩
    rw [hentry]
    refine .startFailed l k _ v f fault hfile hl hrun hk (by rw [hran]) he ?_
    rw [hran]
    exact writeError_alike _ _

/-- What follows the loading of a script. -/
theorem launches_execute {h l : Host} {file : ScriptFile} (hfile : file.runs = true)
    (hl : l.withArguments.Alike (h.compiled l.withArguments.script)) :
    Launches h file
      (match l.execute with
      | (.ok none, executed) => executed.entryNotes ++ l.topNotes
      | _ => .released :: l.topNotes)
      (match l.execute with
      | (.error e, h) => HostRun.fail h e
      | (.ok (some status), h) => HostRun.conclude h status.toInt
      | (.ok none, h) => h.startAndEnter) := by
  have hexecutes := l.executes
  unfold topNotes
  rcases hexecute : l.execute with ⟨result, g⟩
  rw [hexecute] at hexecutes
  change Executes l result g at hexecutes
  cases hexecutes with
  | refused hphase => exact absurd hl.phase hphase
  | returned v next _ hrun =>
    have hran := Part.run_of_ok .top hrun
    refine launches_start hfile hl (v := v) (by rw [hran]) ?_
    rw [hran]
    exact activateLog_alike _
  | exited code next _ hrun =>
    rcases Part.run_of_error .top hrun with ⟨fault, hran, hexit⟩
    refine .topExited _ _ fault code hfile hl (by rw [hran]) hexit ?_
    rw [hran]
    exact Alike.refl _
  | uncompiled next _ hrun =>
    -- No program that compiled ends so, but that takes a look at all of its code.
    rcases Part.run_of_error .top hrun with ⟨fault, hran, hcompile⟩
    have hfails := Launches.topFailed l.withArguments
      ({ next.executed with crashed := true }.inWorld fun w =>
        w.writeError (HostError.compile syntaxDetails).report) fault hfile hl (by rw [hran])
      (by rw [hcompile]; simp) (by rw [hran]; exact writeError_alike _ _)
    rw [failureStatus, hcompile] at hfails
    exact hfails
  | raised text next _ hrun =>
    rcases Part.run_of_error .top hrun with ⟨fault, hran, hraised⟩
    have hfails := Launches.topFailed l.withArguments
      ({ next.executed with crashed := true }.inWorld fun w =>
        w.writeError (HostError.runtime text).report) fault hfile hl (by rw [hran])
      (by rw [hraised]; simp) (by rw [hran]; exact writeError_alike _ _)
    rw [failureStatus, hraised] at hfails
    exact hfails

theorem launches {h : Host} (hphase : h.phase = .uninitialized) (file : ScriptFile) :
    Launches h file (h.launchNotes file) (HostRun.launch h file) := by
  have hloads := h.loads file
  unfold launchNotes HostRun.launch
  rcases hload : h.load file with ⟨result, loaded⟩
  rw [hload] at hloads
  change Loads h file result loaded at hloads
  cases hloads with
  | refused _ hother => exact absurd hphase hother
  | unreadable path reason _ =>
    exact .unrunnable _ rfl (writeError_alike h _)
  | uncompiled p _ hcompile =>
    have hfile : p.compiles = false := by
      unfold Script.compile at hcompile
      split at hcompile
      · cases hcompile
      · simpa using ‹¬p.compiles = true›
    exact .unrunnable _ hfile (writeError_alike h _)
  | loaded p script _ hcompile =>
    have hfile : p.compiles = true := by
      unfold Script.compile at hcompile
      split at hcompile
      · assumption
      · cases hcompile
    exact launches_execute hfile ⟨Or.inl rfl, rfl, rfl, rfl, rfl, rfl, rfl, rfl⟩

/-- What the call of `stop` does. -/
inductive Quits (h : Host) : List Note → Host → Prop where
  | uncallable (entry : EntryPoint) (g : Host) (hentry : ∀ f, entry ≠ .callable f)
      (hg : g.Alike h) : Quits h [.found "stop" entry] g
  | ran (f : Callback) (g : Host) (hg : g.Alike (Part.finish (.stop f) h)) :
      Quits h (h.partNotes (.stop f) ++ [.found "stop" (.callable f)]) g

theorem quits {h : Host} (hphase : h.phase = .stopRequested) (hcrashed : h.crashed = false) :
    ∃ g, h.shutdown = (.ok (g.resources.exitCode.getD 0), g) ∧ Quits h h.stopNotes g := by
  have hshuts := h.shutsDown
  unfold stopNotes
  rcases hshutdown : h.shutdown with ⟨result, g⟩
  rw [hshutdown] at hshuts
  change ShutsDown h result g at hshuts
  cases hshuts with
  | refused hother => exact absurd hphase hother
  | done g _ hstops =>
    refine ⟨g, rfl, ?_⟩
    rw [hcrashed]
    cases hstops with
    | crashed hbad => exact absurd (hcrashed.symm.trans hbad) (by simp)
    | missing _ hentry =>
      rw [hentry]
      exact .uncallable .missing _ (by simp) (Alike.refl h)
    | notCallable _ hentry =>
      rw [hentry]
      exact .uncallable .notCallable _ (by simp) (alike_inWorld h _ fun w => rfl)
    | returned f v next _ hentry hcall =>
      have hran := Part.run_of_ok (.stop f) hcall
      rw [hentry]
      refine .ran f _ ?_
      rw [Part.finish, hran]
      exact Alike.refl _
    | exited f code next _ hentry hcall =>
      rcases Part.run_of_error (.stop f) hcall with ⟨fault, hran, hexit⟩
      rw [hentry]
      refine .ran f _ ?_
      rw [Part.finish, hran]
      simp only [Part.settle, Part.settleTimer, Part.heedExit, Part.exitCode?, hexit]
      exact Alike.refl _
    | raised f e next _ hentry hcall he =>
      rcases Part.run_of_error (.stop f) hcall with ⟨fault, hran, rfl⟩
      rw [hentry]
      refine .ran f _ ?_
      rw [Part.finish, hran]
      simp only [Part.settle, Part.settleTimer, Part.heedExit, Part.exitCode?]
      cases hout : fault.outcome with
      | exit code => exact absurd hout (he code)
      | compile => exact alike_inWorld _ _ fun w => rfl
      | exception text => exact alike_inWorld _ _ fun w => rfl

end Host

/-! ## Acts -/

namespace HostRun

/-- The phase of the host fits the stage of the run. -/
structure Staged (r : HostRun) : Prop where
  launching : ∀ file, r.stage = .launching file →
    r.host.phase = .uninitialized ∧ r.host.crashed = false
  looping : r.stage = .looping →
    (r.host.phase = .running ∨ r.host.phase = .stopRequested) ∧ r.host.crashed = false
  running : r.host.phase = .running → r.stage = .looping

/-- What an act does to a run. -/
inductive Does (r : HostRun) : Act → List Note → HostRun → Prop where
  | rests (a : Act) (g : Host) (htimers : g.resources.timers = r.host.resources.timers)
      (hnow : r.host.now ≤ g.now) (hstopping : g.resources.stopping = r.host.resources.stopping)
      (hexit : g.resources.exitCode = r.host.resources.exitCode)
      (hsignal : g.loop.terminationSignal = r.host.loop.terminationSignal)
      (hphase : g.phase = r.host.phase) (hcrashed : g.crashed = r.host.crashed)
      (hscript : g.script = r.host.script) : Does r a [] { r with host := g }
  | asked : Does r .stop [.asked] (r.onHost Host.stop)
  | signalled : Does r .terminate [.signalled] (r.onHost Host.terminate)
  | turned (ns : List Note) (g : Host) (hphase : r.host.phase = .running)
      (htakes : Host.Takes r.host ns g) : Does r .turn ns { r with host := g }
  | launched (file : ScriptFile) (ns : List Note) (next : HostRun)
      (hstage : r.stage = .launching file) (hlaunches : Host.Launches r.host file ns next) :
      Does r .proceed ns next
  | quit (ns : List Note) (g : Host) (hstage : r.stage = .looping)
      (hphase : r.host.phase = .stopRequested) (hquits : Host.Quits r.host ns g) :
      Does r .proceed (.released :: ns) (conclude g (g.resources.exitCode.getD 0).toInt)
  | finished (status : Int) (hstage : r.stage = .closing status) :
      Does r .proceed [] ⟨r.host.finishRelease, .finished status⟩

/-- Most acts do nothing to timers, and do not even move the clock. -/
theorem does_frame (r : HostRun) (a : Act) (g : Host) (hresources : g.resources = r.host.resources)
    (hsignal : g.loop.terminationSignal = r.host.loop.terminationSignal)
    (hphase : g.phase = r.host.phase) (hcrashed : g.crashed = r.host.crashed)
    (hscript : g.script = r.host.script) : Does r a [] { r with host := g } :=
  .rests a g (by rw [hresources]) (by unfold Host.now Host.world; rw [hresources])
    (by rw [hresources]) (by rw [hresources]) hsignal hphase hcrashed hscript

theorem does_proceed {r : HostRun} (hr : Staged r) :
    Does r .proceed r.proceedNotes (r.step.getD r) := by
  have hstay : Does r .proceed [] r := does_frame r .proceed r.host rfl rfl rfl rfl rfl
  unfold proceedNotes step
  cases hstage : r.stage with
  | launching file =>
    simp only [Option.getD_some]
    exact .launched file _ _ hstage (Host.launches (hr.launching file hstage).1 file)
  | looping =>
    rcases hr.looping hstage with ⟨hrunning | hphase, hcrashed⟩
    · simp only [hrunning, if_true, Option.getD_none]
      exact hstay
    · rcases Host.quits hphase hcrashed with ⟨g, hshutdown, hquits⟩
      simp only [hphase, reduceCtorEq, if_false, hshutdown, Option.getD_some]
      exact .quit _ g hstage hphase hquits
  | closing status =>
    simp only
    split
    · exact .finished status hstage
    · exact hstay
  | finished status =>
    simp only [Option.getD_none]
    exact hstay

theorem does {r : HostRun} (hr : Staged r) (a : Act) : Does r a (courseNotes r a) (r.act a) := by
  cases a with
  | move => exact does_frame r .move _ rfl rfl rfl rfl rfl
  | turn =>
    unfold courseNotes act turnLoop
    by_cases hphase : r.host.phase = .running
    · simp only [hphase, if_true]
      exact .turned _ _ hphase r.host.takes
    · simp only [hphase, if_false]
      exact does_frame r .turn r.host rfl rfl rfl rfl rfl
  | proceed => exact does_proceed hr
  | wait time => exact .rests (.wait time) _ rfl (Nat.le_max_left _ _) rfl rfl rfl rfl rfl rfl
  | meet m => exact does_frame r (.meet m) _ rfl rfl rfl rfl rfl
  | beside m => exact does_frame r (.beside m) _ rfl rfl rfl rfl rfl
  | stop => exact .asked
  | terminate => exact .signalled
  | child index state announced =>
    exact .rests (.child index state announced) _ rfl (Nat.le_refl _) rfl rfl rfl rfl rfl rfl

theorem staged_fresh (config : HostConfig) (transport : Transport) (world : World)
    (file : ScriptFile) : Staged (fresh config transport world file) where
  launching := fun _ _ => ⟨rfl, rfl⟩
  looping := fun hstage => by cases hstage
  running := fun hphase => by cases hphase

theorem staged_conclude {h : Host} (hphase : h.phase ≠ .running) (status : Int) :
    Staged (conclude h status) where
  launching := fun _ hstage => by cases hstage
  looping := fun hstage => by cases hstage
  running := fun hrunning => absurd hrunning hphase

end HostRun

/-- A turn of a loop leaves it running or left, and never crashed. -/
theorem Host.Takes.stays {h g : Host} {ns : List HostRun.Note} (htakes : Takes h ns g)
    (hphase : h.phase = .running) (hsound : h.crashed = false) :
    (g.phase = .running ∨ g.phase = .stopRequested) ∧ g.crashed = false := by
  cases htakes with
  | leaves _ _ hg => exact ⟨Or.inr hg.phase, hg.crashed.trans hsound⟩
  | rests _ hg => exact ⟨Or.inl (hg.phase.trans hphase), hg.crashed.trans hsound⟩
  | runs part l _ _ _ _ hl hg =>
    rw [hg.phase, hg.crashed, Part.finish_phase, Part.finish_crashed, hl.phase, hl.crashed]
    exact ⟨Or.inl hphase, hsound⟩
  | fires id t timers l _ _ _ hl _ hg =>
    rw [hg.phase, hg.crashed, Part.finish_phase, Part.finish_crashed, hl.phase, hl.crashed]
    exact ⟨Or.inl hphase, hsound⟩
  | misses id timers _ _ _ hg =>
    exact ⟨Or.inl (hg.phase.trans hphase), hg.crashed.trans hsound⟩

namespace HostRun

/-- A launch comes to a running loop, or to an end in which the loop does not run. -/
theorem staged_launched {h : Host} {file : ScriptFile} {ns : List Note} {next : HostRun}
    (hphase : h.phase = .uninitialized) (hsound : h.crashed = false)
    (hlaunches : Host.Launches h file ns next) : Staged next := by
  cases hlaunches with
  | unrunnable g _ hg => exact staged_conclude (by rw [hg.phase, hphase]; simp) _
  | topFailed l g _ _ _ _ _ hg => exact staged_conclude (by rw [hg.phase]; simp) _
  | topExited l g _ _ _ _ _ _ hg => exact staged_conclude (by rw [hg.phase]; simp) _
  | unstarted l g _ _ _ _ _ _ hg => exact staged_conclude (by rw [hg.phase]; simp) _
  | startFailed l k g _ _ _ _ _ _ hk _ _ hg =>
    -- A `start` that raised leaves the phase that the top level left.
    refine staged_conclude ?_ _
    have hsame : g.phase = k.phase := hg.phase
    rw [hsame, hk.phase]
    simp
  | startExited l k g _ _ _ _ _ _ _ _ _ _ hg => exact staged_conclude (by rw [hg.phase]; simp) _
  | entered l k g _ _ _ _ hl _ hk _ hg =>
    refine ⟨fun _ hlaunching => ?_, fun _ => ⟨Or.inl hg.phase, ?_⟩, fun _ => rfl⟩
    · cases hlaunching
    · have hg' : g.crashed = k.crashed := hg.crashed
      have hk' : k.crashed = l.crashed := hk.crashed
      have hl' : l.crashed = h.crashed := hl.crashed
      rw [hg', hk', hl']
      exact hsound

/-- Every act leaves a run whose phase fits its stage. -/
theorem Staged.does {r next : HostRun} {a : Act} {ns : List Note} (hr : Staged r)
    (hdoes : Does r a ns next) : Staged next := by
  cases hdoes with
  | rests _ g _ _ _ _ _ hphase hcrashed _ =>
    refine ⟨?_, ?_, ?_⟩
    · intro file hstage
      rw [hphase, hcrashed]
      exact hr.launching file hstage
    · intro hstage
      rw [hphase, hcrashed]
      exact hr.looping hstage
    · intro hrunning
      exact hr.running (hphase.symm.trans hrunning)
  | asked => exact ⟨hr.launching, hr.looping, hr.running⟩
  | signalled => exact ⟨hr.launching, hr.looping, hr.running⟩
  | turned ns g hphase htakes =>
    -- Only a run in its loop has a host that runs.
    have hstage := hr.running hphase
    have hg := htakes.stays hphase (hr.looping hstage).2
    refine ⟨?_, fun _ => hg, fun _ => hstage⟩
    intro file hlaunching
    exact absurd (hstage.symm.trans hlaunching) (by simp)
  | launched file ns next hstage hlaunches =>
    have hfresh := hr.launching file hstage
    exact staged_launched hfresh.1 hfresh.2 hlaunches
  | quit ns g hstage hphase hquits =>
    refine staged_conclude ?_ _
    have hg : g.phase = .stopRequested := by
      cases hquits with
      | uncallable entry _ _ hg => exact hg.phase.trans hphase
      | ran f _ hg => rw [hg.phase, Part.finish_phase, hphase]
    rw [hg]
    simp
  | finished status hstage =>
    refine ⟨?_, ?_, ?_⟩
    · intro file hlaunching
      cases hlaunching
    · intro hlooping
      cases hlooping
    · intro hrunning
      cases hrunning

end HostRun
end ScriptService
