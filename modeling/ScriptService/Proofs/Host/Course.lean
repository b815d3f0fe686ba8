import ScriptService.Proofs.Host.Acts
import ScriptService.Proofs.Host.Loop
import ScriptService.Proofs.Host.Phases
import ScriptService.Proofs.Script.Notes
import ScriptService.Proofs.Timers.Law
import ScriptService.Proofs.World.Clock

/-!
# The course of a run

Which script code a host runs, in which order, and how each part of it ends; which timers the script
starts on the way, and when the event loop is asked to stop and left.

Main definitions: `Part`, `HostRun.Note` and `HostRun.course`.
-/

namespace ScriptService

/-- Whether a file holds a script that compiles. -/
def ScriptFile.runs : ScriptFile → Bool
  | .program p => p.compiles
  | .unreadable _ _ => false

/-! ## Parts -/

/-- A piece of script code that a host runs. -/
inductive Part where
  | top
  | start (f : Callback)
  | timer (id : Nat) (f : Callback) (args : List Value)
  /-- The function of a child; `held` are the values that the host keeps meanwhile. -/
  | child (f : Callback) (args held : List Value)
  | hook (f : Callback)
  | method (f : Callback) (args : List Value)
  | stop (f : Callback)
  deriving Inhabited

namespace Part

/-- The code of a part. -/
def code : Part → Code Value
  | .top => fun _ natives => Interpreter.runTop natives
  | .start f => fun _ natives => Interpreter.callBack natives [] f []
  | .timer _ f args => fun _ natives => Interpreter.callBack natives [] f args
  | .child f args held => fun _ natives => Interpreter.callBack natives held f args
  | .hook f => fun _ natives => Interpreter.callBack natives [] f []
  | .method f args => fun _ natives => Interpreter.callBack natives [] f args
  | .stop f => fun _ natives => Interpreter.callBack natives [] f []

theorem parametric (part : Part) : part.code.Parametric := by
  cases part with
  | top => exact Interpreter.parametric_runTop
  | start f => exact Interpreter.parametric_callBack _ f _
  | timer id f args => exact Interpreter.parametric_callBack _ f args
  | child f args held => exact Interpreter.parametric_callBack held f args
  | hook f => exact Interpreter.parametric_callBack _ f _
  | method f args => exact Interpreter.parametric_callBack _ f args
  | stop f => exact Interpreter.parametric_callBack _ f _

/-- Whether the event loop runs a part. -/
def dispatched : Part → Bool
  | .timer _ _ _ => true
  | .child _ _ _ => true
  | .hook _ => true
  | .method _ _ => true
  | _ => false

/-- The timer whose function a part is. -/
def timer? : Part → Option Nat
  | .timer id _ _ => some id
  | _ => none

/-- Runs a part: how it ends, and the host after it. -/
def run (part : Part) (h : Host) : Except Fault Value × Host :=
  let (result, machine) := (part.code Resources Resources.natives).run.run h.machine
  (result, { h with machine })

/-- The status that a part asks the host to end with. -/
def exitCode? : Except Fault Value → Option Int32
  | .ok _ => none
  | .error fault =>
    match fault.outcome with
    | .exit code => some code
    | _ => none

/-- A timer lives on if its function returned a delay. -/
def settleTimer (part : Part) (result : Except Fault Value) (h : Host) : Host :=
  match part with
  | .timer id _ _ =>
    match TimerList.delay? result with
    | some delay => h.rearm id delay
    | none => h.unlink id
  | _ => h

/-- An exit is a request to stop with a status. -/
def heedExit (result : Except Fault Value) (h : Host) : Host :=
  match exitCode? result with
  | some code => h.withResources fun r => r.requestExit code
  | none => h

/-- What the host makes of the end of a part that its event loop runs, or of `stop`. -/
def settle (part : Part) (result : Except Fault Value) (h : Host) : Host :=
  heedExit result (part.settleTimer result h)

/-- Runs a part and deals with its end. -/
def finish (part : Part) (h : Host) : Host := part.settle (part.run h).1 (part.run h).2

theorem settleTimer_frame (part : Part) (result : Except Fault Value) (h : Host) :
    part.settleTimer result h = h.withResources fun r =>
      { r with timers := (part.settleTimer result h).resources.timers } := by
  unfold settleTimer
  split
  · split
    · rfl
    · rfl
  · rfl

theorem heedExit_frame (result : Except Fault Value) (h : Host) :
    (heedExit result h).phase = h.phase ∧ (heedExit result h).crashed = h.crashed ∧
      (heedExit result h).loop = h.loop := by
  unfold heedExit
  split
  · exact ⟨rfl, rfl, rfl⟩
  · exact ⟨rfl, rfl, rfl⟩

theorem finish_phase (part : Part) (h : Host) : (part.finish h).phase = h.phase := by
  unfold finish settle
  rw [(heedExit_frame _ _).1, settleTimer_frame]
  rfl

theorem finish_crashed (part : Part) (h : Host) : (part.finish h).crashed = h.crashed := by
  unfold finish settle
  rw [(heedExit_frame _ _).2.1, settleTimer_frame]
  rfl

theorem finish_loop (part : Part) (h : Host) : (part.finish h).loop = h.loop := by
  unfold finish settle
  rw [(heedExit_frame _ _).2.2, settleTimer_frame]
  rfl

/-- An exit of the part counts for more than an earlier one. -/
theorem finish_exitCode (part : Part) (h : Host) : (part.finish h).resources.exitCode =
    (exitCode? (part.run h).1).or (part.run h).2.resources.exitCode := by
  unfold finish settle
  rw [settleTimer_frame]
  unfold heedExit
  split
  · rename_i code hexit
    rw [hexit]
    rfl
  · rename_i hexit
    rw [hexit]
    rfl

theorem interpret_eq (part : Part) (h : Host) :
    Interpreter.perform (part.code Resources Resources.natives) h.machine =
      ((part.run h).1.mapError Fault.outcome, (part.run h).2.machine) := by
  unfold Interpreter.perform run
  rcases (part.code Resources Resources.natives).run.run h.machine with ⟨result, machine⟩
  cases result with
  | ok v => rfl
  | error fault => rfl

theorem perform_eq (part : Part) (h : Host) :
    h.perform (part.code Resources Resources.natives) =
      ((part.run h).1.mapError Fault.outcome, (part.run h).2) := by
  unfold Host.perform
  rw [interpret_eq]
  rfl

/-- What running script code leaves of a host is what its part leaves of it. -/
theorem eq_run (part : Part) {h next : Host} {result : Except ScriptError Value}
    (hrun : h.perform (part.code Resources Resources.natives) = (result, next)) :
    next = (part.run h).2 := by
  have heq := perform_eq part h
  rw [hrun] at heq
  exact (Prod.mk.inj heq).2

theorem run_of_ok (part : Part) {h next : Host} {v : Value}
    (hrun : h.perform (part.code Resources Resources.natives) = (.ok v, next)) :
    part.run h = (.ok v, next) := by
  rw [perform_eq] at hrun
  rcases hresult : part.run h with ⟨result, g⟩
  rw [hresult] at hrun
  cases result with
  | ok w =>
    cases hrun
    rfl
  | error fault => simp [Except.mapError] at hrun

theorem run_of_error (part : Part) {h next : Host} {e : ScriptError}
    (hrun : h.perform (part.code Resources Resources.natives) = (.error e, next)) :
    ∃ fault, part.run h = (.error fault, next) ∧ fault.outcome = e := by
  rw [perform_eq] at hrun
  rcases hresult : part.run h with ⟨result, g⟩
  rw [hresult] at hrun
  cases result with
  | ok w => simp [Except.mapError] at hrun
  | error fault =>
    cases hrun
    exact ⟨fault, rfl, rfl⟩

end Part

/-! ## Notes -/

namespace HostRun

/-- What is noted of the course of a run. -/
inductive Note where
  | began (part : Part) (time : Nat)
  | ended (part : Part) (time : Nat) (result : Except Fault Value)
  /-- The script starts a timer. -/
  | scheduled (id time : Nat) (delay : Int) (callback : Callback) (attached : Option Value)
  /-- What the host finds that looks for an entry point. -/
  | found (name : String) (entry : EntryPoint)
  /-- The event loop is asked to stop, by the script or from outside. -/
  | asked
  /-- A termination signal arrives. -/
  | signalled
  /-- The event loop is left. -/
  | left
  /-- The host begins to release everything. -/
  | released
  deriving Inhabited

end HostRun

namespace Resources

/-- What is noted when a script asks for a timer. -/
def timeoutNotes (callback delay : Value) (attached : Option Value) (r : Resources) :
    List HostRun.Note :=
  match callback.callback?, delay.int? with
  | some f, some delay => [.scheduled (r.timers.lastId + 1) r.now delay.toInt f attached]
  | _, _ => []

/-- What is noted when a script calls a function of the host. -/
def seen (name : String) (args : List Value) (r : Resources) : List HostRun.Note :=
  match name, args with
  | "uloop_timeout", [callback, delay] => r.timeoutNotes callback delay none
  | "uloop_timeout", [callback, delay, v] => r.timeoutNotes callback delay (some v)
  | "uloop_end", [] => [.asked]
  | _, _ => []

/-- What a function of the host does, as far as it matters for the course of a run. -/
inductive Invokes (r : Resources) : List HostRun.Note → Resources → Prop where
  | scheduled (f : Callback) (delay : Int) (attached : Option Value) :
      Invokes r [.scheduled (r.timers.lastId + 1) r.now delay f attached]
        { r with timers := (r.timers.schedule r.now f delay attached).2 }
  | asked : Invokes r [.asked] r.stop
  | other (s : Resources) (htimers : s.timers = r.timers) (hnow : s.now = r.now)
      (hstopping : s.stopping = r.stopping) (hexit : s.exitCode = r.exitCode) : Invokes r [] s

theorem invokes_timeout (r : Resources) (callback delay : Value) (attached : Option Value) :
    Invokes r (r.timeoutNotes callback delay attached) (r.timeout callback delay attached).2 := by
  unfold timeoutNotes timeout
  cases callback.callback? with
  | none => exact .other r rfl rfl rfl rfl
  | some f =>
    cases delay.int? with
    | none => exact .other r rfl rfl rfl rfl
    | some d => exact .scheduled f d.toInt attached

theorem invokes_process (r : Resources) (callback argv : Value) (attached : Option Value) :
    Invokes r [] (r.process callback argv attached).2 := by
  unfold process
  cases callback.callback? with
  | none => exact .other r rfl rfl rfl rfl
  | some f =>
    cases argv.array? with
    | none => exact .other r rfl rfl rfl rfl
    | some argv =>
      have hclock := Child.clock_fork r.world (argv.map Value.text)
      simp only
      rcases hfork : Child.fork r.world (argv.map Value.text) with ⟨result, world⟩
      rw [hfork] at hclock
      cases result with
      | ok pid => exact .other _ rfl hclock rfl rfl
      | error e => exact .other _ rfl hclock rfl rfl

/-- Of all functions that the host offers, one starts timers and one asks the loop to stop. -/
theorem invokes {r s : Resources} {name : String} {args : List Value} {result : Except Fault Value}
    (hinvoke : invoke name args r = some (result, s)) : Invokes r (seen name args r) s := by
  unfold invoke at hinvoke
  simp only at hinvoke
  split at hinvoke
  · cases hinvoke
    exact r.invokes_timeout _ _ none
  · cases hinvoke
    exact r.invokes_timeout _ _ (some _)
  · cases hinvoke
    exact r.invokes_process _ _ none
  · cases hinvoke
    exact r.invokes_process _ _ (some _)
  · cases hinvoke
    exact .asked
  · cases hinvoke
    exact .other r rfl rfl rfl rfl
  · cases hinvoke
    exact .other r rfl rfl rfl rfl
  · rename_i v _
    rcases Option.bind_eq_some_iff.1 hinvoke with ⟨severity, -, hgive⟩
    cases hgive
    -- The functions that log have other names than those that are noted.
    have hseen : seen name [v] r = [] := by
      unfold seen
      split
      · simp_all
      · simp_all
      · simp_all
      · rfl
    rw [hseen]
    exact .other _ rfl (Logger.clock_emit _ _ _ _) rfl rfl
  · cases hinvoke

end Resources

namespace Host

open HostRun (Note)

/-- What is noted of a part: its beginning, what its code does, and its end. -/
def partNotes (h : Host) (part : Part) : List Note :=
  .ended part (part.run h).2.now (part.run h).1 ::
    (part.code.notes Resources.natives Resources.seen h.machine ++ [.began part h.now])

/-- The part that an event makes the host run, and the host that runs it. -/
def partOf (h : Host) : LoopEvent → Option (Part × Host)
  | .timer id =>
    (h.resources.timers.get? id).map fun t => (.timer id t.callback t.attached.toList, h)
  | .childEnded pid status =>
    match ChildList.take h.resources.children pid with
    | (none, _) => none
    | (some c, children) =>
      some (.child c.callback (.int (.ofInt status) :: c.attached.toList) c.held,
        h.withResources fun r => { r with children })
  | .bus .connected => (h.resources.service.bind (·.connect)).map fun f => (.hook f, h)
  | .bus .disconnected => none
  | .bus (.call r) =>
    match h.resources.service with
    | none => none
    | some d =>
      if r.object = d.object then
        (d.callback? r.method).map fun f => (.method f (r.data.toList.map Value.ofTable), h)
      else none

def eventNotes (h : Host) (e : LoopEvent) : List Note :=
  match h.partOf e with
  | some (part, h) => h.partNotes part
  | none => []

/-- What is noted of a turn of the event loop. -/
def turnCourse (h : Host) : List Note :=
  match h.nextTurn with
  | (.dispatch e, h) => h.eventNotes e
  | (.leave, _) => [.left]
  | _ => []

def topNotes (h : Host) : List Note := h.withArguments.partNotes .top

def startNotes (h : Host) : List Note :=
  match h.script.entryPoint "start" with
  | .callable f => h.partNotes (.start f) ++ [.found "start" (.callable f)]
  | entry => [.found "start" entry]

def stopNotes (h : Host) : List Note :=
  if h.crashed then []
  else
    match h.script.entryPoint "stop" with
    | .callable f => h.partNotes (.stop f) ++ [.found "stop" (.callable f)]
    | entry => [.found "stop" entry]

/-- What is noted from the call of `start` on until the event loop is entered. -/
def entryNotes (h : Host) : List Note :=
  match h.start with
  | (.ok none, started) =>
    match started.enter with
    | (.ok _, _) => h.startNotes
    | (.error _, _) => .released :: h.startNotes
  | _ => .released :: h.startNotes

/-- What is noted while a host comes from its script's file into the event loop. -/
def launchNotes (h : Host) (file : ScriptFile) : List Note :=
  match h.load file with
  | (.error _, _) => [.released]
  | (.ok _, loaded) =>
    match loaded.execute with
    | (.ok none, executed) => executed.entryNotes ++ loaded.topNotes
    | _ => .released :: loaded.topNotes

end Host

namespace HostRun

/-- What is noted when a run goes on to its next stage. -/
def proceedNotes (r : HostRun) : List Note :=
  match r.stage with
  | .launching file => r.host.launchNotes file
  | .looping =>
    match r.host.phase with
    | .running => []
    | .stopRequested => .released :: r.host.stopNotes
    | _ => [.released]
  | .closing _ => []
  | .finished _ => []

/-- What is noted of an act. -/
def courseNotes (r : HostRun) : Act → List Note
  | .turn => if r.host.phase = .running then r.host.turnCourse else []
  | .proceed => r.proceedNotes
  | .stop => [.asked]
  | .terminate => [.signalled]
  | _ => []

/-- Runs whose course is observed. -/
def course : Observed HostRun Act Note := ⟨act, courseNotes⟩

end HostRun
end ScriptService
