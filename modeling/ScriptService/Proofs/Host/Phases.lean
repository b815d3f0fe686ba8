import ScriptService.Host.Run

/-!
# What the phases of a host can do

Inversion of the operations that take a host from its script's file into the event loop and out of
it again: each operation in its own phase, what it gives and what it makes of the host.

Main statements: `Host.loads`, `Host.executes`, `Host.starts`, `Host.enters` and `Host.shutsDown`.
-/

namespace ScriptService.Host

/-- What loading a script can do. -/
inductive Loads (h : Host) : ScriptFile → Except HostError Unit → Host → Prop where
  | refused (file : ScriptFile) (hphase : h.phase ≠ .uninitialized) :
      Loads h file (.error (.wrongPhase "load" h.phase)) h
  | unreadable (path reason : String) (hphase : h.phase = .uninitialized) :
      Loads h (.unreadable path reason) (.error (.load path reason)) h
  | uncompiled (p : Program) (hphase : h.phase = .uninitialized)
      (hcompile : h.script.compile p = none) :
      Loads h (.program p) (.error (.compile syntaxDetails)) h
  | loaded (p : Program) (script : Script) (hphase : h.phase = .uninitialized)
      (hcompile : h.script.compile p = some script) :
      Loads h (.program p) (.ok ()) { h.withScript fun _ => script with phase := .compiled }

theorem loads (h : Host) (file : ScriptFile) : Loads h file (h.load file).1 (h.load file).2 := by
  unfold load expect
  by_cases hphase : h.phase = .uninitialized
  · simp only [hphase, if_true]
    cases file with
    | unreadable path reason => exact .unreadable path reason hphase
    | program p =>
      cases hcompile : h.script.compile p with
      | none =>
        simp only [hcompile]
        exact .uncompiled p hphase hcompile
      | some script =>
        simp only [hcompile]
        exact .loaded p script hphase hcompile
  · simp only [hphase, if_false]
    exact .refused file hphase

/-- The host with the arguments of its script. -/
def withArguments (h : Host) : Host := h.withScript fun s => s.bindArguments h.config.args

/-- The host after its top level. -/
def executed (h : Host) : Host := { h with phase := .topLevelExecuted }

/-- What the top level can do. -/
inductive Executes (h : Host) : Except HostError (Option Int32) → Host → Prop where
  | refused (hphase : h.phase ≠ .compiled) :
      Executes h (.error (.wrongPhase "execute" h.phase)) h
  | returned (v : Value) (next : Host) (hphase : h.phase = .compiled)
      (hrun : h.withArguments.perform (Interpreter.runTop Resources.natives) = (.ok v, next)) :
      Executes h (.ok none) next.executed.activateLog
  | exited (code : Int32) (next : Host) (hphase : h.phase = .compiled)
      (hrun : h.withArguments.perform (Interpreter.runTop Resources.natives) =
        (.error (.exit code), next)) :
      Executes h (.ok (some code)) next.executed
  | uncompiled (next : Host) (hphase : h.phase = .compiled)
      (hrun : h.withArguments.perform (Interpreter.runTop Resources.natives) =
        (.error .compile, next)) :
      Executes h (.error (.compile syntaxDetails)) { next.executed with crashed := true }
  | raised (text : String) (next : Host) (hphase : h.phase = .compiled)
      (hrun : h.withArguments.perform (Interpreter.runTop Resources.natives) =
        (.error (.exception text), next)) :
      Executes h (.error (.runtime text)) { next.executed with crashed := true }

theorem executes (h : Host) : Executes h h.execute.1 h.execute.2 := by
  unfold execute expect
  by_cases hphase : h.phase = .compiled
  · simp only [hphase, if_true]
    rcases hrun : h.withArguments.perform (Interpreter.runTop Resources.natives) with ⟨result, next⟩
    have hrun' := hrun
    unfold withArguments at hrun'
    simp only [hrun']
    cases result with
    | ok v => exact .returned v next hphase hrun
    | error e =>
      cases e with
      | exit code => exact .exited code next hphase hrun
      | compile => exact .uncompiled next hphase hrun
      | exception text => exact .raised text next hphase hrun
  · simp only [hphase, if_false]
    exact .refused hphase

/-- What `start` can do. -/
inductive Starts (h : Host) : Except HostError (Option Int32) → Host → Prop where
  | refused (hphase : h.phase ≠ .topLevelExecuted) :
      Starts h (.error (.wrongPhase "start" h.phase)) h
  | missing (hphase : h.phase = .topLevelExecuted)
      (hentry : h.script.entryPoint "start" = .missing) :
      Starts h (.error .missingStart) h
  | notCallable (hphase : h.phase = .topLevelExecuted)
      (hentry : h.script.entryPoint "start" = .notCallable) : Starts h (.error .invalidStart) h
  | returned (f : Callback) (v : Value) (next : Host) (hphase : h.phase = .topLevelExecuted)
      (hentry : h.script.entryPoint "start" = .callable f)
      (hcall : h.call f [] [] = (.ok v, next)) :
      Starts h (.ok none) { next with phase := .started }
  | exited (f : Callback) (code : Int32) (next : Host) (hphase : h.phase = .topLevelExecuted)
      (hentry : h.script.entryPoint "start" = .callable f)
      (hcall : h.call f [] [] = (.error (.exit code), next)) :
      Starts h (.ok (some code)) { next with phase := .started }
  | raised (f : Callback) (e : ScriptError) (next : Host) (hphase : h.phase = .topLevelExecuted)
      (hentry : h.script.entryPoint "start" = .callable f)
      (hcall : h.call f [] [] = (.error e, next)) (he : ∀ code, e ≠ .exit code) :
      Starts h (.error (.startFailed e.message)) { next with crashed := true }

theorem starts (h : Host) : Starts h h.start.1 h.start.2 := by
  unfold start expect
  by_cases hphase : h.phase = .topLevelExecuted
  · simp only [hphase, if_true]
    cases hentry : h.script.entryPoint "start" with
    | missing => exact .missing hphase hentry
    | notCallable => exact .notCallable hphase hentry
    | callable f =>
      rcases hcall : h.call f [] [] with ⟨result, next⟩
      simp only [hcall]
      cases result with
      | ok v => exact .returned f v next hphase hentry hcall
      | error e =>
        cases e with
        | exit code => exact .exited f code next hphase hentry hcall
        | compile => exact .raised f .compile next hphase hentry hcall (by simp)
        | exception text => exact .raised f (.exception text) next hphase hentry hcall (by simp)
  · simp only [hphase, if_false]
    exact .refused hphase

/-- What publishing the service that the script declares can do: what it leaves of the host. -/
inductive Publishes (h : Host) : Host → Prop where
  | none : Publishes h h
  | ignored (e : DeclarationError) :
      Publishes h (h.inWorld fun w => w.warn "Ignoring bus declaration" [("error", e.message)])
  | published (d : ServiceDeclaration) (w : World) (hworld : w.clock = h.now) :
      Publishes h
        { h.withResources fun r => { r with world := w, service := some d } with
          client := h.client.publish d.exported h.config.retry
          loop := { h.loop with attached := true } }

theorem publishes (h : Host) : Publishes h h.activateService := by
  unfold activateService
  cases h.script.global? ServiceDeclaration.global with
  | none => exact .none
  | some v =>
    simp only
    cases ServiceDeclaration.ofValue? v with
    | error e => exact .ignored e
    | ok d =>
      exact .published d (h.world.info "Publishing bus object" (publishDetails d.exported)) rfl

/-- What entering the loop can do. -/
inductive Enters (h : Host) : Except HostError Unit → Host → Prop where
  | refused (hphase : h.phase ≠ .started) : Enters h (.error (.wrongPhase "run" h.phase)) h
  | entered (hphase : h.phase = .started) :
      Enters h (.ok ()) { h.activateService with phase := .running }

theorem enters (h : Host) : Enters h h.enter.1 h.enter.2 := by
  unfold enter expect
  by_cases hphase : h.phase = .started
  · simp only [hphase, if_true]
    exact .entered hphase
  · simp only [hphase, if_false]
    exact .refused hphase

/-- What calling `stop` can do. -/
inductive Stops (h : Host) : Host → Prop where
  | crashed (hcrashed : h.crashed = true) : Stops h h
  | missing (hcrashed : h.crashed = false) (hentry : h.script.entryPoint "stop" = .missing) :
      Stops h h
  | notCallable (hcrashed : h.crashed = false)
      (hentry : h.script.entryPoint "stop" = .notCallable) :
      Stops h (h.inWorld fun w => w.warn "stop is not a callable function" [])
  | returned (f : Callback) (v : Value) (next : Host) (hcrashed : h.crashed = false)
      (hentry : h.script.entryPoint "stop" = .callable f)
      (hcall : h.call f [] [] = (.ok v, next)) : Stops h next
  | exited (f : Callback) (code : Int32) (next : Host) (hcrashed : h.crashed = false)
      (hentry : h.script.entryPoint "stop" = .callable f)
      (hcall : h.call f [] [] = (.error (.exit code), next)) :
      Stops h (next.withResources fun r => r.requestExit code)
  | raised (f : Callback) (e : ScriptError) (next : Host) (hcrashed : h.crashed = false)
      (hentry : h.script.entryPoint "stop" = .callable f)
      (hcall : h.call f [] [] = (.error e, next)) (he : ∀ code, e ≠ .exit code) :
      Stops h (next.inWorld fun w =>
        w.error "Unhandled exception in stop" [("error", e.message)])

/-- What a shutdown can do. -/
inductive ShutsDown (h : Host) : Except HostError Int32 → Host → Prop where
  | refused (hphase : h.phase ≠ .stopRequested) :
      ShutsDown h (.error (.wrongPhase "shutdown" h.phase)) h
  | done (next : Host) (hphase : h.phase = .stopRequested) (hstops : Stops h next) :
      ShutsDown h (.ok (next.resources.exitCode.getD 0)) next

theorem shutsDown (h : Host) : ShutsDown h h.shutdown.1 h.shutdown.2 := by
  unfold shutdown expect
  by_cases hphase : h.phase = .stopRequested
  · simp only [hphase, if_true]
    by_cases hcrashed : h.crashed = true
    · simp only [hcrashed, if_true]
      exact .done h hphase (.crashed hcrashed)
    · have hsound : h.crashed = false := by simpa using hcrashed
      simp only [hsound, Bool.false_eq_true, if_false]
      cases hentry : h.script.entryPoint "stop" with
      | missing => exact .done h hphase (.missing hsound hentry)
      | notCallable => exact .done _ hphase (.notCallable hsound hentry)
      | callable f =>
        rcases hcall : h.call f [] [] with ⟨result, next⟩
        simp only [hcall]
        cases result with
        | ok v => exact .done next hphase (.returned f v next hsound hentry hcall)
        | error e =>
          cases e with
          | exit code => exact .done _ hphase (.exited f code next hsound hentry hcall)
          | compile =>
            exact .done _ hphase (.raised f .compile next hsound hentry hcall (by simp))
          | exception text =>
            exact .done _ hphase (.raised f (.exception text) next hsound hentry hcall (by simp))
  · simp only [hphase, if_false]
    exact .refused hphase

end ScriptService.Host
