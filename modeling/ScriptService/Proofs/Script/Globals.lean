import ScriptService.Proofs.Script.Related

/-!
# The global scope

Only the top level of a program defines global values. A function that is called later, by the
script or by the host, leaves the global scope as it is, whatever it does and however it ends.

Main statement: `Interpreter.callBack_scoped`.
-/

namespace ScriptService

/-- Code that leaves the global scope as it is. -/
def Run.Scoped {σ α : Type} (code : Run σ α) : Prop :=
  ∀ m, (code.run.run m).2.script.globals = m.script.globals

namespace Run

variable {σ α β : Type}

theorem scoped_pure (a : α) : Run.Scoped (pure a : Run σ α) := fun _ => rfl

theorem scoped_throw (fault : Fault) : Run.Scoped (throw fault : Run σ α) := fun _ => rfl

theorem scoped_bind {code : Run σ α} {k : α → Run σ β} (hcode : Run.Scoped code)
    (hk : ∀ a, Run.Scoped (k a)) : Run.Scoped (code >>= k) := by
  intro m
  have hfirst := hcode m
  rw [run_bind]
  rcases hrun : code.run.run m with ⟨result, m'⟩
  rw [hrun] at hfirst
  cases result with
  | ok a => exact (hk a m').trans hfirst
  | error fault => exact hfirst

theorem scoped_tryCatch {code : Run σ α} {k : Fault → Run σ α} (hcode : Run.Scoped code)
    (hk : ∀ fault, Run.Scoped (k fault)) : Run.Scoped (tryCatch code k) := by
  intro m
  have hfirst := hcode m
  rw [run_tryCatch]
  rcases hrun : code.run.run m with ⟨result, m'⟩
  rw [hrun] at hfirst
  cases result with
  | ok a => exact hfirst
  | error fault => exact (hk fault m').trans hfirst

theorem scoped_get {k : Machine σ → Run σ α} (hk : ∀ m, Run.Scoped (k m)) :
    Run.Scoped (get >>= k) := by
  intro m
  rw [run_bind]
  exact hk m m

theorem scoped_modify {f : Machine σ → Machine σ}
    (hf : ∀ m, (f m).script.globals = m.script.globals) : Run.Scoped (modify f : Run σ Unit) :=
  hf

end Run

namespace Interpreter

variable {σ : Type} (natives : Natives σ)

theorem evaluate_scoped (frame : Frame) (e : Expr) :
    Run.Scoped (evaluate frame e : Run σ Value) := fun _ => rfl

theorem evaluateItems_scoped (frame : Frame) (es : List Expr) :
    Run.Scoped (evaluateItems frame es : Run σ (List Value)) := fun _ => rfl

theorem note_scoped (e : Event) : Run.Scoped (note natives e) := fun _ => rfl

theorem invoke_scoped (name : String) (args : List Value) :
    Run.Scoped (invoke natives name args) := by
  refine Run.scoped_get fun m => ?_
  cases natives.invoke name args m.host with
  | none => exact Run.scoped_throw _
  | some p =>
    rcases p with ⟨result, host⟩
    refine Run.scoped_bind (Run.scoped_modify fun _ => rfl) fun _ => ?_
    cases result with
    | ok v => exact Run.scoped_pure v
    | error fault => exact Run.scoped_throw fault

variable {natives} in
theorem runActions_scoped {call : List Value → String → List Value → Run σ Value}
    (hcall : ∀ held name args, Run.Scoped (call held name args)) (frame : Frame) (held : List Value)
    (actions : List Action) : Run.Scoped (runActions natives call frame held actions) := by
  induction actions with
  | nil => exact Run.scoped_pure _
  | cons action rest ih =>
    cases action with
    | record e =>
      refine Run.scoped_bind (evaluate_scoped frame e) fun v => ?_
      exact Run.scoped_bind (note_scoped natives _) fun _ => ih
    | live => exact Run.scoped_get fun m => Run.scoped_bind (note_scoped natives _) fun _ => ih
    | give e => exact evaluate_scoped frame e
    | throw e => exact Run.scoped_bind (evaluate_scoped frame e) fun v => Run.scoped_throw _
    | native label name args =>
      refine Run.scoped_bind (evaluateItems_scoped frame args) fun vs => ?_
      refine Run.scoped_bind (invoke_scoped natives name vs) fun v => ?_
      cases label with
      | none => exact Run.scoped_bind (Run.scoped_pure ()) fun _ => ih
      | some label => exact Run.scoped_bind (note_scoped natives _) fun _ => ih
    | call name args =>
      refine Run.scoped_bind (evaluateItems_scoped frame args) fun vs => ?_
      refine Run.scoped_bind (hcall held name vs) fun v => ?_
      exact Run.scoped_bind (note_scoped natives _) fun _ => ih
    | misread reason => exact Run.scoped_throw _

theorem callFunction_scoped (depth : Nat) (held : List Value) (name : String)
    (args : List Value) : Run.Scoped (callFunction natives depth held name args) := by
  induction depth generalizing held name args with
  | zero =>
    refine Run.scoped_get fun m => ?_
    cases m.script.program.function? name args.length with
    | none => exact invoke_scoped natives name args
    | some f => exact Run.scoped_throw _
  | succ depth ih =>
    refine Run.scoped_get fun m => ?_
    cases m.script.program.function? name args.length with
    | none => exact invoke_scoped natives name args
    | some f =>
      -- The call is counted, which is no change of the scope.
      refine Run.scoped_bind (Run.scoped_modify fun _ => rfl) fun _ => ?_
      refine Run.scoped_get fun m => ?_
      exact Run.scoped_tryCatch (runActions_scoped ih _ _ _) fun fault => Run.scoped_throw _

/-- A function that is called back leaves the global scope as it is. -/
theorem callBack_scoped (held : List Value) (f : Callback) (args : List Value) :
    Run.Scoped (callBack natives held f args) :=
  callFunction_scoped natives _ held _ _

end Interpreter
end ScriptService
