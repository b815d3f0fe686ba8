import ScriptService.Script.Interpreter

/-!
# Script code over related hosts

The interpreter knows its host by `Natives` only. So code that runs over two hosts whose functions
respect a relation gives the same result over both, and leaves the hosts related. With a host that
keeps notes beside the other one, this says at once that the notes change nothing, and that what
every function of the host keeps is kept by all script code.

Main statements: `Interpreter.callBack_related` and `Interpreter.runTop_related`.
-/

namespace ScriptService

/-- Code as it runs over any host. -/
abbrev Code (α : Type) := (σ : Type) → Natives σ → Run σ α

variable {σ τ : Type}

/-- Whether script code makes an event happen by itself, and not by calling the host. -/
def Event.isScripted : Event → Bool
  | .record _ => true
  | .live _ => true
  | .returned _ _ => true
  | .arguments _ => true
  | _ => false

/-- Two hosts whose functions respect a relation between their states. -/
structure Natives.Related (R : σ → τ → Prop) (natives : Natives σ) (others : Natives τ) : Prop where
  invoke : ∀ name args s t, R s t →
    (natives.invoke name args s = none ∧ others.invoke name args t = none) ∨
      ∃ result s' t', natives.invoke name args s = some (result, s') ∧
        others.invoke name args t = some (result, t') ∧ R s' t'
  note : ∀ e s t, e.isScripted = true → R s t → R (natives.note e s) (others.note e t)
  held : ∀ s t, R s t → natives.held s = others.held t

/-- Two machines with the same script and related hosts. -/
structure Machine.Related (R : σ → τ → Prop) (m : Machine σ) (n : Machine τ) : Prop where
  script : m.script = n.script
  host : R m.host n.host

/-- Code that gives the same result and related machines when it starts on related machines. -/
def Run.Related {α : Type} (R : σ → τ → Prop) (code : Run σ α) (other : Run τ α) : Prop :=
  ∀ m n, Machine.Related R m n →
    (code.run.run m).1 = (other.run.run n).1 ∧
      Machine.Related R (code.run.run m).2 (other.run.run n).2

namespace Run

variable {R : σ → τ → Prop} {α β : Type}

theorem related_pure (a : α) : Run.Related R (pure a : Run σ α) (pure a) :=
  fun _ _ h => ⟨rfl, h⟩

theorem related_throw (fault : Fault) : Run.Related R (throw fault : Run σ α) (throw fault) :=
  fun _ _ h => ⟨rfl, h⟩

theorem run_bind (code : Run σ α) (k : α → Run σ β) (m : Machine σ) :
    (code >>= k).run.run m =
      match code.run.run m with
      | (.ok a, m) => (k a).run.run m
      | (.error fault, m) => (.error fault, m) := by
  simp only [bind, ExceptT.bind, ExceptT.mk, StateT.bind, ExceptT.run, StateT.run]
  rcases code m with ⟨result, m⟩
  cases result <;> rfl

theorem run_tryCatch (code : Run σ α) (k : Fault → Run σ α) (m : Machine σ) :
    (tryCatch code k).run.run m =
      match code.run.run m with
      | (.ok a, m) => (.ok a, m)
      | (.error fault, m) => (k fault).run.run m := by
  simp only [tryCatch, tryCatchThe, MonadExceptOf.tryCatch, ExceptT.tryCatch, ExceptT.mk, bind,
    StateT.bind, ExceptT.run, StateT.run]
  rcases code m with ⟨result, m⟩
  cases result <;> rfl

theorem related_bind {code : Run σ α} {other : Run τ α} {k : α → Run σ β} {k' : α → Run τ β}
    (hcode : Run.Related R code other) (hk : ∀ a, Run.Related R (k a) (k' a)) :
    Run.Related R (code >>= k) (other >>= k') := by
  intro m n h
  have hrun := hcode m n h
  rw [run_bind, run_bind]
  rcases hm : code.run.run m with ⟨result, m'⟩
  rcases hn : other.run.run n with ⟨result', n'⟩
  rw [hm, hn] at hrun
  rcases hrun with ⟨rfl, hnext⟩
  cases result with
  | ok a => exact hk a m' n' hnext
  | error fault => exact ⟨rfl, hnext⟩

theorem related_tryCatch {code : Run σ α} {other : Run τ α} {k : Fault → Run σ α}
    {k' : Fault → Run τ α} (hcode : Run.Related R code other)
    (hk : ∀ fault, Run.Related R (k fault) (k' fault)) :
    Run.Related R (tryCatch code k) (tryCatch other k') := by
  intro m n h
  have hrun := hcode m n h
  rw [run_tryCatch, run_tryCatch]
  rcases hm : code.run.run m with ⟨result, m'⟩
  rcases hn : other.run.run n with ⟨result', n'⟩
  rw [hm, hn] at hrun
  rcases hrun with ⟨rfl, hnext⟩
  cases result with
  | ok a => exact ⟨rfl, hnext⟩
  | error fault => exact hk fault m' n' hnext

/-- Reading the machine: what follows may look at related machines. -/
theorem related_get {k : Machine σ → Run σ α} {k' : Machine τ → Run τ α}
    (hk : ∀ m n, Machine.Related R m n → Run.Related R (k m) (k' n)) :
    Run.Related R (get >>= k) (get >>= k') := by
  intro m n h
  rw [run_bind, run_bind]
  exact hk m n h m n h

theorem related_modify {f : Machine σ → Machine σ} {g : Machine τ → Machine τ}
    (hf : ∀ m n, Machine.Related R m n → Machine.Related R (f m) (g n)) :
    Run.Related R (modify f : Run σ Unit) (modify g) :=
  fun m n h => ⟨rfl, hf m n h⟩

end Run

namespace Interpreter

variable {R : σ → τ → Prop} {natives : Natives σ} {others : Natives τ}

theorem note_related (hnatives : Natives.Related R natives others) {e : Event}
    (he : e.isScripted = true) : Run.Related R (note natives e) (note others e) :=
  Run.related_modify fun m n h => ⟨h.script, hnatives.note e m.host n.host he h.host⟩

theorem evaluate_related (frame : Frame) (e : Expr) :
    Run.Related R (evaluate frame e : Run σ Value) (evaluate frame e) := by
  intro m n h
  rcases m with ⟨script, host⟩
  rcases n with ⟨script', host'⟩
  have hscript : script = script' := h.script
  subst hscript
  exact ⟨rfl, rfl, h.host⟩

theorem evaluateItems_related (frame : Frame) (es : List Expr) :
    Run.Related R (evaluateItems frame es : Run σ (List Value)) (evaluateItems frame es) := by
  intro m n h
  rcases m with ⟨script, host⟩
  rcases n with ⟨script', host'⟩
  have hscript : script = script' := h.script
  subst hscript
  exact ⟨rfl, rfl, h.host⟩

theorem alive_related (hnatives : Natives.Related R natives others) {m : Machine σ}
    {n : Machine τ} (h : Machine.Related R m n) (held : List Value) :
    alive natives m held = alive others n held := by
  unfold alive
  rw [h.script, hnatives.held m.host n.host h.host]

theorem invoke_related (hnatives : Natives.Related R natives others) (name : String)
    (args : List Value) : Run.Related R (invoke natives name args) (invoke others name args) := by
  refine Run.related_get fun m n h => ?_
  rcases hnatives.invoke name args m.host n.host h.host with ⟨hnone, hnone'⟩ |
    ⟨result, s, t, hsome, hsome', hnext⟩
  · rw [hnone, hnone']
    exact Run.related_throw _
  · rw [hsome, hsome']
    refine Run.related_bind (Run.related_modify fun m n h => ⟨h.script, hnext⟩) fun _ => ?_
    cases result with
    | ok v => exact Run.related_pure v
    | error fault => exact Run.related_throw fault

theorem runActions_related (hnatives : Natives.Related R natives others)
    {call : List Value → String → List Value → Run σ Value}
    {call' : List Value → String → List Value → Run τ Value}
    (hcall : ∀ held name args, Run.Related R (call held name args) (call' held name args))
    (frame : Frame) (held : List Value) (actions : List Action) :
    Run.Related R (runActions natives call frame held actions)
      (runActions others call' frame held actions) := by
  -- Whatever an action does to the machines, they are related when the rest goes on.
  induction actions with
  | nil => exact Run.related_pure _
  | cons action rest ih =>
    cases action with
    | record e =>
      refine Run.related_bind (evaluate_related frame e) fun v => ?_
      exact Run.related_bind (note_related hnatives rfl) fun _ => ih
    | live =>
      refine Run.related_get fun m n h => ?_
      rw [alive_related hnatives h]
      exact Run.related_bind (note_related hnatives rfl) fun _ => ih
    | give e => exact evaluate_related frame e
    | throw e => exact Run.related_bind (evaluate_related frame e) fun v => Run.related_throw _
    | native label name args =>
      refine Run.related_bind (evaluateItems_related frame args) fun vs => ?_
      refine Run.related_bind (invoke_related hnatives name vs) fun v => ?_
      cases label with
      | none => exact Run.related_bind (Run.related_pure ()) fun _ => ih
      | some label => exact Run.related_bind (note_related hnatives rfl) fun _ => ih
    | call name args =>
      refine Run.related_bind (evaluateItems_related frame args) fun vs => ?_
      refine Run.related_bind (hcall held name vs) fun v => ?_
      exact Run.related_bind (note_related hnatives rfl) fun _ => ih
    | misread reason => exact Run.related_throw _

theorem callFunction_related (hnatives : Natives.Related R natives others) (depth : Nat)
    (held : List Value) (name : String) (args : List Value) :
    Run.Related R (callFunction natives depth held name args)
      (callFunction others depth held name args) := by
  -- A function that is called runs at a lower depth.
  induction depth generalizing held name args with
  | zero =>
    refine Run.related_get fun m n h => ?_
    rw [h.script]
    cases n.script.program.function? name args.length with
    | none => exact invoke_related hnatives name args
    | some f => exact Run.related_throw _
  | succ depth ih =>
    refine Run.related_get fun m n h => ?_
    rw [h.script]
    cases n.script.program.function? name args.length with
    | none => exact invoke_related hnatives name args
    | some f =>
      refine Run.related_bind (Run.related_modify fun m n h => ⟨?_, h.host⟩) fun _ => ?_
      · show m.script.countCall _ = n.script.countCall _
        rw [h.script]
      · refine Run.related_get fun m n h => ?_
        rw [h.script]
        exact Run.related_tryCatch (runActions_related hnatives ih _ _ _) fun fault =>
          Run.related_throw _

theorem callBack_related (hnatives : Natives.Related R natives others) (held : List Value)
    (f : Callback) (args : List Value) :
    Run.Related R (callBack natives held f args) (callBack others held f args) :=
  callFunction_related hnatives _ held _ _

theorem defineGlobals_related (all globals : List (String × Expr)) :
    Run.Related R (defineGlobals all globals : Run σ Unit) (defineGlobals all globals) := by
  induction globals with
  | nil => exact Run.related_pure ()
  | cons p rest ih =>
    refine Run.related_bind (evaluate_related _ _) fun v => ?_
    refine Run.related_bind (Run.related_modify fun m n h => ⟨?_, h.host⟩) fun _ => ih
    show m.script.define _ _ = n.script.define _ _
    rw [h.script]

theorem showArguments_related (hnatives : Natives.Related R natives others) :
    Run.Related R (showArguments natives) (showArguments others) := by
  refine Run.related_get fun m n h => ?_
  rw [h.script]
  cases n.script.global? "ARGV" with
  | none => exact Run.related_throw _
  | some v => exact note_related hnatives rfl

theorem runTop_related (hnatives : Natives.Related R natives others) :
    Run.Related R (runTop natives) (runTop others) := by
  have hactions : ∀ actions, Run.Related R
      (runActions natives (callFunction natives callDepthLimit) ⟨[], 0⟩ [] actions)
      (runActions others (callFunction others callDepthLimit) ⟨[], 0⟩ [] actions) :=
    runActions_related hnatives (callFunction_related hnatives _) _ _
  unfold runTop
  -- The value that code at any depth ends the evaluation with is an early return.
  refine Run.related_bind (Run.related_tryCatch (Run.related_get fun m n h => ?_) fun fault => ?_)
    fun e => ?_
  · rw [h.script]
    refine Run.related_bind (defineGlobals_related _ _) fun _ => ?_
    split
    · refine Run.related_bind (showArguments_related hnatives) fun _ => ?_
      exact Run.related_bind (hactions _) fun v => Run.related_pure _
    · exact Run.related_bind (hactions _) fun v => Run.related_pure _
  · split
    · exact Run.related_pure _
    · exact Run.related_bind (Run.related_throw fault) fun v => Run.related_pure _
  · cases e with
    | ok v => exact Run.related_pure v
    | error v => exact Run.related_pure v

end Interpreter
end ScriptService
