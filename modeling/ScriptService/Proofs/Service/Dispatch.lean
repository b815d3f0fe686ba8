import ScriptService.Proofs.Script.Carried
import ScriptService.Proofs.Service.Exported

/-!
# What becomes of a call

A call of a method that is bound to a function runs that function once, with the payload of the call
if it has one, and is answered with success whatever the function does. A reply is sent along only
if the function returned a table or a map that has fields left when it goes out.

Main statement: `Dispatch.lawful`.
-/

namespace ScriptService

/-! ## Whatever runs the functions -/

/-- How functions are run: what a function makes of its arguments, and of a state. -/
abbrev Callee (τ : Type) := Callback → List Value → τ → Except ScriptError Value × τ

/-- The interpreter runs functions. -/
def Natives.callee {σ : Type} (natives : Natives σ) : Callee (Machine σ) :=
  fun f args => Interpreter.perform (Interpreter.callBack natives [] f args)

/-- Functions are run as before, and every run is noted. -/
def Callee.noting {τ : Type} (callee : Callee τ) : Callee (τ × List (Callback × List Value)) :=
  fun f args p =>
    let (result, s) := callee f args p.1
    (result, s, p.2 ++ [(f, args)])

/-- The arguments of a function that is bound to a method: the payload, if there is one. -/
def Dispatch.arguments : Option Table → List Value
  | none => []
  | some t => [Value.ofTable t]

namespace Dispatch

/-- What the end of a function gives for an answer. -/
def ofResult : Except ScriptError Value → Dispatch
  | .ok v => ⟨.ok, replyOf v, none⟩
  | .error e => ⟨.ok, none, some e⟩

theorem status_ofResult (result : Except ScriptError Value) : (ofResult result).status = .ok := by
  cases result with
  | ok v => rfl
  | error e => rfl

/-- A dispatch, whatever runs the functions. -/
def runBy {τ : Type} (callee : Callee τ) (d : ServiceDeclaration) (method : String)
    (data : Option Table) (s : τ) : Dispatch × τ :=
  match d.callback? method with
  | none => (⟨.methodNotFound, none, none⟩, s)
  | some f =>
    let (result, s) := callee f (arguments data) s
    (ofResult result, s)

theorem run_eq_runBy {σ : Type} (natives : Natives σ) (d : ServiceDeclaration) (method : String)
    (data : Option Table) (m : Machine σ) :
    run natives d method data m = runBy natives.callee d method data m := by
  have hargs : data.toList.map Value.ofTable = arguments data := by
    cases data with
    | none => rfl
    | some t => rfl
  unfold run runBy Natives.callee
  rw [hargs]
  cases d.callback? method with
  | none => rfl
  | some f =>
    simp only
    rcases Interpreter.perform (Interpreter.callBack natives [] f (arguments data)) m with
      ⟨result, next⟩
    cases result with
    | ok v => rfl
    | error e => rfl

/-! ## Replies -/

/-- A reply is the payload that a table or an object map goes out as, unless nothing is left of
it. -/
theorem replyOf_eq_some_iff {v : Value} {t : Table} :
    replyOf v = some t ↔
      t ≠ [] ∧ ∃ fields, (v.content = .table fields ∨ v.content = .map fields) ∧
        Value.attributeFields fields = t := by
  rw [← Value.toTable?_eq_some_iff, replyOf, Option.filter_eq_some_iff]
  simp [and_comm]

theorem reply_ofResult_eq_some_iff {result : Except ScriptError Value} {t : Table} :
    (ofResult result).reply = some t ↔ t ≠ [] ∧ ∃ v fields, result = .ok v ∧
      (v.content = .table fields ∨ v.content = .map fields) ∧
        Value.attributeFields fields = t := by
  cases result with
  | ok v => simp [ofResult, replyOf_eq_some_iff]
  | error e => simp [ofResult]

/-! ## The law -/

/-- What becomes of a call of a method, to which the function `bound` is bound, if any. -/
structure Lawful {σ : Type} (natives : Natives σ) (d : ServiceDeclaration)
    (bound : Option Callback) (method : String) (data : Option Table) (m : Machine σ) : Prop where
  /-- Without a function, the answer is "method not found"; with one it never is. -/
  notFound : (run natives d method data m).1.status = .methodNotFound ↔ bound = none
  /-- Without a function, nothing is run. -/
  untouched : bound = none → run natives d method data m = (⟨.methodNotFound, none, none⟩, m)
  /-- A function is run with the payload as its only argument, or without arguments if there is no
  payload. -/
  invoked : ∀ f, bound = some f →
    (run natives d method data m).2 = (natives.callee f (arguments data) m).2
  /-- However the function ends, the status is success. -/
  success : ∀ f, bound = some f → (run natives d method data m).1.status = .ok
  /-- A reply goes along exactly if the function returned a table or a map with a field that the bus
  can carry, and it has those fields in their order. -/
  reply : ∀ f, bound = some f → ∀ t,
    (run natives d method data m).1.reply = some t ↔ t ≠ [] ∧ ∃ v fields,
      (natives.callee f (arguments data) m).1 = .ok v ∧
        (v.content = .table fields ∨ v.content = .map fields) ∧ Value.attributeFields fields = t
  /-- The dispatch does nothing but run functions, and whatever runs them, it runs the bound one
  once and no other. -/
  once : run natives d method data m = runBy natives.callee d method data m ∧
    ∀ {τ : Type} (callee : Callee τ) (s : τ),
      (runBy callee.noting d method data (s, [])).1 = (runBy callee d method data s).1 ∧
        (runBy callee.noting d method data (s, [])).2 =
          ((runBy callee d method data s).2, bound.toList.map fun f => (f, arguments data))

/-- A declaration that was read from a global value answers calls by law, with the functions that
the global value binds to its methods. -/
theorem lawful {v : Value} {d : ServiceDeclaration} (hd : ServiceDeclaration.ofValue? v = .ok d)
    {σ : Type} (natives : Natives σ) (method : String) (data : Option Table) (m : Machine σ) :
    Lawful natives d (v.boundTo? method) method data m := by
  have hrun := run_eq_runBy natives d method data m
  have hbound := ServiceDeclaration.callback?_of_ofValue? hd method
  rw [← hbound]
  constructor
  · exact run_status_eq_iff
  · intro hnone
    rw [hrun, runBy, hnone]
  · intro f hf
    rw [hrun, runBy, hf]
  · intro f hf
    rw [hrun, runBy, hf]
    exact status_ofResult _
  · intro f hf t
    rw [hrun, runBy, hf]
    exact reply_ofResult_eq_some_iff
  · -- What is run can be seen with any way to run functions, so also with one that keeps a list.
    refine ⟨hrun, ?_⟩
    intro τ callee s
    unfold runBy
    cases d.callback? method with
    | none => exact ⟨rfl, rfl⟩
    | some f => exact ⟨rfl, rfl⟩

end Dispatch
end ScriptService
