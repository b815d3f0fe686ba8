import ScriptService.Proofs.Script.EntryPoints

/-!
# Chains of calls

Code that runs a function is still inside the functions that led to the call. A chain of calls leads
from a point of the code to a point inside nested functions: the actions before each call went on,
and the call was then made. A fault that is raised at the innermost point is the fault of the whole
code, wrapped by each function of the chain, and the machine is left as it was there: no action that
follows, in whatever function, is performed. Every fault of code is raised at the end of a chain.

Main statements: `Interpreter.Leads.run_of_raises` and `Interpreter.run_eq_error_iff`.
-/

namespace ScriptService

/-! ## Faults that left calls -/

namespace Fault

/-- A fault that left functions, the outermost first. -/
def within (names : List String) (inner : Fault) : Fault := names.foldr inCall inner

/-- The functions that a fault left, the outermost first. -/
def calls : Fault → List String
  | inCall name inner => name :: inner.calls
  | _ => []

/-- A fault is its cause within the functions that it left. -/
theorem within_calls (fault : Fault) : fault.cause.within fault.calls = fault := by
  induction fault with
  | inCall name inner ih => exact congrArg (inCall name) ih
  | _ => rfl

theorem cause_within (names : List String) (inner : Fault) :
    (inner.within names).cause = inner.cause := by
  induction names with
  | nil => rfl
  | cons name names ih => exact ih

/-- The functions that a fault left are no part of its text. -/
theorem text_within (names : List String) (inner : Fault) :
    (inner.within names).text = inner.text := by
  induction names with
  | nil => rfl
  | cons name names ih => exact ih

/-- A fault whose cause is known is that cause within functions. -/
theorem cause_eq_iff {fault root : Fault} (hroot : root.cause = root) :
    fault.cause = root ↔ ∃ names, fault = root.within names := by
  constructor
  · intro h
    exact ⟨fault.calls, by rw [← h, within_calls]⟩
  · rintro ⟨names, rfl⟩
    rw [cause_within, hroot]

end Fault

/-- Code in two steps fails in the first one, or in the second one. -/
theorem Run.error_of_bind {σ α β : Type} {code : Run σ α} {k : α → Run σ β} {fault : Fault}
    {m next : Machine σ} (h : (code >>= k).run.run m = (.error fault, next)) :
    code.run.run m = (.error fault, next) ∨
      ∃ a between, code.run.run m = (.ok a, between) ∧
        (k a).run.run between = (.error fault, next) := by
  rw [Run.run_bind] at h
  rcases hfirst : code.run.run m with ⟨result, between⟩
  rw [hfirst] at h
  cases result with
  | ok a => exact .inr ⟨a, between, rfl, h⟩
  | error fault =>
    cases h
    exact .inl rfl

namespace Interpreter

variable {σ : Type}

/-! ## Points of the code -/

/-- What code does next, and the machine on which it does it. -/
inductive Spot (σ : Type) where
  /-- It performs actions, from which calls nest at most `depth` deep. -/
  | actions (depth : Nat) (frame : Frame) (held : List Value) (rest : List Action) (m : Machine σ)
  /-- It calls a function by name. -/
  | call (depth : Nat) (held : List Value) (name : String) (args : List Value) (m : Machine σ)
  /-- It calls a function of the host. -/
  | host (name : String) (args : List Value) (m : Machine σ)

/-- How deep calls can nest from a point on. -/
def Spot.depth : Spot σ → Nat
  | .actions depth _ _ _ _ => depth
  | .call depth _ _ _ _ => depth
  | .host _ _ _ => 0

/-- The first point inside a function that is called: the call is counted, and the body for that
call follows. -/
def Spot.inside (depth : Nat) (held : List Value) (f : Function) (args : List Value)
    (m : Machine σ) : Spot σ :=
  let script := m.script.countCall (f.name, args.length)
  let count := script.callsOf (f.name, args.length)
  .actions depth ⟨args, count⟩ (held ++ args) (f.body count) { m with script }

section

variable (natives : Natives σ)

/-- Runs code from a point on. -/
def Spot.run : Spot σ → Except Fault Value × Machine σ
  | .actions depth frame held rest m =>
    (runActions natives (callFunction natives depth) frame held rest).run.run m
  | .call depth held name args m => (callFunction natives depth held name args).run.run m
  | .host name args m => (invoke natives name args).run.run m

/-- Performs one action; a value if it is the result of the code, which then ends. -/
def runAction (call : List Value → String → List Value → Run σ Value) (frame : Frame)
    (held : List Value) : Action → Run σ (Option Value)
  | .record e => do
    note natives (.record (← evaluate frame e))
    return none
  | .live => do
    note natives (.live (alive natives (← get) held))
    return none
  | .give e => do return some (← evaluate frame e)
  | .throw e => do throw (.thrown (← evaluate frame e))
  | .native label name args => do
    let v ← invoke natives name (← evaluateItems frame args)
    match label with
    | some label => note natives (.returned label v)
    | none => pure ()
    return none
  | .call name args => do
    let v ← call held name (← evaluateItems frame args)
    note natives (.returned "call" v)
    return none
  | .misread reason => do throw (.syntaxError reason)

theorem runActions_cons (call : List Value → String → List Value → Run σ Value) (frame : Frame)
    (held : List Value) (action : Action) (rest : List Action) :
    runActions natives call frame held (action :: rest) = (do
      match ← runAction natives call frame held action with
      | some v => return v
      | none => runActions natives call frame held rest) := by
  cases action with
  | native label name args => cases label <;> simp [runActions, runAction]
  | _ => simp [runActions, runAction]

/-- A call of a function of the program runs its body, whose faults leave the function. -/
theorem run_call_function (depth : Nat) (held : List Value) {name : String} {args : List Value}
    {f : Function} {m : Machine σ} (hf : m.script.program.function? name args.length = some f) :
    (Spot.call (depth + 1) held name args m).run natives =
      match (Spot.inside depth held f args m).run natives with
      | (.ok v, m) => (.ok v, m)
      | (.error fault, m) => (.error (.inCall name fault), m) := by
  have hname := (Program.function?_sound hf).2.1
  subst hname
  show (callFunction natives (depth + 1) held f.name args).run.run m = _
  rw [callFunction_eq natives depth held hf]
  -- To count the call and to look up its number cannot fail.
  let script := m.script.countCall (f.name, args.length)
  let count := script.callsOf (f.name, args.length)
  let body :=
    runActions natives (callFunction natives depth) ⟨args, count⟩ (held ++ args) (f.body count)
  have hbody : (Spot.inside depth held f args m).run natives = body.run.run { m with script } := rfl
  refine (Run.run_tryCatch body (fun fault => throw (.inCall f.name fault)) _).trans ?_
  rw [hbody]
  rcases body.run.run { m with script } with ⟨result, next⟩
  cases result <;> rfl

/-- A call that no function of the program takes is one of the host. -/
theorem run_call_host (depth : Nat) (held : List Value) {name : String} {args : List Value}
    {m : Machine σ} (hf : m.script.program.function? name args.length = none) :
    (Spot.call depth held name args m).run natives = (Spot.host name args m).run natives := by
  have hget : (get : Run σ (Machine σ)).run.run m = (.ok m, m) := rfl
  show (callFunction natives depth held name args).run.run m = _
  cases depth with
  | zero =>
    rw [callFunction, Run.run_bind, hget]
    simp only [hf]
    rfl
  | succ depth =>
    rw [callFunction, Run.run_bind, hget]
    simp only [hf]
    rfl

/-- As deep as calls can nest, a function of the program is not run. -/
theorem run_call_zero (held : List Value) {name : String} {args : List Value} {f : Function}
    {m : Machine σ} (hf : m.script.program.function? name args.length = some f) :
    (Spot.call 0 held name args m).run natives = (.error (.inCall name .stackOverflow), m) := by
  have hget : (get : Run σ (Machine σ)).run.run m = (.ok m, m) := rfl
  show (callFunction natives 0 held name args).run.run m = _
  rw [callFunction, Run.run_bind, hget]
  simp only [hf]
  rfl

/-! ## Chains -/

/-- Code at a point comes to another point by chains of calls: into the functions of the program
named, the outermost first. -/
inductive Leads : Spot σ → List String → Spot σ → Prop where
  | here (s : Spot σ) : Leads s [] s
  /-- An action is performed, and the code goes on. -/
  | passed {depth : Nat} {frame : Frame} {held : List Value} {action : Action}
    {rest : List Action} {m next : Machine σ} {names : List String} {s : Spot σ}
    (haction : (runAction natives (callFunction natives depth) frame held action).run.run m =
      (.ok none, next))
    (h : Leads (.actions depth frame held rest next) names s) :
    Leads (.actions depth frame held (action :: rest) m) names s
  /-- The next action calls a function of the host. -/
  | native {depth : Nat} {frame : Frame} {held : List Value} {label : Option String}
    {name : String} {args : List Expr} {rest : List Action} {m next : Machine σ}
    {vs : List Value} {names : List String} {s : Spot σ}
    (hargs : (evaluateItems frame args : Run σ (List Value)).run.run m = (.ok vs, next))
    (h : Leads (.host name vs next) names s) :
    Leads (.actions depth frame held (.native label name args :: rest) m) names s
  /-- The next action calls a function by name. -/
  | call {depth : Nat} {frame : Frame} {held : List Value} {name : String} {args : List Expr}
    {rest : List Action} {m next : Machine σ} {vs : List Value} {names : List String} {s : Spot σ}
    (hargs : (evaluateItems frame args : Run σ (List Value)).run.run m = (.ok vs, next))
    (h : Leads (.call depth held name vs next) names s) :
    Leads (.actions depth frame held (.call name args :: rest) m) names s
  /-- The function that is called is one of the program. -/
  | entered {depth : Nat} {held : List Value} {name : String} {args : List Value} {f : Function}
    {m : Machine σ} {names : List String} {s : Spot σ}
    (hf : m.script.program.function? name args.length = some f)
    (h : Leads (.inside depth held f args m) names s) :
    Leads (.call (depth + 1) held name args m) (name :: names) s
  /-- The function that is called is one of the host. -/
  | offered {depth : Nat} {held : List Value} {name : String} {args : List Value}
    {m : Machine σ} {names : List String} {s : Spot σ}
    (hf : m.script.program.function? name args.length = none)
    (h : Leads (.host name args m) names s) :
    Leads (.call depth held name args m) names s

/-- A fault is raised at a point, not in a function called from there; the machine is the one on
which that happens. -/
inductive Raises : Spot σ → Fault → Machine σ → Prop where
  | thrown {depth : Nat} {frame : Frame} {held : List Value} {e : Expr} {rest : List Action}
    {m next : Machine σ} {v : Value}
    (heval : (evaluate frame e : Run σ Value).run.run m = (.ok v, next)) :
    Raises (.actions depth frame held (.throw e :: rest) m) (.thrown v) next
  /-- A text that is run is no script. -/
  | misread {depth : Nat} {frame : Frame} {held : List Value} (reason : String)
    {rest : List Action} (m : Machine σ) :
    Raises (.actions depth frame held (.misread reason :: rest) m) (.syntaxError reason) m
  /-- Calls of functions of the program are nested as deep as they can be. -/
  | tooDeep (held : List Value) {name : String} {args : List Value} {f : Function} {m : Machine σ}
    (hf : m.script.program.function? name args.length = some f) :
    Raises (.call 0 held name args m) (.inCall name .stackOverflow) m
  /-- A function of the host fails. -/
  | failed {name : String} {args : List Value} {fault : Fault} {host : σ} {m : Machine σ}
    (hinvoke : natives.invoke name args m.host = some (.error fault, host)) :
    Raises (.host name args m) fault { m with host }
  /-- No function takes the call. -/
  | missing {name : String} {args : List Value} {m : Machine σ}
    (hinvoke : natives.invoke name args m.host = none) :
    Raises (.host name args m) (.functionNotFound (Value.signature name args)) m

variable {natives} {s s' : Spot σ} {names : List String} {inner fault : Fault} {m : Machine σ}

/-- Each function of a chain is one call deeper than the one before. -/
theorem Leads.length_le (h : Leads natives s names s') : names.length + s'.depth ≤ s.depth := by
  induction h with
  | here s => simp
  | passed _ _ ih => exact ih
  | native _ _ ih => exact Nat.le_trans ih (Nat.zero_le _)
  | call _ _ ih => exact ih
  | entered _ _ ih =>
    simp only [List.length_cons, Spot.depth, Spot.inside] at ih ⊢
    omega
  | offered _ _ ih => exact Nat.le_trans ih (Nat.zero_le _)

/-- A chain to a call of a function by name has taken as many calls as it is deep there. -/
theorem Leads.length_eq {depth : Nat} {held : List Value} {name : String} {args : List Value}
    (h : Leads natives s names (.call depth held name args m)) :
    names.length + depth = s.depth := by
  generalize hs' : Spot.call depth held name args m = s' at h
  induction h with
  | here s =>
    subst hs'
    exact Nat.zero_add depth
  | passed _ _ ih => exact ih hs'
  | call _ _ ih => exact ih hs'
  | entered _ _ ih =>
    have hlength := ih hs'
    simp only [List.length_cons, Spot.depth, Spot.inside] at hlength ⊢
    omega
  -- A function of the host calls no function by name.
  | native _ h _ =>
    cases h
    cases hs'
  | offered _ h _ =>
    cases h
    cases hs'

theorem run_invoke_some {name : String} {args : List Value} {result : Except Fault Value}
    {host : σ} (h : natives.invoke name args m.host = some (result, host)) :
    (Spot.host name args m).run natives = (result, { m with host }) := by
  have hget : (get : Run σ (Machine σ)).run.run m = (.ok m, m) := rfl
  show (invoke natives name args).run.run m = _
  rw [invoke, Run.run_bind, hget]
  simp only [h]
  cases result <;> rfl

theorem run_invoke_none {name : String} {args : List Value}
    (h : natives.invoke name args m.host = none) :
    (Spot.host name args m).run natives =
      (.error (.functionNotFound (Value.signature name args)), m) := by
  have hget : (get : Run σ (Machine σ)).run.run m = (.ok m, m) := rfl
  show (invoke natives name args).run.run m = _
  rw [invoke, Run.run_bind, hget]
  simp only [h]
  rfl

/-- An action that fails is the end of the actions. -/
theorem run_actions_error {depth : Nat} {frame : Frame} {held : List Value} {action : Action}
    (rest : List Action) {next : Machine σ}
    (haction : (runAction natives (callFunction natives depth) frame held action).run.run m =
      (.error fault, next)) :
    (Spot.actions depth frame held (action :: rest) m).run natives = (.error fault, next) := by
  show (runActions natives _ frame held (action :: rest)).run.run m = _
  rw [runActions_cons, Run.run_bind, haction]

theorem Raises.run (h : Raises natives s fault m) : s.run natives = (.error fault, m) := by
  cases h with
  | thrown heval =>
    refine run_actions_error _ ?_
    rw [runAction, Run.run_bind, heval]
    rfl
  | misread reason m => exact run_actions_error _ rfl
  | tooDeep held hf => exact run_call_zero natives held hf
  | failed hinvoke => exact run_invoke_some hinvoke
  | missing hinvoke => exact run_invoke_none hinvoke

/-- A fault at the end of a chain leaves the functions of the chain, and the machine stays as it was
there. -/
theorem Leads.run_error (h : Leads natives s names s') (hrun : s'.run natives = (.error inner, m)) :
    s.run natives = (.error (inner.within names), m) := by
  induction h with
  | here s => exact hrun
  | @passed depth frame held action rest m next names s haction h ih =>
    show (runActions natives _ frame held (action :: rest)).run.run m = _
    rw [runActions_cons, Run.run_bind, haction]
    exact ih hrun
  | @native depth frame held label name args rest m next vs names s hargs h ih =>
    refine run_actions_error _ ?_
    have hinvoke : (invoke natives name vs).run.run next = (.error (inner.within names), _) :=
      ih hrun
    rw [runAction, Run.run_bind, hargs]
    simp only
    rw [Run.run_bind, hinvoke]
  | @call depth frame held name args rest m next vs names s hargs h ih =>
    refine run_actions_error _ ?_
    have hcall : (callFunction natives depth held name vs).run.run next =
        (.error (inner.within names), _) := ih hrun
    rw [runAction, Run.run_bind, hargs]
    simp only
    rw [Run.run_bind, hcall]
  | entered hf h ih =>
    rw [run_call_function natives _ _ hf, ih hrun]
    rfl
  | offered hf h ih =>
    rw [run_call_host natives _ _ hf]
    exact ih hrun

/-- What is raised at the end of a chain is what the code ends with. -/
theorem Leads.run_of_raises (h : Leads natives s names s') (hraises : Raises natives s' inner m) :
    s.run natives = (.error (inner.within names), m) :=
  h.run_error hraises.run

/-! ## Where faults come from -/

/-- A fault is raised at the end of a chain from a point, on a machine. -/
def Arises (natives : Natives σ) (s : Spot σ) (fault : Fault) (m : Machine σ) : Prop :=
  ∃ names s' inner, Leads natives s names s' ∧ Raises natives s' inner m ∧
    fault = inner.within names

theorem arises_host {name : String} {args : List Value} {next : Machine σ}
    (hrun : (invoke natives name args).run.run m = (.error fault, next)) :
    Arises natives (.host name args m) fault next := by
  cases hinvoke : natives.invoke name args m.host with
  | none =>
    cases (run_invoke_none hinvoke).symm.trans hrun
    exact ⟨[], _, _, .here _, .missing hinvoke, rfl⟩
  | some p =>
    rcases p with ⟨result, host⟩
    cases (run_invoke_some hinvoke).symm.trans hrun
    exact ⟨[], _, _, .here _, .failed hinvoke, rfl⟩

/-- An action that fails does so at a point of its own, as long as the calls that it makes do. -/
theorem arises_action {depth : Nat} {frame : Frame} {held : List Value} {action : Action}
    {next : Machine σ} (rest : List Action)
    (hcall : ∀ name args m next, (callFunction natives depth held name args).run.run m =
      (.error fault, next) → Arises natives (.call depth held name args m) fault next)
    (haction : (runAction natives (callFunction natives depth) frame held action).run.run m =
      (.error fault, next)) :
    Arises natives (.actions depth frame held (action :: rest) m) fault next := by
  cases action with
  | record e => cases haction
  | live => cases haction
  | give e => cases haction
  | throw e =>
    cases haction
    exact ⟨[], _, _, .here _, .thrown rfl, rfl⟩
  | native label name args =>
    obtain ⟨vs, before, hargs⟩ : ∃ vs before,
        (evaluateItems frame args : Run σ (List Value)).run.run m = (.ok vs, before) :=
      ⟨_, _, rfl⟩
    rw [runAction, Run.run_bind, hargs] at haction
    rcases Run.error_of_bind haction with hinvoke | ⟨v, after, -, hnote⟩
    · obtain ⟨names, s, inner, hleads, hraises, rfl⟩ := arises_host hinvoke
      exact ⟨names, s, inner, .native hargs hleads, hraises, rfl⟩
    · cases label <;> cases hnote
  | call name args =>
    obtain ⟨vs, before, hargs⟩ : ∃ vs before,
        (evaluateItems frame args : Run σ (List Value)).run.run m = (.ok vs, before) :=
      ⟨_, _, rfl⟩
    rw [runAction, Run.run_bind, hargs] at haction
    rcases Run.error_of_bind haction with hrun | ⟨v, after, -, hnote⟩
    · obtain ⟨names, s, inner, hleads, hraises, rfl⟩ := hcall name vs before _ hrun
      exact ⟨names, s, inner, .call hargs hleads, hraises, rfl⟩
    · cases hnote
  | misread reason =>
    cases haction
    exact ⟨[], _, _, .here _, .misread reason _, rfl⟩

theorem arises_actions {depth : Nat} {frame : Frame} {held : List Value} {rest : List Action}
    {next : Machine σ}
    (hcall : ∀ name args m next, (callFunction natives depth held name args).run.run m =
      (.error fault, next) → Arises natives (.call depth held name args m) fault next)
    (hrun : (runActions natives (callFunction natives depth) frame held rest).run.run m =
      (.error fault, next)) :
    Arises natives (.actions depth frame held rest m) fault next := by
  induction rest generalizing m with
  | nil => cases hrun
  | cons action rest ih =>
    rw [runActions_cons] at hrun
    rcases Run.error_of_bind hrun with haction | ⟨result, after, haction, hrest⟩
    · exact arises_action rest hcall haction
    · cases result with
      | some v => cases hrest
      | none =>
        obtain ⟨names, s, inner, hleads, hraises, rfl⟩ := ih hrest
        exact ⟨names, s, inner, .passed haction hleads, hraises, rfl⟩

theorem arises_offered {depth : Nat} {held : List Value} {name : String} {args : List Value}
    {next : Machine σ} (hf : m.script.program.function? name args.length = none)
    (hrun : (callFunction natives depth held name args).run.run m = (.error fault, next)) :
    Arises natives (.call depth held name args m) fault next := by
  obtain ⟨names, s, inner, hleads, hraises, rfl⟩ :=
    arises_host ((run_call_host natives depth held hf).symm.trans hrun)
  exact ⟨names, s, inner, .offered hf hleads, hraises, rfl⟩

theorem arises_call {depth : Nat} {held : List Value} {name : String} {args : List Value}
    {next : Machine σ}
    (hrun : (callFunction natives depth held name args).run.run m = (.error fault, next)) :
    Arises natives (.call depth held name args m) fault next := by
  -- The function that is called runs at a lower depth.
  induction depth generalizing held name args m fault next with
  | zero =>
    cases hf : m.script.program.function? name args.length with
    | none => exact arises_offered hf hrun
    | some f =>
      cases (run_call_zero natives held hf).symm.trans hrun
      exact ⟨[], _, _, .here _, .tooDeep held hf, rfl⟩
  | succ depth ih =>
    cases hf : m.script.program.function? name args.length with
    | none => exact arises_offered hf hrun
    | some f =>
      have hbody := (run_call_function natives depth held hf).symm.trans hrun
      rcases hinside : (Spot.inside depth held f args m).run natives with ⟨result, after⟩
      rw [hinside] at hbody
      cases result with
      | ok v => cases hbody
      | error fault =>
        cases hbody
        obtain ⟨names, s, inner, hleads, hraises, rfl⟩ :=
          arises_actions (fun name args m next hrun => ih hrun) hinside
        exact ⟨name :: names, s, inner, .entered hf hleads, hraises, rfl⟩

/-- Every fault of code is raised at the end of a chain, where the machine is left as it is. -/
theorem run_eq_error_iff (s : Spot σ) {fault : Fault} {m : Machine σ} :
    s.run natives = (.error fault, m) ↔ Arises natives s fault m := by
  constructor
  · intro hrun
    cases s with
    | actions depth frame held rest start =>
      exact arises_actions (fun name args m next => arises_call) hrun
    | call depth held name args start => exact arises_call hrun
    | host name args start => exact arises_host hrun
  · rintro ⟨names, s', inner, hleads, hraises, rfl⟩
    exact hleads.run_of_raises hraises

end

/-! ## The top level -/

/-- What the top level does before its actions. -/
def prepare (natives : Natives σ) : Run σ Unit := do
  let program := (← get).script.program
  defineGlobals program.globals program.globals
  if program.showsArguments then showArguments natives

/-- To define global values cannot fail, and no name is lost by it. -/
theorem run_defineGlobals (all globals : List (String × Expr)) {m : Machine σ} {name : String}
    (h : ∃ v, m.script.global? name = some v) :
    ∃ next, (defineGlobals all globals : Run σ Unit).run.run m = (.ok (), next) ∧
      ∃ v, next.script.global? name = some v := by
  induction globals generalizing m with
  | nil => exact ⟨m, rfl, h⟩
  | cons p rest ih =>
    rcases heval : (evaluate ⟨[], 0⟩ ((List.lookup p.1 all).getD p.2) : Run σ Value).run.run m with
      ⟨result, evaluated⟩
    cases heval
    refine ih ?_
    show ∃ v, (Script.define _ p.1 _).global? name = some v
    rw [Script.global?_define]
    split
    · exact ⟨_, rfl⟩
    · exact h

/-- With arguments to show, the top level comes to its actions. -/
theorem run_prepare (natives : Natives σ) {m : Machine σ}
    (h : ∃ v, m.script.global? "ARGV" = some v) :
    ∃ next, (prepare natives).run.run m = (.ok (), next) := by
  have hget (m : Machine σ) : (get : Run σ (Machine σ)).run.run m = (.ok m, m) := rfl
  obtain ⟨defined, hglobals, v, hv⟩ :=
    run_defineGlobals m.script.program.globals m.script.program.globals h
  rw [prepare, Run.run_bind, hget]
  simp only
  rw [Run.run_bind, hglobals]
  by_cases hshows : m.script.program.showsArguments = true
  · simp only [hshows, if_true]
    rw [showArguments, Run.run_bind, hget]
    simp only [hv]
    exact ⟨_, rfl⟩
  · simp only [hshows, Bool.false_eq_true, if_false]
    exact ⟨_, rfl⟩

/-- The top level ends as its actions do, but an end with a value is no fault. -/
theorem run_runTop {natives : Natives σ} {m next : Machine σ}
    (hprepare : (prepare natives).run.run m = (.ok (), next)) :
    (runTop natives).run.run m =
      match (Spot.actions callDepthLimit ⟨[], 0⟩ [] m.script.program.top next).run natives with
      | (.ok v, m) => (.ok v, m)
      | (.error fault, m) =>
        (match fault.cause with
          | .finished v => .ok v
          | _ => .error fault, m) := by
  have hget : (get : Run σ (Machine σ)).run.run m = (.ok m, m) := rfl
  unfold runTop
  rw [Run.run_bind, Run.run_tryCatch]
  unfold prepare at hprepare
  rw [Run.run_bind, hget] at hprepare ⊢
  simp only at hprepare ⊢
  rw [Run.run_bind] at hprepare ⊢
  generalize (defineGlobals m.script.program.globals m.script.program.globals).run.run m = globals
    at hprepare ⊢
  rcases globals with ⟨result, defined⟩
  cases result with
  | error fault => cases hprepare
  | ok _ =>
    simp only at hprepare ⊢
    -- Whether or not the arguments are shown, what follows runs on the prepared machine.
    have hshown {β : Type} (k : Run σ β) :
        (if m.script.program.showsArguments = true then showArguments natives >>= fun _ => k
          else k).run.run defined = k.run.run next := by
      by_cases hshows : m.script.program.showsArguments = true
      · rw [if_pos hshows] at hprepare ⊢
        rw [Run.run_bind, hprepare]
      · rw [if_neg hshows] at hprepare ⊢
        cases hprepare
        rfl
    rw [hshown, Run.run_bind]
    have hactions : (runActions natives (callFunction natives callDepthLimit) ⟨[], 0⟩ []
        m.script.program.top).run.run next =
      (Spot.actions callDepthLimit ⟨[], 0⟩ [] m.script.program.top next).run natives := rfl
    rw [hactions]
    rcases (Spot.actions callDepthLimit ⟨[], 0⟩ [] m.script.program.top next).run natives with
      ⟨result, last⟩
    cases result with
    | ok v => rfl
    | error fault =>
      simp only
      cases fault.cause <;> rfl

end Interpreter
end ScriptService
