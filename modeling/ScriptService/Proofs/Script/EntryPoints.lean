import Mathlib.Data.List.Induction
import Mathlib.Data.List.Nodup
import ScriptService.Proofs.Script.Related

/-!
# Entry points

What a host finds under a name. Global values come first: the latest one of the name decides,
whatever functions there are. Only without one do the functions count, and then what is found
depends on which overloads exist and not on their order. A function that is found is called without
arguments, and that call runs the overload without parameters.

Main statement: `Script.entryPoint_found`.
-/

namespace ScriptService

/-! ## Global values -/

namespace Script

variable {script : Script} {name : String}

theorem global?_define (script : Script) (other name : String) (v : Value) :
    (script.define other v).global? name =
      if other = name then some v else script.global? name := by
  unfold global? define
  rw [List.reverse_append, List.reverse_singleton, List.singleton_append, List.lookup_cons]
  by_cases h : other = name
  · rw [if_pos h, h, beq_self_eq_true]
  · rw [if_neg h, beq_eq_false_iff_ne.2 (Ne.symm h)]

/-- The latest global value of a name is the one behind which no other has the name. -/
theorem global?_eq_some {v : Value} {before after : List (String × Value)}
    (hglobals : script.globals = before ++ (name, v) :: after)
    (hlatest : ∀ g ∈ after, g.1 ≠ name) : script.global? name = some v := by
  induction after using List.reverseRecOn generalizing script with
  | nil =>
    have hlast : script = { script with globals := before }.define name v := by
      rw [define, ← hglobals]
    rw [hlast, global?_define, if_pos rfl]
  | append_singleton after g ih =>
    obtain ⟨hg, hafter⟩ : g.1 ≠ name ∧ ∀ g ∈ after, g.1 ≠ name := by
      constructor
      · exact hlatest g (by simp)
      · intro g hmem
        exact hlatest g (List.mem_append_left _ hmem)
    have hlast : script =
        { script with globals := before ++ (name, v) :: after }.define g.1 g.2 := by
      rw [define, List.append_assoc, List.cons_append, ← hglobals]
    rw [hlast, global?_define, if_neg hg]
    exact ih rfl hafter

theorem global?_eq_none (hnone : ∀ g ∈ script.globals, g.1 ≠ name) :
    script.global? name = none := by
  unfold global?
  rw [List.lookup_eq_none_iff]
  intro g hg
  have hne := hnone g (List.mem_reverse.1 hg)
  simpa using Ne.symm hne

end Script

/-! ## Functions -/

namespace Program

variable {p : Program} {name : String}

/-- The name and the number of parameters of each function. -/
def signatures (p : Program) : List (String × Nat) := p.functions.map fun f => (f.name, f.params)

theorem function?_sound {params : Nat} {f : Function} (h : p.function? name params = some f) :
    f ∈ p.functions ∧ f.name = name ∧ f.params = params := by
  have hmatch := List.find?_some h
  simp only [Bool.and_eq_true, beq_iff_eq] at hmatch
  exact ⟨List.mem_of_find?_eq_some h, hmatch⟩

theorem function?_isSome {params : Nat} {f : Function} (hf : f ∈ p.functions)
    (hname : f.name = name) (hparams : f.params = params) :
    ∃ g, p.function? name params = some g := by
  unfold function?
  rw [← Option.isSome_iff_exists, List.find?_isSome]
  exact ⟨f, hf, by simp [hname, hparams]⟩

/-- No two functions of a program with different signatures take the same calls. -/
theorem eq_of_signatures (hnodup : p.signatures.Nodup) {f g : Function} (hf : f ∈ p.functions)
    (hg : g ∈ p.functions) (hname : f.name = g.name) (hparams : f.params = g.params) : f = g :=
  List.inj_on_of_nodup_map hnodup hf hg (Prod.ext hname hparams)

end Program

namespace Interpreter

variable {σ : Type} (natives : Natives σ)

/-- Runs a function of the program. The call is counted, the body for that call runs, and a fault is
wrapped on its way out. -/
def runFunction (depth : Nat) (held : List Value) (f : Function) (args : List Value) :
    Run σ Value := do
  modify fun m => { m with script := m.script.countCall (f.name, args.length) }
  let count := (← get).script.callsOf (f.name, args.length)
  try
    runActions natives (callFunction natives depth) ⟨args, count⟩ (held ++ args) (f.body count)
  catch fault => throw (.inCall f.name fault)

/-- A function that takes a call is run by it. -/
theorem callFunction_eq (depth : Nat) (held : List Value) {name : String} {args : List Value}
    {f : Function} {m : Machine σ}
    (hf : m.script.program.function? name args.length = some f) :
    (callFunction natives (depth + 1) held name args).run.run m =
      (runFunction natives depth held f args).run.run m := by
  have hname := (Program.function?_sound hf).2.1
  subst hname
  have hget : (get : Run σ (Machine σ)).run.run m = (.ok m, m) := rfl
  unfold callFunction
  rw [Run.run_bind, hget]
  simp only [hf]
  rfl

end Interpreter

/-! ## What is found -/

namespace Script

variable {script : Script} {name : String}

theorem entryPoint_of_global {v : Value} (h : script.global? name = some v) :
    script.entryPoint name = v.callback?.elim .notCallable .callable := by
  unfold entryPoint
  simp only [h]
  cases v.callback? with
  | none => rfl
  | some f => rfl

/-- Without a global value, what is found depends on the overloads of the name. -/
theorem entryPoint_of_functions (h : script.global? name = none) :
    script.entryPoint name =
      if ∃ g ∈ script.program.functions, g.name = name ∧ g.params = 0 then .callable ⟨name, []⟩
      else if ∃ g ∈ script.program.functions, g.name = name then .notCallable
      else .missing := by
  unfold entryPoint
  simp only [h]
  by_cases hbare : ∃ g ∈ script.program.functions, g.name = name ∧ g.params = 0
  · rw [if_pos hbare, if_pos (by simpa using hbare)]
  · rw [if_neg hbare, if_neg (by simpa using hbare)]
    by_cases hnamed : ∃ g ∈ script.program.functions, g.name = name
    · rw [if_pos hnamed, if_neg (by simpa using hnamed)]
    · rw [if_neg hnamed, if_pos (by simpa using hnamed)]

/-- What the host finds under a name, and what a call of it runs. -/
structure Found (script : Script) (name : String) : Prop where
  /-- The latest global value of the name decides, whatever functions there are: it has to be a
  function, in shared cells or not. -/
  global : ∀ before v after, script.globals = before ++ (name, v) :: after →
    (∀ g ∈ after, g.1 ≠ name) →
      (∀ f, script.entryPoint name = .callable f ↔ v.content = .function f.name f.curried) ∧
        (script.entryPoint name = .notCallable ↔ ∀ f c, v.content ≠ .function f c)
  /-- Without a global value of the name, an overload without parameters is what can be called. -/
  callable : (∀ g ∈ script.globals, g.1 ≠ name) → ∀ f, script.entryPoint name = .callable f ↔
    f = ⟨name, []⟩ ∧ ∃ g ∈ script.program.functions, g.name = name ∧ g.params = 0
  notCallable : (∀ g ∈ script.globals, g.1 ≠ name) → (script.entryPoint name = .notCallable ↔
    (∃ g ∈ script.program.functions, g.name = name) ∧
      ∀ g ∈ script.program.functions, g.name = name → g.params ≠ 0)
  missing : (∀ g ∈ script.globals, g.1 ≠ name) → (script.entryPoint name = .missing ↔
    ∀ g ∈ script.program.functions, g.name ≠ name)
  /-- The order in which the functions are defined says nothing. -/
  order : ∀ functions, script.program.functions.Perm functions →
    { script with program := { script.program with functions } }.entryPoint name =
      script.entryPoint name
  /-- A function that is found runs without arguments as the overload without parameters, which is
  the only one if no two functions have one signature. -/
  called : (∀ g ∈ script.globals, g.1 ≠ name) → ∀ f, script.entryPoint name = .callable f →
    ∃ g ∈ script.program.functions, g.name = name ∧ g.params = 0 ∧
      (script.program.signatures.Nodup →
        ∀ other ∈ script.program.functions, other.name = name → other.params = 0 → other = g) ∧
      ∀ {σ : Type} (natives : Natives σ) (held : List Value) (host : σ),
        (Interpreter.callBack natives held f []).run.run ⟨script, host⟩ =
          (Interpreter.runFunction natives (Interpreter.callDepthLimit - 1) held g []).run.run
            ⟨script, host⟩

theorem callback?_eq_some_iff {v : Value} {f : Callback} :
    v.callback? = some f ↔ v.content = .function f.name f.curried := by
  unfold Value.callback?
  cases hv : v.content with
  | function name curried =>
    constructor
    · intro h
      cases h
      rfl
    · intro h
      cases h
      rfl
  | _ => simp

theorem callback?_eq_none_iff {v : Value} :
    v.callback? = none ↔ ∀ f c, v.content ≠ .function f c := by
  unfold Value.callback?
  cases hv : v.content with
  | _ => simp

theorem entryPoint_perm {functions : List Function}
    (hperm : script.program.functions.Perm functions) :
    { script with program := { script.program with functions } }.entryPoint name =
      script.entryPoint name := by
  have hnamed := hperm.filter fun f => f.name == name
  unfold entryPoint
  simp only [global?, hnamed.any_eq, hnamed.isEmpty_eq]

/-- The overload without parameters is the function that a call without arguments runs. -/
theorem called_of_callable {f : Callback} (hnone : script.global? name = none)
    (hf : script.entryPoint name = .callable f) :
    f = ⟨name, []⟩ ∧ ∃ g, script.program.function? name 0 = some g := by
  rw [entryPoint_of_functions hnone] at hf
  split_ifs at hf with hbare hnamed
  obtain ⟨g, hg, hname, hparams⟩ := hbare
  cases hf
  exact ⟨rfl, Program.function?_isSome hg hname hparams⟩

/-- Whatever program there is and whatever global values there are, this is what is found. -/
theorem entryPoint_found (script : Script) (name : String) : Found script name where
  global := by
    intro before v after hglobals hlatest
    rw [entryPoint_of_global (global?_eq_some hglobals hlatest), ← callback?_eq_none_iff]
    constructor
    · intro f
      rw [← callback?_eq_some_iff]
      cases v.callback? with
      | none => simp
      | some g => simp
    · cases v.callback? with
      | none => simp
      | some g => simp
  callable := by
    intro hnone f
    rw [entryPoint_of_functions (global?_eq_none hnone)]
    split_ifs with hbare hnamed
    · rw [EntryPoint.callable.injEq, eq_comm, and_iff_left hbare]
    · exact iff_of_false (by simp) fun h => hbare h.2
    · exact iff_of_false (by simp) fun h => hbare h.2
  notCallable := by
    intro hnone
    rw [entryPoint_of_functions (global?_eq_none hnone)]
    split_ifs with hbare hnamed
    · obtain ⟨g, hg, hname, hparams⟩ := hbare
      exact iff_of_false (by simp) fun h => h.2 g hg hname hparams
    · refine iff_of_true rfl ⟨hnamed, ?_⟩
      intro g hg hname hparams
      exact hbare ⟨g, hg, hname, hparams⟩
    · exact iff_of_false (by simp) fun h => hnamed h.1
  missing := by
    intro hnone
    rw [entryPoint_of_functions (global?_eq_none hnone)]
    split_ifs with hbare hnamed
    · obtain ⟨g, hg, hname, -⟩ := hbare
      exact iff_of_false (by simp) fun h => h g hg hname
    · obtain ⟨g, hg, hname⟩ := hnamed
      exact iff_of_false (by simp) fun h => h g hg hname
    · refine iff_of_true rfl ?_
      intro g hg hname
      exact hnamed ⟨g, hg, hname⟩
  order := fun _ hperm => entryPoint_perm hperm
  called := by
    intro hnone f hf
    obtain ⟨rfl, g, hg⟩ := called_of_callable (global?_eq_none hnone) hf
    obtain ⟨hmem, hname, hparams⟩ := Program.function?_sound hg
    refine ⟨g, hmem, hname, hparams, ?_, ?_⟩
    · intro hnodup other hother hname' hparams'
      exact Program.eq_of_signatures hnodup hother hmem (hname'.trans hname.symm)
        (hparams'.trans hparams.symm)
    · intro σ natives held host
      exact Interpreter.callFunction_eq natives (Interpreter.callDepthLimit - 1) held hg

/-- The latest global value counts, through its cell, although a function could be called. -/
example :
    Script.entryPoint
      { program := { functions := [⟨"start", 1, []⟩, ⟨"start", 0, []⟩] },
        globals := [("start", .int 5), ("start", .shared (.function "tick" []))] } "start" =
      .callable ⟨"tick", []⟩ := rfl

end Script
end ScriptService
