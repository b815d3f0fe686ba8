import ScriptService.Script.Fault
import ScriptService.Script.Program
import ScriptService.Trace

/-!
# The interpreter

Runs programs over a host state `σ`, of which it knows only what `Natives` says: the functions the
host offers, where records go, and which values the host holds. A call depth bounds every run.
-/

namespace ScriptService

/-- What the interpreter knows of its host. -/
structure Natives (σ : Type) where
  /-- Calls a function of the host; `none` if there is none that takes these arguments. -/
  invoke : String → List Value → σ → Option (Except Fault Value × σ)
  /-- Notes an event of the script. -/
  note : Event → σ → σ
  /-- The values that the host holds. -/
  held : σ → List Value

/-- The interpreter with its program. -/
structure Script where
  program : Program := {}
  /-- The global values in order of definition; the latest of a name counts. -/
  globals : List (String × Value) := []
  /-- How often each function has been called, by name and number of parameters. -/
  counts : List ((String × Nat) × Nat) := []
  /-- How many objects have been made. -/
  objectsMade : Nat := 0
  deriving Inhabited

/-- The interpreter beside its host. -/
structure Machine (σ : Type) where
  script : Script
  host : σ

/-- Running script code: a result or a fault, and the machine after it. -/
abbrev Run (σ α : Type) := ExceptT Fault (StateM (Machine σ)) α

/-- What a lookup of an entry point finds. -/
inductive EntryPoint where
  /-- There is no global value and no function of the name. -/
  | missing
  /-- There is something of the name, but no function without parameters. -/
  | notCallable
  | callable (f : Callback)
  deriving Inhabited

namespace Script

/-- Loads a program if it compiles. -/
def compile (script : Script) (program : Program) : Option Script :=
  if program.compiles then some { script with program } else none

/-- Defines a global value. -/
def define (script : Script) (name : String) (v : Value) : Script :=
  { script with globals := script.globals ++ [(name, v)] }

/-- Makes the script's arguments a global value. -/
def bindArguments (script : Script) (args : List String) : Script :=
  script.define "ARGV" (.array (args.map .string))

/-- The latest global value of a name. -/
def global? (script : Script) (name : String) : Option Value :=
  List.lookup name script.globals.reverse

/-- The entry point of a name: a global value shadows every function. -/
def entryPoint (script : Script) (name : String) : EntryPoint :=
  match script.global? name with
  | some v =>
    match v.callback? with
    | some f => .callable f
    | none => .notCallable
  | none =>
    let named := script.program.functions.filter fun f => f.name == name
    if named.any fun f => f.params == 0 then .callable ⟨name, []⟩
    else if named.isEmpty then .missing
    else .notCallable

/-- Drops the program and every global value. -/
def release (script : Script) : Script := { script with program := {}, globals := [] }

/-- The global values. -/
def held (script : Script) : List Value := script.globals.map (·.2)

/-- How often a function has been called. -/
def callsOf (script : Script) (key : String × Nat) : Nat :=
  (List.lookup key script.counts).getD 0

/-- Counts a call. -/
def countCall (script : Script) (key : String × Nat) : Script :=
  { script with
    counts := (key, script.callsOf key + 1) :: script.counts.filter fun c => c.1 != key }

end Script

namespace Interpreter

variable {σ : Type} (natives : Natives σ)

/-- How many calls may be nested. -/
def callDepthLimit : Nat := 64

def note (e : Event) : Run σ Unit :=
  modify fun m => { m with host := natives.note e m.host }

/-- Evaluates an expression. -/
def evaluate (frame : Frame) (e : Expr) : Run σ Value :=
  modifyGet fun m =>
    let (v, made) := (e.eval frame).run m.script.objectsMade
    (v, { m with script := { m.script with objectsMade := made } })

def evaluateItems (frame : Frame) (es : List Expr) : Run σ (List Value) :=
  modifyGet fun m =>
    let (vs, made) := (Expr.evalItems frame es).run m.script.objectsMade
    (vs, { m with script := { m.script with objectsMade := made } })

/-- The labels of all objects alive, `held` being the values of the calls in progress. -/
def alive (m : Machine σ) (held : List Value) : List String :=
  Value.liveLabels (m.script.held ++ natives.held m.host ++ held)

/-- Calls a function of the host. -/
def invoke (name : String) (args : List Value) : Run σ Value := do
  match natives.invoke name args (← get).host with
  | some (result, host) =>
    modify fun m => { m with host }
    result
  | none => throw (.functionNotFound (Value.signature name args))

/-- Runs actions until one gives a result. `call` runs the functions that the actions call, and
`held` are the values of the calls in progress. -/
def runActions (call : List Value → String → List Value → Run σ Value) (frame : Frame)
    (held : List Value) : List Action → Run σ Value
  | [] => return .unit
  | .record e :: rest => do
    note natives (.record (← evaluate frame e))
    runActions call frame held rest
  | .live :: rest => do
    note natives (.live (alive natives (← get) held))
    runActions call frame held rest
  | .give e :: _ => evaluate frame e
  | .throw e :: _ => do throw (.thrown (← evaluate frame e))
  | .native label name args :: rest => do
    let v ← invoke natives name (← evaluateItems frame args)
    match label with
    | some label => note natives (.returned label v)
    | none => pure ()
    runActions call frame held rest
  | .call name args :: rest => do
    let v ← call held name (← evaluateItems frame args)
    note natives (.returned "call" v)
    runActions call frame held rest
  | .misread reason :: _ => do throw (.syntaxError reason)

/-- Calls a function by name: one of the program if it takes that many arguments, else one of the
host. Calls of functions of the program nest at most `depth` deep. -/
def callFunction : Nat → List Value → String → List Value → Run σ Value
  | 0, _, name, args => do
    match (← get).script.program.function? name args.length with
    | some _ => throw (.inCall name .stackOverflow)
    | none => invoke natives name args
  | depth + 1, held, name, args => do
    match (← get).script.program.function? name args.length with
    | some f =>
      -- The call is counted first, so that the function sees its own number.
      let key := (name, args.length)
      modify fun m => { m with script := m.script.countCall key }
      let count := (← get).script.callsOf key
      try
        runActions natives (callFunction depth) ⟨args, count⟩ (held ++ args) (f.body count)
      catch fault => throw (.inCall name fault)
    | none => invoke natives name args

/-- Calls a function value; `held` are the values that its caller keeps until it returns. -/
def callBack (held : List Value) (f : Callback) (args : List Value) : Run σ Value :=
  callFunction natives callDepthLimit held f.name (f.curried ++ args)

/-- Defines the global values of a program. A name that is given twice takes the first expression
both times. -/
def defineGlobals (all : List (String × Expr)) : List (String × Expr) → Run σ Unit
  | [] => return ()
  | (name, e) :: rest => do
    let v ← evaluate ⟨[], 0⟩ ((List.lookup name all).getD e)
    modify fun m => { m with script := m.script.define name v }
    defineGlobals all rest

/-- Records the script's arguments. -/
def showArguments : Run σ Unit := do
  match (← get).script.global? "ARGV" with
  | some v => note natives (.arguments (v.array?.getD []))
  | none => throw (.variableNotFound "ARGV")

/-- Runs the top level of the program, which code at any call depth can end with a value. -/
def runTop : Run σ Value := do
  try
    let program := (← get).script.program
    defineGlobals program.globals program.globals
    if program.showsArguments then showArguments natives
    runActions natives (callFunction natives callDepthLimit) ⟨[], 0⟩ [] program.top
  catch fault =>
    -- An end with a value is no fault, however deep it was reached.
    match fault.cause with
    | .finished v => return v
    | _ => throw fault

/-- Runs code on a machine; a fault becomes what it means to the host. -/
def perform {α : Type} (code : Run σ α) (m : Machine σ) : Except ScriptError α × Machine σ :=
  match code.run.run m with
  | (.ok a, m) => (.ok a, m)
  | (.error fault, m) => (.error fault.outcome, m)

end Interpreter
end ScriptService
