import ScriptService.Script.Value

/-!
# Programs

Service scripts as far as the host can tell them apart: global values, functions whose bodies are
lists of actions, and actions at the top level. Expressions build fresh values each time they are
evaluated; every evaluation of `Expr.object` makes a new object.
-/

namespace ScriptService

/-- An expression of a script. -/
inductive Expr where
  /-- A value without parts. -/
  | constant (v : Value)
  | array (items : List Expr)
  | map (fields : List (String × Expr))
  | table (fields : List (String × Expr))
  | function (name : String) (curried : List Expr)
  /-- A new opaque object. -/
  | object (label : String)
  | share (e : Expr)
  /-- An argument of the function, unit if it is missing. -/
  | argument (i : Nat)
  /-- How many times the function has been called. -/
  | callCount
  /-- A field of a table; unit if it is absent or there is no table. -/
  | field (e : Expr) (name : String)
  /-- A table with one field set; a new table if there is none. -/
  | withField (e : Expr) (name : String) (value : Expr)
  deriving Inhabited

/-- What script code does. -/
inductive Action where
  | record (e : Expr)
  | live
  | give (e : Expr)
  | throw (e : Expr)
  /-- Calls a function of the host and records the result under a label. -/
  | native (label : Option String) (name : String) (args : List Expr)
  /-- Calls a function of the program. -/
  | call (name : String) (args : List Expr)
  /-- Runs a text that is no script, for a reason. -/
  | misread (reason : String)
  deriving Inhabited

/-- A function: its body depends on how often it has been called, and the last body repeats. -/
structure Function where
  name : String
  params : Nat
  bodies : List (List Action)
  deriving Inhabited

/-- A program. -/
structure Program where
  globals : List (String × Expr) := []
  top : List Action := []
  functions : List Function := []
  /-- Whether the top level records the script's arguments. -/
  showsArguments : Bool := false
  malformed : Bool := false
  /-- How deep an array literal at the top level nests. -/
  nesting : Nat := 0
  /-- How deep an array literal in every function nests. -/
  functionNesting : Nat := 0
  deriving Inhabited

namespace Program

/-- How deep an array literal may nest at the top level. -/
def nestingLimit : Nat := 41

/-- How deep an array literal may nest in a function. -/
def functionNestingLimit : Nat := 19

/-- Whether a program compiles. -/
def compiles (p : Program) : Bool :=
  !p.malformed && p.nesting ≤ nestingLimit &&
    (p.functions.isEmpty || p.functionNesting ≤ functionNestingLimit)

/-- The function with a name and a number of parameters. -/
def function? (p : Program) (name : String) (params : Nat) : Option Function :=
  p.functions.find? fun f => f.name == name && f.params == params

end Program

/-- The body for the `count`-th call, counted from 1. -/
def Function.body (f : Function) (count : Nat) : List Action :=
  match f.bodies[count - 1]? with
  | some body => body
  | none => f.bodies.getLast?.getD []

/-! ## Evaluation -/

/-- What an expression sees of the call around it. -/
structure Frame where
  args : List Value
  count : Nat
  deriving Inhabited

/-- Evaluation, which counts the objects made so far. -/
abbrev Eval (α : Type) := StateM Nat α

namespace Expr

/-- A new object. -/
def newObject (label : String) : Eval Value := do
  let id ← get
  set (id + 1)
  return .object id label

/-- The fields of the table that a value is; no fields if it is none. -/
def tableFields (v : Value) : Fields Value := v.table?.getD []

mutual
/-- The value of an expression; parts are evaluated from left to right. -/
def eval (frame : Frame) : Expr → Eval Value
  | constant v => return v
  | array items => return .array (← evalItems frame items)
  | map fields => return .map (Fields.sorted (← evalFields frame fields))
  | table fields => return .table (Fields.ofPairs (← evalFields frame fields))
  | function name curried => return .function name (← evalItems frame curried)
  | object label => newObject label
  | share e => return (← eval frame e).share
  | argument i => return frame.args[i]?.getD .unit
  | callCount => return .int (.ofNat frame.count)
  | field e name => return (Fields.get? (tableFields (← eval frame e)) name).getD .unit
  | withField e name value => do
    let fields := tableFields (← eval frame e)
    return .table (Fields.insert fields name (← eval frame value))

def evalItems (frame : Frame) : List Expr → Eval (List Value)
  | [] => return []
  | e :: rest => return (← eval frame e) :: (← evalItems frame rest)

def evalFields (frame : Frame) : List (String × Expr) → Eval (List (String × Value))
  | [] => return []
  | (name, e) :: rest => return (name, ← eval frame e) :: (← evalFields frame rest)
end

end Expr
end ScriptService
