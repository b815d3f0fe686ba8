import ScriptService.Json.Record
import ScriptService.Number.Digits
import ScriptService.Script.Program

/-!
# The notation of programs

A program is written as a JSON document. In an expression null is unit, scalars and arrays stand
for themselves, and every other kind of expression is an object with one member that names the
kind. Actions are objects with one member as well, and a program is a record in which every
member but the functions may be left out.
-/

namespace ScriptService

/-- The floating-point number with the given bits in hexadecimal. -/
def Double.ofHex? (text : String) : Option Double := do
  let digits ← text.toList.mapM Digits.hexValue?
  return ⟨.ofNat (Digits.toNat 16 digits)⟩

namespace Expr

/-- An expression without parts. -/
def scalar? : Json → Option Expr
  | .null => some (constant .unit)
  | .bool b => some (constant (.bool b))
  | .int n => some (constant (.int (.ofInt n)))
  | .real x => some (constant (.float x))
  | .string s => some (constant (.string s))
  | .object [("float", .string bits)] => (Double.ofHex? bits).map fun x => constant (.float x)
  | .object [("float", j)] => j.double?.map fun x => constant (.float x)
  | .object [("char", .string s)] => s.toList.head?.map fun c => constant (.char c)
  | .object [("blob", .array items)] => do
    let bytes ← items.mapM (Json.integer? 0 255)
    return constant (.blob (bytes.map fun b => .ofNat b.toNat))
  | .object [("tracked", .string label)] => some (object label)
  | .object [("fn", .string name)] => some (function name [])
  | .object [("arg", .int i)] => some (argument i.toNat)
  | .object [("n", _)] => some callCount
  | _ => none

mutual
/-- The expression that a document stands for. -/
def ofJson? : Json → Option Expr
  | .array items => do return array (← itemsOfJson? items)
  | .object [("map", .array fields)] => do return map (← fieldsOfJson? fields)
  | .object [("table", .array fields)] => do return table (← fieldsOfJson? fields)
  | .object [("fn", .string name), ("curry", .array items)] => do
    return function name (← itemsOfJson? items)
  | .object [("curry", .array items), ("fn", .string name)] => do
    return function name (← itemsOfJson? items)
  | .object [("shared", j)] => do return share (← ofJson? j)
  | .object [("get", .array [j, .string name])] => do return field (← ofJson? j) name
  | .object [("set", .array [j, .string name, value])] => do
    return withField (← ofJson? j) name (← ofJson? value)
  | j => scalar? j

def itemsOfJson? : List Json → Option (List Expr)
  | [] => some []
  | j :: rest => do return (← ofJson? j) :: (← itemsOfJson? rest)

def fieldsOfJson? : List Json → Option (List (String × Expr))
  | [] => some []
  | .array [.string name, j] :: rest => do return (name, ← ofJson? j) :: (← fieldsOfJson? rest)
  | _ => none
end

end Expr

/-- The action that a document stands for. -/
def Action.ofJson? : Json → Option Action
  | .object [("record", j)] => do return record (← Expr.ofJson? j)
  | .object [("live", _)] => some live
  | .object [("return", j)] => do return give (← Expr.ofJson? j)
  | .object [("throw", j)] => do return throw (← Expr.ofJson? j)
  | .object [("timeout", .array args)] => do
    return native (some "timeout") "uloop_timeout" (← Expr.itemsOfJson? args)
  | .object [("process", .array args)] => do
    return native (some "process") "uloop_process" (← Expr.itemsOfJson? args)
  | .object [("log", .array (.string severity :: args))] => do
    return native none ("ulog_" ++ severity) (← Expr.itemsOfJson? args)
  | .object [("end", _)] => some (native none "uloop_end" [])
  | .object [("exit", .array args)] => do return native none "exit" (← Expr.itemsOfJson? args)
  | .object [("call", .array (.string name :: args))] => do
    return call name (← Expr.itemsOfJson? args)
  | _ => none

namespace Program

/-- The items of an array; a member that is left out has none. -/
def itemsOf (j : Option Json) : Option (List Json) :=
  match j with
  | none => some []
  | some (.array items) => some items
  | some _ => none

/-- A list of actions. -/
def actionsOf (j : Option Json) : Option (List Action) := do
  (← itemsOf j).mapM Action.ofJson?

/-- A global value: its name, its expression, and perhaps whether it is constant. -/
def globalOfJson? : Json → Option (String × Expr)
  | .array (.string name :: j :: _) => do return (name, ← Expr.ofJson? j)
  | _ => none

def functionOfJson? : Json → Option Function
  | .object members => do
    let name ← (← Json.member? "name" members).bind Json.string?
    let params ← (← Json.member? "params" members).bind (Json.integer? 0 255)
    let bodies ← (← itemsOf (← Json.member? "body" members)).mapM fun b => actionsOf (some b)
    return ⟨name, params.toNat, bodies⟩
  | _ => none

/-- A condition, which does not hold if it is left out. -/
def flagOf (j : Option Json) : Bool :=
  match j with
  | some (.bool b) => b
  | _ => false

/-- A depth, which is 0 if it is left out. -/
def depthOf (j : Option Json) : Nat :=
  match j with
  | some (.int n) => n.toNat
  | _ => 0

/-- The program that a document stands for. -/
def ofJson? : Json → Option Program
  | .object members => do
    return {
      globals := ← (← itemsOf (← Json.member? "globals" members)).mapM globalOfJson?
      top := ← actionsOf (← Json.member? "top" members)
      functions := ← (← itemsOf (← Json.member? "fns" members)).mapM functionOfJson?
      showsArguments := flagOf (← Json.member? "argv" members)
      malformed := flagOf (← Json.member? "syntax_error" members)
      nesting := depthOf (← Json.member? "depth" members)
      functionNesting := depthOf (← Json.member? "fn_depth" members) }
  | _ => none

end Program
end ScriptService
