import ScriptService.Declaration
import ScriptService.Script.Conversion
import ScriptService.Script.Interpreter

/-!
# Published services

A script publishes an object by declaring its methods. Only methods bound to a function are
exported, and exactly those can be dispatched. A call that reaches its function is answered with
success whatever the function does; its result is sent along if it is a payload with fields.
-/

namespace ScriptService

/-- A declared method and the function bound to it, if it is one. -/
structure Method where
  name : String
  callback : Option Callback
  deriving Inhabited

/-- What a script declares about its object. -/
structure ServiceDeclaration where
  object : String
  /-- The methods, sorted by name. -/
  methods : List Method
  /-- Called each time a connection is made. -/
  connect : Option Callback
  deriving Inhabited

namespace ServiceDeclaration

/-- The name of the declaration. -/
def global : String := "ubus"

/-- The method that a field of the declaration describes. -/
def methodOf (f : String × Value) : Method where
  name := f.1
  callback := do (← Fields.get? (← f.2.map?) "cb").callback?

/-- Reads a declaration. -/
def ofValue? (v : Value) : Except DeclarationError ServiceDeclaration := do
  let fields ← Declaration.fields global v
  let object ← Declaration.field global fields "object" "a string" Value.string?
  let methods ← Declaration.field global fields "methods" "an object map" Value.map?
  let connect := (Fields.get? fields "connect").bind Value.callback?
  return ⟨object, methods.map methodOf, connect⟩

/-- The method of a name. -/
def method? (d : ServiceDeclaration) (name : String) : Option Method :=
  d.methods.find? fun m => m.name == name

/-- The function bound to a method. -/
def callback? (d : ServiceDeclaration) (method : String) : Option Callback := do
  (← d.method? method).callback

/-- The object as the bus sees it: the methods bound to a function. -/
def exported (d : ServiceDeclaration) : ObjectSpec where
  name := d.object
  methods := (d.methods.filter (·.callback.isSome)).map (·.name)

/-- The values that a declaration holds. -/
def held (d : ServiceDeclaration) : List Value :=
  (d.methods.filterMap (·.callback) ++ d.connect.toList).map Callback.toValue

end ServiceDeclaration

/-- The outcome of a dispatched call. -/
structure Dispatch where
  status : Status
  reply : Option Table
  /-- What went wrong in the function; the caller is not told. -/
  error : Option ScriptError
  deriving Inhabited

namespace Dispatch

variable {σ : Type} (natives : Natives σ)

/-- The payload that a function's result is, unless it has no fields. -/
def replyOf (v : Value) : Option Table := v.toTable?.filter fun t => !t.isEmpty

/-- Calls the function bound to a method: with the payload if there is one, else without
arguments. -/
def run (d : ServiceDeclaration) (method : String) (data : Option Table) (m : Machine σ) :
    Dispatch × Machine σ :=
  match d.callback? method with
  | none => (⟨.methodNotFound, none, none⟩, m)
  | some f =>
    let args := data.toList.map Value.ofTable
    match Interpreter.perform (Interpreter.callBack natives [] f args) m with
    | (.ok v, m) => (⟨.ok, replyOf v, none⟩, m)
    | (.error e, m) => (⟨.ok, none, some e⟩, m)

/-- Answers a request: one that names another object finds nothing. -/
def answer (d : ServiceDeclaration) (r : Request) (m : Machine σ) : Dispatch × Machine σ :=
  if r.object = d.object then run natives d r.method r.data m else (⟨.notFound, none, none⟩, m)

end Dispatch
end ScriptService
