import ScriptService.Script.Value

/-!
# Declarations

A service declares what it wants by global object maps. Reading one fails with a cause that names
the declaration and the field.
-/

namespace ScriptService

/-- Why a declaration cannot be used. -/
inductive DeclarationError where
  | notAMap (declaration : String)
  | missingField (declaration field : String)
  | wrongType (declaration field expected : String)
  deriving DecidableEq, Inhabited

namespace DeclarationError

def message : DeclarationError → String
  | notAMap declaration => "'" ++ declaration ++ "' must be an object map"
  | missingField declaration field =>
    "'" ++ declaration ++ "' is missing the '" ++ field ++ "' field"
  | wrongType declaration field expected =>
    "'" ++ declaration ++ "." ++ field ++ "' must be " ++ expected

end DeclarationError

namespace Declaration

/-- The fields of a declaration. -/
def fields (name : String) (v : Value) : Except DeclarationError (Fields Value) :=
  match v.map? with
  | some fields => .ok fields
  | none => .error (.notAMap name)

/-- A required field, read by `view`. -/
def field {α : Type} (name : String) (fields : Fields Value) (field expected : String)
    (view : Value → Option α) : Except DeclarationError α :=
  match Fields.get? fields field with
  | none => .error (.missingField name field)
  | some v =>
    match view v with
    | some a => .ok a
    | none => .error (.wrongType name field expected)

end Declaration
end ScriptService
