import ScriptService.Script.Display

/-!
# Faults

Why running script code came to an end before its time. A fault that leaves a function call or a
module is wrapped on its way out. `Fault.outcome` tells the host what it means: a request to end
the host is recognised at any call depth, and so is a syntax error; all else is an exception.
-/

namespace ScriptService

/-- Why script code ended early. -/
inductive Fault where
  /-- The script asked to end the host. -/
  | terminated (code : Value)
  /-- The script ended its evaluation with a value. -/
  | finished (value : Value)
  /-- The script threw a value. -/
  | thrown (value : Value)
  /-- A text that was to be run is no script, for a reason. -/
  | syntaxError (reason : String)
  | variableNotFound (name : String)
  | functionNotFound (signature : String)
  | indexerUnavailable (signature : String)
  | arithmetic (reason : String)
  | stackOverflow
  /-- A fault that left a function. -/
  | inCall (name : String) (inner : Fault)
  /-- A fault that left a module. -/
  | inModule (name : String) (inner : Fault)
  deriving Inhabited

namespace Fault

/-- What is said of a thrown value: nothing more if it has no text. -/
def thrownText (v : Value) : String :=
  match v.content with
  | .unit => "Runtime error"
  | .string "" => "Runtime error"
  | _ => "Runtime error: " ++ String.ofList v.display

/-- A fault in words, without what tells where in the script it arose: no lines and positions, and
no lines on the functions that it left. -/
def text : Fault → String
  | terminated _ => "Script terminated"
  | finished _ => "NOT AN ERROR - exit value"
  | thrown v => thrownText v
  | syntaxError reason => "Syntax error: " ++ reason
  | variableNotFound name => "Variable not found: " ++ name
  | functionNotFound signature => "Function not found: " ++ signature
  | indexerUnavailable signature => "Indexer unavailable: " ++ signature
  | arithmetic reason => reason
  | stackOverflow => "Stack overflow"
  | inCall _ inner => text inner
  | inModule name inner =>
    text inner ++ "\nin module" ++ if name = "" then "" else " '" ++ name ++ "'"

/-- The fault below the calls around it. -/
def cause : Fault → Fault
  | inCall _ inner => cause inner
  | fault => fault

end Fault

/-- What a fault means to the host. -/
inductive ScriptError where
  /-- The script asked the host to end with a status. -/
  | exit (code : Int32)
  /-- The script is not a program. -/
  | compile
  /-- Anything else, in words. -/
  | exception (text : String)
  deriving DecidableEq, Inhabited

/-- What stands in place of the details of a syntax error. -/
def syntaxDetails : String := "<syntax>"

namespace ScriptError

def message : ScriptError → String
  | exit code => "exit requested with status " ++ toString code.toInt
  | compile => "Compile error: " ++ syntaxDetails
  | exception text => text

end ScriptError

/-- The status that a value asks for: 0 unless it is an integer of 32 bits. -/
def exitStatus (v : Value) : Int32 :=
  match v.int? with
  | some i => if -2147483648 ≤ i.toInt ∧ i.toInt ≤ 2147483647 then .ofInt i.toInt else 0
  | none => 0

/-- What a fault means to the host: its cause decides, and an exception keeps the whole text. A
syntax error means the same to it whether the script itself is none or a text that it ran. -/
def Fault.outcome (fault : Fault) : ScriptError :=
  match fault.cause with
  | .terminated v => .exit (exitStatus v)
  | .syntaxError _ => .compile
  | _ => .exception fault.text

end ScriptService
