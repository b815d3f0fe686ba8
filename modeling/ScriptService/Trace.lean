import ScriptService.Script.Display
import ScriptService.Wire.Message

/-!
# Traces

What an observer sees of a run, in order: records of the script, calls into the system, and
diagnostics. Traces are data; nothing in a run depends on them.
-/

namespace ScriptService

/-- How serious a diagnostic is. -/
inductive Level where
  | info
  | warn
  | error
  deriving DecidableEq, Inhabited

/-- A diagnostic message with named details. -/
structure Diagnostic where
  level : Level
  message : String
  details : List (String × String)
  deriving DecidableEq, Inhabited

/-- What happens in the script and around it. -/
inductive Event where
  /-- The script recorded a value. -/
  | record (v : Value)
  /-- The script listed the objects that are alive. -/
  | live (labels : List String)
  /-- A call that the script made returned a value. -/
  | returned (call : String) (v : Value)
  /-- The script saw its arguments. -/
  | arguments (items : List Value)
  /-- A child was forked, or the attempt failed. -/
  | fork (pid : Option Nat)
  /-- A signal was sent. -/
  | kill (pid : Int) (signal : Nat)
  | openLog (identity : String)
  | sysLog (priority : Nat) (text : String)
  | closeLog
  | diagnostic (d : Diagnostic)
  deriving Inhabited

/-- The lines that a script prints: one for each value it records, and one for each argument when
it shows them. -/
def Event.printed : Event → List String
  | .record v => [v.text]
  | .arguments items => items.map Value.text
  | _ => []

/-- What happens between a session and the bus. Connections are counted from 0. -/
inductive SessionEvent where
  /-- A connection was made, or the attempt failed. -/
  | connect (connection : Option Nat)
  | addObject (connection : Nat) (object : ObjectSpec)
  | written (connection : Nat) (reply : Reply)
  | dropped (connection : Nat)
  | diagnostic (d : Diagnostic)
  deriving Inhabited

/-- Something that happened, and when, in milliseconds. -/
structure Stamped (α : Type) where
  time : Nat
  event : α
  deriving Inhabited

end ScriptService
