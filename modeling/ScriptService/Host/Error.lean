import ScriptService.Script.Fault
import ScriptService.Text.Blank
import ScriptService.World.SystemError

/-!
# Host errors

The errors that end a host, their wording and the exit status that reports each: one status for a
script that could not be run at all, another for one that failed while it ran.
-/

namespace ScriptService

/-- How far a script has come. -/
inductive Phase where
  | uninitialized
  | compiled
  | topLevelExecuted
  | started
  | running
  | stopRequested
  | tornDown
  deriving DecidableEq, Inhabited

namespace Phase

def all : List Phase :=
  [uninitialized, compiled, topLevelExecuted, started, running, stopRequested, tornDown]

def name : Phase → String
  | uninitialized => "Uninitialized"
  | compiled => "Compiled"
  | topLevelExecuted => "TopLevelExecuted"
  | started => "Started"
  | running => "Running"
  | stopRequested => "StopRequested"
  | tornDown => "TornDown"

/-- The position of a phase in the order in which phases follow each other. -/
def rank : Phase → Nat
  | uninitialized => 0
  | compiled => 1
  | topLevelExecuted => 2
  | started => 3
  | running => 4
  | stopRequested => 5
  | tornDown => 6

end Phase

/-- Why a host ended, or refused an operation. -/
inductive HostError where
  | usage (text : String)
  | load (path reason : String)
  | compile (text : String)
  | runtime (text : String)
  | missingStart
  | invalidStart
  | startFailed (text : String)
  | wrongPhase (operation : String) (phase : Phase)
  deriving DecidableEq, Inhabited

namespace HostError

/-- The error of a command line, from the first line of what its reader says, without the mark that
it puts in front. -/
def ofUsageText (text : String) : HostError :=
  let line := Text.trim (text.toList.takeWhile (· != '\n'))
  let mark := "error:".toList
  usage (String.ofList
    (if line.take mark.length = mark then Text.trimStart (line.drop mark.length) else line))

/-- The name of the kind of an error. -/
def kind : HostError → String
  | usage _ => "Usage"
  | load _ _ => "Load"
  | compile _ => "Compile"
  | runtime _ => "Runtime"
  | missingStart => "MissingStart"
  | invalidStart => "InvalidStart"
  | startFailed _ => "StartFailed"
  | wrongPhase _ _ => "Phase"

def message : HostError → String
  | usage text => "Usage error: " ++ text
  | load path reason => "Load error: cannot read '" ++ path ++ "': " ++ reason
  | compile text => "Compile error: " ++ text
  | runtime text => "Runtime error: " ++ text
  | missingStart => "Runtime error: script does not define a start function"
  | invalidStart => "Runtime error: start is not a callable function"
  | startFailed text => "Runtime error: exception in start: " ++ text
  | wrongPhase operation phase =>
    "Runtime error: cannot " ++ operation ++ " in phase " ++ phase.name

/-- The status when no script code could run. -/
def compileStatus : Int := -1

/-- The status when the script failed. -/
def runtimeStatus : Int := -2

/-- The exit status that reports an error. -/
def exitStatus : HostError → Int
  | usage _ => compileStatus
  | load _ _ => compileStatus
  | compile _ => compileStatus
  | _ => runtimeStatus

/-- The line that reports an error on a terminal: a bold red word, then the message. -/
def report (e : HostError) : String :=
  "\x1b[1m\x1b[31mError\x1b[39m\x1b[0m: " ++ e.message ++ "\n"

end HostError
end ScriptService
