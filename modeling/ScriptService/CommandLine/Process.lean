import ScriptService.CommandLine.Reader
import ScriptService.Host.Run

/-!
# The program as a process

What a command line makes of a process: the host that it runs, and what the process prints and
ends with, be it after a run, after a request for help, or after a wrong command line.
-/

namespace ScriptService

/-- What others see of a process that has ended. -/
structure ProcessResult where
  status : Int
  output : String := ""
  errors : String := ""
  deriving DecidableEq, Inhabited

/-- The part of the status that reaches the parent of a process. -/
def ProcessResult.reported (r : ProcessResult) : Nat := (r.status % 256).toNat

namespace CommandLine

/-- The settings of the host. -/
def config (c : CommandLine) : HostConfig where
  args := c.args
  retry := c.reconnectInterval
  keepsChildren := c.keepsChildren

/-- The run of a script in a world; the bus is out of reach. -/
def hostRun (c : CommandLine) (file : ScriptFile) (world : World) : HostRun where
  host := { config := c.config, machine := ⟨{}, { world }⟩, client := { transport := .missing } }
  stage := .launching file

end CommandLine

/-- The error of the host for a wrong command line. -/
def UsageError.hostError (e : UsageError) : HostError := .ofUsageText ("error: " ++ e.message)

/-- The end of a process that runs no script. -/
def CommandLine.Refusal.result : Refusal → ProcessResult
  | help => { status := 0, output := helpText }
  | version => { status := 0, output := versionText }
  | wrong e => { status := e.hostError.exitStatus, errors := e.hostError.report }

/-- What a trace prints, a line at a time. -/
def printed (trace : List (Stamped Event)) : String :=
  String.join ((trace.flatMap fun e => e.event.printed).map fun line => line ++ "\n")

/-- The end of a process that runs a script. -/
def HostRun.result (r : HostRun) : ProcessResult where
  status := r.status?.getD 0
  output := printed r.host.world.trace
  errors := r.host.world.errorText

end ScriptService
