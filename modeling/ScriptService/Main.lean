import ScriptService.CommandLine.Process
import ScriptService.Host.Stimulus
import ScriptService.Json.Reader
import ScriptService.Script.Notation

/-!
# The command line program

Reads its words and environment, takes the program of the script from the standard input, and runs
it in the time of the system's clock. When nothing is left that could happen, the run is asked to
end as by a termination signal.
-/

namespace ScriptService

/-- The turns at one instant and the instants that a run may take. -/
def patience : Nat := 1000000

/-- All that can be read from a stream. -/
partial def readAll (stream : IO.FS.Stream) : IO String := do
  let line ← stream.getLine
  if line.isEmpty then return ""
  return line ++ (← readAll stream)

/-- What the standard input says about the script's file. -/
def scriptFile (path text : String) : ScriptFile :=
  if text.isEmpty then .unreadable path SystemError.noEntry.fileMessage
  else
    match (Json.parse text.toList).bind Program.ofJson? with
    | some p => .program p
    | none => .program { malformed := true }

/-- Shows what a run has printed and written, and takes it out of the run. -/
def flush (r : HostRun) : IO HostRun := do
  let output ← IO.getStdout
  output.putStr (printed r.host.world.trace)
  output.flush
  (← IO.getStderr).putStr r.host.world.errorText
  return r.onHost fun h => h.inWorld fun w => { w with trace := [], errorText := "" }

/-- Runs to the end, waiting for each deadline. -/
partial def drive (r : HostRun) : IO HostRun := do
  let r ← flush (r.settle patience)
  if r.isFinished then return r
  match r.host.nextDeadline with
  | some time =>
    IO.sleep (UInt32.ofNat (time - r.host.now))
    drive (r.onHost fun h => h.waitUntil time)
  | none => drive (r.onHost Host.terminate)

/-- Ends the process. -/
def exitWith (r : ProcessResult) : IO UInt32 := do
  (← IO.getStdout).putStr r.output
  (← IO.getStderr).putStr r.errors
  return UInt32.ofNat r.reported

/-- Runs a command line. -/
def runWords (words : List String) : IO UInt32 := do
  let busSocket ← IO.getEnv CommandLine.busSocketVariable
  let reconnectInterval ← IO.getEnv CommandLine.reconnectIntervalVariable
  match CommandLine.read { busSocket, reconnectInterval } words with
  | .error refusal => exitWith refusal.result
  | .ok c =>
    let file := scriptFile c.script (← readAll (← IO.getStdin))
    exitWith (← drive (c.hostRun file {})).result

end ScriptService

def main (words : List String) : IO UInt32 := ScriptService.runWords words
