import ScriptService.Trace
import ScriptService.World.Kernel

/-!
# The world around a host

The clock, the system's processes, the places log records go to, and the trace of what happened.
The clock counts milliseconds and moves only when something waits.
-/

namespace ScriptService

/-- The world around a host. -/
structure World where
  clock : Nat := 0
  kernel : Kernel := {}
  /-- Whether the kernel log can be opened. -/
  kernelLog : Bool := false
  /-- What was written to the kernel log, which makes a record of each write. -/
  kernelWrites : List String := []
  /-- What was written to the standard error stream. -/
  errorText : String := ""
  trace : List (Stamped Event) := []
  deriving Inhabited

namespace World

/-- Adds an event to the trace. -/
def note (w : World) (event : Event) : World := { w with trace := w.trace ++ [⟨w.clock, event⟩] }

def info (w : World) (message : String) (details : List (String × String)) : World :=
  w.note (.diagnostic ⟨.info, message, details⟩)

def warn (w : World) (message : String) (details : List (String × String)) : World :=
  w.note (.diagnostic ⟨.warn, message, details⟩)

def error (w : World) (message : String) (details : List (String × String)) : World :=
  w.note (.diagnostic ⟨.error, message, details⟩)

/-- Waits. -/
def sleep (w : World) (duration : Nat) : World := { w with clock := w.clock + duration }

/-- Waits until a time, if it is not past. -/
def sleepUntil (w : World) (time : Nat) : World := { w with clock := max w.clock time }

/-- Writes to the standard error stream. -/
def writeError (w : World) (text : String) : World := { w with errorText := w.errorText ++ text }

/-- Writes the parts of a text to the kernel log, one by one. For an empty one nothing is written.
-/
def writeKernelLog (w : World) (parts : List String) : World :=
  { w with kernelWrites := w.kernelWrites ++ parts.filter (· != "") }

/-- The text in the kernel log, whatever records it is in. -/
def kernelText (w : World) : String := String.join w.kernelWrites

/-! ## System calls on processes -/

/-- Forks a child. -/
def fork (w : World) : Except SystemError Nat × World :=
  let (result, kernel) := w.kernel.fork
  (result, { w with kernel }.note (.fork result.toOption))

/-- Sends a signal. -/
def kill (w : World) (pid : Int) (signal : Nat) : Except SystemError Unit × World :=
  let (result, kernel) := w.kernel.kill w.clock pid signal
  (result, { w with kernel }.note (.kill pid signal))

/-- Asks for the end of a child without waiting for it. -/
def poll (w : World) (pid : Int) : WaitAnswer × World :=
  let (answer, kernel) := w.kernel.poll w.clock pid
  (answer, { w with kernel })

/-- Waits for the end of a child. -/
def wait (w : World) (pid : Int) : World :=
  let w := { w with clock := w.kernel.waitUntil w.clock pid }
  (w.poll pid).2

/-- A running child changes its state, which raises the signal for it if it is `announced`; whether
there is such a child. -/
def changeChild (w : World) (index : Nat) (state : ChildState) (announced : Bool) :
    Bool × World :=
  let (changed, kernel) := w.kernel.change index state
  let childSignal := kernel.childSignal || (changed && announced)
  (changed, { w with kernel := { kernel with childSignal } })

end World
end ScriptService
