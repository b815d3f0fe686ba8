import ScriptService.Child
import ScriptService.Log
import ScriptService.Service
import ScriptService.Timer

/-!
# What scripts hold through the host

The timers, children and log of a script, its wish to stop, and the functions by which it reaches
them. The values that entries keep stay alive as long as the entries do.
-/

namespace ScriptService

/-- What a script holds through its host. -/
structure Resources where
  world : World := {}
  timers : TimerList := {}
  children : ChildList := []
  logger : Logger := .closed
  /-- The service that is published. -/
  service : Option ServiceDeclaration := none
  /-- Whether the event loop is to be left. -/
  stopping : Bool := false
  /-- The status that the script asked to end with. -/
  exitCode : Option Int32 := none
  deriving Inhabited

namespace Resources

/-- Changes the world. -/
def inWorld (r : Resources) (f : World → World) : Resources := { r with world := f r.world }

def note (e : Event) (r : Resources) : Resources := r.inWorld fun w => w.note e

def now (r : Resources) : Nat := r.world.clock

/-- The values that the host keeps for the script. -/
def held (r : Resources) : List Value :=
  r.timers.held ++ ChildList.held r.children ++ r.service.toList.flatMap (·.held)

/-- Asks the event loop to stop. -/
def stop (r : Resources) : Resources := { r with stopping := true }

/-- Asks the host to end with a status. -/
def requestExit (r : Resources) (code : Int32) : Resources := { r.stop with exitCode := some code }

/-! ## Functions for scripts -/

/-- What a function returns to say that it did nothing. -/
def refusal : Value := .int (-1)

/-- Starts a timer and returns its number; refused unless a function and a delay are given. -/
def timeout (callback delay : Value) (attached : Option Value) (r : Resources) :
    Value × Resources :=
  match callback.callback?, delay.int? with
  | some f, some delay =>
    let (id, timers) := r.timers.schedule r.now f delay.toInt attached
    (.int (.ofNat id), { r with timers })
  | _, _ => (refusal, r)

/-- Starts a child and returns 0; refused unless a function and an array are given and the system
can start the child. -/
def process (callback argv : Value) (attached : Option Value) (r : Resources) :
    Value × Resources :=
  match callback.callback?, argv.array? with
  | some f, some argv =>
    match Child.fork r.world (argv.map Value.text) with
    | (.ok pid, world) =>
      (.int 0, { r with world, children := ChildList.track r.children ⟨pid, f, attached⟩ })
    | (.error e, world) =>
      (refusal, { r with world := world.warn "Failed to spawn child" [("error", e.message)] })
  | _, _ => (refusal, r)

/-- Writes a record to the log. -/
def log (severity : Severity) (v : Value) (r : Resources) : Resources :=
  { r with world := r.logger.emit r.world severity v.text }

/-- How a script ends the host: with a status if it gives an integer, else with a value of its
evaluation. -/
def exit (v : Value) : Fault :=
  match v.int? with
  | some _ => .terminated v
  | none => .finished v

/-- Calls a function of the host, if there is one that takes these arguments. -/
def invoke (name : String) (args : List Value) (r : Resources) :
    Option (Except Fault Value × Resources) :=
  let give (result : Value × Resources) : Option (Except Fault Value × Resources) :=
    some (.ok result.1, result.2)
  match name, args with
  | "uloop_timeout", [callback, delay] => give (r.timeout callback delay none)
  | "uloop_timeout", [callback, delay, v] => give (r.timeout callback delay (some v))
  | "uloop_process", [callback, argv] => give (r.process callback argv none)
  | "uloop_process", [callback, argv, v] => give (r.process callback argv (some v))
  | "uloop_end", [] => give (.unit, r.stop)
  | "exit", [] => some (.error (exit (.int 0)), r)
  | "exit", [v] => some (.error (exit v), r)
  -- What is left are the functions that log.
  | name, [v] => (Severity.ofFunction? name).bind fun s => give (.unit, r.log s v)
  | _, _ => none

/-- The host as scripts see it. -/
def natives : Natives Resources where
  invoke
  note
  held

end Resources
end ScriptService
