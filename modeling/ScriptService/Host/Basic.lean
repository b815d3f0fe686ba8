import ScriptService.Bus.Client
import ScriptService.Host.Error
import ScriptService.Host.Resources

/-!
# Hosts

A host takes one script through its life: it loads the script, executes its top level, calls its
`start`, dispatches events to it until it is to stop, calls its `stop`, and releases everything.
Each operation belongs to one phase; in any other it is refused and changes nothing.
-/

namespace ScriptService

/-- The settings of a host. -/
structure HostConfig where
  /-- The arguments given to the script. -/
  args : List String := []
  /-- How long to wait before connecting to the bus again, in milliseconds. -/
  retry : Nat := 1000
  /-- Whether children that still run are left alone when the host ends. -/
  keepsChildren : Bool := false
  deriving Inhabited

/-- What reading the script's file gives. -/
inductive ScriptFile where
  | program (p : Program)
  | unreadable (path reason : String)
  deriving Inhabited

/-- What the event loop knows. -/
structure EventLoop where
  /-- Whether it listens to signals. -/
  started : Bool := false
  /-- The ends of children that were collected: their numbers and statuses. -/
  ready : List (Int × Int) := []
  /-- Whether a termination signal has arrived. -/
  terminationSignal : Bool := false
  /-- Whether it listens to the bus. -/
  attached : Bool := false
  deriving DecidableEq, Inhabited

/-- A host. -/
structure Host where
  config : HostConfig
  machine : Machine Resources := ⟨{}, {}⟩
  client : Client
  loop : EventLoop := {}
  phase : Phase := .uninitialized
  /-- Whether an unhandled exception ended the top level or `start`. -/
  crashed : Bool := false

namespace Host

instance : Inhabited Host := ⟨{ config := {}, client := default }⟩

/-! ## Parts -/

def resources (h : Host) : Resources := h.machine.host

def script (h : Host) : Script := h.machine.script

def world (h : Host) : World := h.resources.world

def now (h : Host) : Nat := h.world.clock

def withResources (h : Host) (f : Resources → Resources) : Host :=
  { h with machine := { h.machine with host := f h.machine.host } }

def withScript (h : Host) (f : Script → Script) : Host :=
  { h with machine := { h.machine with script := f h.machine.script } }

def inWorld (h : Host) (f : World → World) : Host := h.withResources fun r => r.inWorld f

/-- Asks the event loop to stop. -/
def stop (h : Host) : Host := h.withResources Resources.stop

/-- The labels of the objects alive between two dispatches. -/
def alive (h : Host) : List String := Interpreter.alive Resources.natives h.machine []

/-! ## Running script code -/

/-- Runs script code. -/
def perform {α : Type} (h : Host) (code : Run Resources α) : Except ScriptError α × Host :=
  let (result, machine) := Interpreter.perform code h.machine
  (result, { h with machine })

/-- Calls a function value; `held` are values that the host keeps until it returns. -/
def call (h : Host) (f : Callback) (args : List Value) (held : List Value) :
    Except ScriptError Value × Host :=
  h.perform (Interpreter.callBack Resources.natives held f args)

/-! ## Phases -/

/-- Refuses an operation in a phase that is not its own. -/
def expect (h : Host) (phase : Phase) (operation : String) : Except HostError Unit :=
  if h.phase = phase then .ok () else .error (.wrongPhase operation h.phase)

/-- Loads the script. -/
def load (h : Host) (file : ScriptFile) : Except HostError Unit × Host :=
  match h.expect .uninitialized "load" with
  | .error e => (.error e, h)
  | .ok _ =>
    match file with
    | .unreadable path reason => (.error (.load path reason), h)
    | .program p =>
      match h.script.compile p with
      | some script => (.ok (), { h.withScript fun _ => script with phase := .compiled })
      | none => (.error (.compile syntaxDetails), h)

/-- Opens the log that the script declares. -/
def activateLog (h : Host) : Host :=
  match h.script.global? LogDeclaration.global with
  | none => h
  | some v =>
    match LogDeclaration.ofValue? v with
    | .ok d =>
      h.withResources fun r =>
        let (logger, world) := r.logger.replace r.world d
        { r with logger, world }
    | .error e => h.inWorld fun w => w.warn "Ignoring log declaration" [("error", e.message)]

/-- Executes the top level; the status if the script asked to end with one. -/
def execute (h : Host) : Except HostError (Option Int32) × Host :=
  match h.expect .compiled "execute" with
  | .error e => (.error e, h)
  | .ok _ =>
    let h := h.withScript fun s => s.bindArguments h.config.args
    let (result, h) := h.perform (Interpreter.runTop Resources.natives)
    -- The top level runs once, whatever comes of it.
    let h := { h with phase := .topLevelExecuted }
    match result with
    | .ok _ => (.ok none, h.activateLog)
    | .error (.exit code) => (.ok (some code), h)
    | .error .compile => (.error (.compile syntaxDetails), { h with crashed := true })
    | .error (.exception text) => (.error (.runtime text), { h with crashed := true })

/-- Calls `start`; the status if the script asked to end with one. -/
def start (h : Host) : Except HostError (Option Int32) × Host :=
  match h.expect .topLevelExecuted "start" with
  | .error e => (.error e, h)
  | .ok _ =>
    match h.script.entryPoint "start" with
    | .missing => (.error .missingStart, h)
    | .notCallable => (.error .invalidStart, h)
    | .callable f =>
      match h.call f [] [] with
      | (.ok _, h) => (.ok none, { h with phase := .started })
      | (.error (.exit code), h) => (.ok (some code), { h with phase := .started })
      -- The phase stays, so that only a `start` that ended opens the loop.
      | (.error e, h) => (.error (.startFailed e.message), { h with crashed := true })

/-- The details of the diagnostic on a published object. -/
def publishDetails (object : ObjectSpec) : List (String × String) :=
  let names := object.methods.map fun m => String.ofList (Text.quoted m)
  [("object", object.name), ("methods", "[" ++ ", ".intercalate names ++ "]")]

/-- Publishes the service that the script declares. -/
def activateService (h : Host) : Host :=
  match h.script.global? ServiceDeclaration.global with
  | none => h
  | some v =>
    match ServiceDeclaration.ofValue? v with
    | .ok d =>
      let object := d.exported
      let h := h.inWorld fun w => w.info "Publishing bus object" (publishDetails object)
      { h.withResources fun r => { r with service := some d } with
        client := h.client.publish object h.config.retry
        loop := { h.loop with attached := true } }
    | .error e => h.inWorld fun w => w.warn "Ignoring bus declaration" [("error", e.message)]

/-- Publishes the service and enters the event loop. -/
def enter (h : Host) : Except HostError Unit × Host :=
  match h.expect .started "run" with
  | .error e => (.error e, h)
  | .ok _ => (.ok (), { h.activateService with phase := .running })

/-- Leaves the event loop. -/
def leave (h : Host) : Host := { h with phase := .stopRequested }

/-- Calls `stop` unless the script crashed; the status to end with. -/
def shutdown (h : Host) : Except HostError Int32 × Host :=
  match h.expect .stopRequested "shutdown" with
  | .error e => (.error e, h)
  | .ok _ =>
    -- A script that crashed is not called again.
    let h := if h.crashed then h else
      match h.script.entryPoint "stop" with
      | .missing => h
      | .notCallable => h.inWorld fun w => w.warn "stop is not a callable function" []
      | .callable f =>
        match h.call f [] [] with
        | (.ok _, h) => h
        | (.error (.exit code), h) => h.withResources fun r => r.requestExit code
        | (.error e, h) =>
          h.inWorld fun w => w.error "Unhandled exception in stop" [("error", e.message)]
    (.ok (h.resources.exitCode.getD 0), h)

/-! ## Release -/

/-- How long children have to end when the host ends, in milliseconds. -/
def terminateGrace : Nat := 100

/-- How long the session has to write queued replies, in milliseconds. -/
def closeGrace : Nat := 500

/-- Drops the timers, ends the children and closes the log. -/
def releaseLocal (h : Host) : Host :=
  h.withResources fun r =>
    -- Children are ended while the log is still open.
    let world :=
      if h.config.keepsChildren then r.world
      else ChildList.terminateAll r.children terminateGrace r.world
    let (logger, world) := r.logger.close world
    { r with timers := (r.timers.clear).2, children := [], logger, world }

/-- Drops what is left: the service, the events not dispatched and the program. -/
def finishRelease (h : Host) : Host :=
  let h := h.withResources fun r => { r with service := none }
  { h.withScript Script.release with
    client := h.client.ignore
    loop := { started := h.loop.started }
    phase := .tornDown }

/-- Releases everything at once; replies not yet written are lost. -/
def teardown (h : Host) : Host :=
  if h.phase = .tornDown then h
  else
    let h := h.releaseLocal
    { h with client := h.client.abort h.now }.finishRelease

/-- Begins an orderly release: the session can still write the replies queued for it. -/
def beginClose (h : Host) : Host :=
  let h := h.releaseLocal
  { h with client := h.client.close h.now closeGrace }

/-- Whether an orderly release can be finished. -/
def canFinish (h : Host) : Bool := !h.client.isActive

end Host
end ScriptService
