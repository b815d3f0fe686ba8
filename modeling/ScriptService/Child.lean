import ScriptService.World.Basic

/-!
# Children

The children that a host watches. Collecting their ends leaves them watched until the host takes
them; stopping them leaves none of them running.
-/

namespace ScriptService

/-- A watched child. -/
structure Child where
  pid : Int
  callback : Callback
  /-- The value passed to the callback. -/
  attached : Option Value
  deriving Inhabited

/-- The values that a child's entry holds. -/
def Child.held (c : Child) : List Value := c.callback.toValue :: c.attached.toList

/-- The watched children, in the order they came to be watched. -/
abbrev ChildList := List Child

namespace ChildList

/-- Watches a child; an entry of the same number is replaced. -/
def track (list : ChildList) (c : Child) : ChildList :=
  list.filter (fun d => d.pid != c.pid) ++ [c]

def contains (list : ChildList) (pid : Int) : Bool := list.any fun c => c.pid == pid

def pids (list : ChildList) : List Int := list.map (·.pid)

/-- Takes the entry of a child out of the list. -/
def take (list : ChildList) (pid : Int) : Option Child × ChildList :=
  (list.find? fun c => c.pid == pid, list.eraseP fun c => c.pid == pid)

/-- The values that the entries hold. -/
def held (list : ChildList) : List Value := list.flatMap Child.held

/-! ## Collecting ends -/

/-- The status reported when the end of a child is not known. -/
def lostStatus : Int := -1

/-- The status that stands for the end of a child. -/
def status : ChildEnd → Int
  | .exited code => code
  | .signaled signal => 128 + signal

/-- The details of a diagnostic on a child. -/
def pidDetail (pid : Int) : String × String := ("pid", toString pid)

/-- Asks for the end of one child. -/
def collect (w : World) (pid : Int) : Option (Int × Int) × World :=
  match w.poll pid with
  | (.ended how, w) => (some (pid, status how), w)
  | (.stillAlive, w) => (none, w)
  -- Somebody else has taken the status, so the child has ended all the same.
  | (.failed .noChild, w) =>
    (some (pid, lostStatus), w.warn "Child status unavailable" [pidDetail pid])
  | (.failed e, w) => (none, w.warn "waitpid failed" [pidDetail pid, ("error", e.message)])

/-- Collects the ends of children in order, each with its status. -/
def reapAll (w : World) : List Int → List (Int × Int) × World
  | [] => ([], w)
  | pid :: rest =>
    let (found, w) := collect w pid
    let (ends, w) := reapAll w rest
    (found.toList ++ ends, w)

/-- Collects the ends of the watched children, which stay watched. -/
def reap (list : ChildList) (w : World) : List (Int × Int) × World := reapAll w list.pids

/-! ## Stopping -/

/-- How long to wait between two looks at children that are to end. -/
def pollInterval : Nat := 5

/-- Sends a termination signal to each child; those that took it. -/
def signalAll (w : World) : List Int → List Int × World
  | [] => ([], w)
  | pid :: rest =>
    let (result, w) := w.kill pid Kernel.sigTerm
    let (running, w) := signalAll w rest
    match result with
    | .ok _ => (pid :: running, w)
    | .error _ => (running, w)

/-- Asks for the ends of children; those still alive. -/
def stillAlive (w : World) : List Int → List Int × World
  | [] => ([], w)
  | pid :: rest =>
    let (answer, w) := w.poll pid
    let (running, w) := stillAlive w rest
    match answer with
    | .stillAlive => (pid :: running, w)
    | _ => (running, w)

/-- Looks at children until none is alive or the deadline has passed; those left. Each look but
the last takes `pollInterval`, so `fuel` looks reach `fuel * pollInterval` milliseconds. -/
def awaitEnds (deadline : Nat) : Nat → World → List Int → List Int × World
  | 0, w, pids => stillAlive w pids
  | fuel + 1, w, pids =>
    let (running, w) := stillAlive w pids
    if running.isEmpty ∨ deadline ≤ w.clock then (running, w)
    else awaitEnds deadline fuel (w.sleep pollInterval) running

/-- Ends children by force and waits for them. -/
def killAll (w : World) : List Int → World
  | [] => w
  | pid :: rest =>
    let w := w.warn "Child ignored SIGTERM, killing" [pidDetail pid]
    killAll ((w.kill pid Kernel.sigKill).2.wait pid) rest

/-- Stops every child: all are asked to end, have `grace` milliseconds for it, and are then ended
by force. -/
def terminateAll (list : ChildList) (grace : Nat) (w : World) : World :=
  let (running, w) := signalAll w list.pids
  let (running, w) := awaitEnds (w.clock + grace) (grace / pollInterval + 1) w running
  killAll w running

end ChildList

/-! ## Starting -/

namespace Child

/-- Starts a command. A command is refused that has no words, or a word with a NUL. -/
def fork (w : World) (argv : List String) : Except SystemError Nat × World :=
  if argv.isEmpty ∨ argv.any (·.toList.contains '\x00') then (.error .invalidArgument, w)
  else w.fork

end Child
end ScriptService
