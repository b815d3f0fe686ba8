import ScriptService.World.SystemError

/-!
# The system's processes

What the operating system answers to a host that forks children, signals them and waits for them.
Each child follows a plan that says how it starts and what a termination signal does to it. A
child whose end was reported by a wait is gone: later waits and signals find nothing.
-/

namespace ScriptService

/-- What a termination signal does to a running child. -/
inductive OnTerminate where
  | dies
  | ignores
  /-- The child ends some milliseconds later. -/
  | diesAfter (delay : Nat)
  /-- The child ends some milliseconds later, and until then is held where no other signal reaches
  it, as by a device. -/
  | lingers (delay : Nat)
  /-- The signal finds no such process. -/
  | unreachable
  deriving DecidableEq, Inhabited

/-- The state of a child as a wait sees it. -/
inductive ChildState where
  | running
  /-- The child will end by a signal at a time. -/
  | ending (time : Nat)
  | exited (code : Nat)
  | signaled (signal : Nat)
  /-- Somebody else has taken the status. -/
  | lost
  /-- Waits are interrupted. -/
  | interrupted
  /-- The end has been reported. -/
  | gone
  deriving DecidableEq, Inhabited

/-- How a child starts, and how it takes a termination signal. -/
structure ChildPlan where
  /-- Whether forking it succeeds. -/
  forks : Bool := true
  /-- The number that the system gives to the child; the next one in order if there is none. -/
  pid : Option Nat := none
  start : ChildState := .running
  onTerminate : OnTerminate := .dies
  deriving Inhabited

/-- A child process. -/
structure Process where
  /-- Which fork made the process. -/
  index : Nat
  pid : Int
  state : ChildState
  onTerminate : OnTerminate
  deriving Inhabited

/-- Whether a child that is about to end at a time can be killed before. -/
def Process.canHasten (p : Process) (now time : Nat) : Bool :=
  match p.onTerminate with
  | .lingers _ => false
  | _ => now < time

/-- How a child ended. -/
inductive ChildEnd where
  | exited (code : Nat)
  | signaled (signal : Nat)
  deriving DecidableEq, Inhabited

/-- The answer to a wait that does not block. -/
inductive WaitAnswer where
  | stillAlive
  | ended (how : ChildEnd)
  | failed (e : SystemError)
  deriving DecidableEq, Inhabited

/-- The processes of the system. -/
structure Kernel where
  /-- The plans of the children not forked yet. -/
  plans : List ChildPlan := []
  /-- How many forks were tried. -/
  forks : Nat := 0
  processes : List Process := []
  /-- Whether a child has changed its state since the host last looked. -/
  childSignal : Bool := false
  deriving Inhabited

namespace Kernel

/-- The signal that asks a process to end. -/
def sigTerm : Nat := 15

/-- The signal that ends a process. -/
def sigKill : Nat := 9

/-- The number of the first child. -/
def firstPid : Nat := 1001

def find? (k : Kernel) (pid : Int) : Option Process := k.processes.find? fun p => p.pid == pid

/-- Gives a process a new state. -/
def setState (k : Kernel) (pid : Int) (state : ChildState) : Kernel :=
  { k with
    processes := k.processes.map fun p => if p.pid = pid then { p with state } else p }

/-- The plan of the child that is forked next. -/
def nextPlan (k : Kernel) : ChildPlan := k.plans.head?.getD {}

/-- The number that the child gets that is forked next. -/
def nextPid (k : Kernel) : Nat := k.nextPlan.pid.getD (firstPid + k.forks)

/-- The process that a fork makes. -/
def nextProcess (k : Kernel) : Process :=
  ⟨k.forks, k.nextPid, k.nextPlan.start, k.nextPlan.onTerminate⟩

/-- Forks the next child. A child that has ended at once raises the signal for it. -/
def fork (k : Kernel) : Except SystemError Nat × Kernel :=
  let tried := { k with plans := k.plans.tail, forks := k.forks + 1 }
  if k.nextPlan.forks then
    (.ok k.nextPid,
      { tried with
        -- A number is given again when the process that had it is no more.
        processes := (k.processes.filter fun p => p.pid != (k.nextPid : Int)) ++ [k.nextProcess]
        childSignal := k.childSignal || k.nextPlan.start != .running })
  else (.error .tryAgain, tried)

/-- Sends a signal. A process that has ended but was not waited for still takes it, and one that is
still about to end can be killed before, unless it is held. -/
def kill (k : Kernel) (now : Nat) (pid : Int) (signal : Nat) : Except SystemError Unit × Kernel :=
  match k.find? pid with
  | none => (.error .noProcess, k)
  | some p =>
    match p.state with
    | .gone => (.error .noProcess, k)
    | .lost => (.error .noProcess, k)
    -- A process that has ended is there until somebody waits for it.
    | .exited _ => passOver p
    | .signaled _ => passOver p
    | .ending time =>
      if signal = sigKill ∧ p.canHasten now time then (.ok (), k.setState pid (.signaled sigKill))
      else passOver p
    | .running => deliver p
    | .interrupted => deliver p
where
  passOver (p : Process) : Except SystemError Unit × Kernel :=
    if signal = sigTerm ∧ p.onTerminate = .unreachable then (.error .noProcess, k) else (.ok (), k)
  deliver (p : Process) : Except SystemError Unit × Kernel :=
    if signal = sigTerm then
      match p.onTerminate with
      | .dies => (.ok (), k.setState pid (.signaled sigTerm))
      | .ignores => (.ok (), k)
      | .diesAfter delay => (.ok (), k.setState pid (.ending (now + delay)))
      | .lingers delay => (.ok (), k.setState pid (.ending (now + delay)))
      | .unreachable => (.error .noProcess, k)
    else (.ok (), k.setState pid (.signaled signal))

/-- Asks for the end of a child without waiting for it. -/
def poll (k : Kernel) (now : Nat) (pid : Int) : WaitAnswer × Kernel :=
  match k.find? pid with
  | none => (.failed .noChild, k)
  | some p =>
    match p.state with
    | .running => (.stillAlive, k)
    | .ending time =>
      if time ≤ now then (.ended (.signaled sigTerm), k.setState pid .gone) else (.stillAlive, k)
    | .exited code => (.ended (.exited code), k.setState pid .gone)
    | .signaled signal => (.ended (.signaled signal), k.setState pid .gone)
    | .lost => (.failed .noChild, k)
    | .interrupted => (.failed .interrupted, k)
    | .gone => (.failed .noChild, k)

/-- When a wait for the end of a child comes back. -/
def waitUntil (k : Kernel) (now : Nat) (pid : Int) : Nat :=
  match k.find? pid with
  | some p =>
    match p.state with
    | .ending time => max now time
    | _ => now
  | none => now

/-- Changes the state of a running child; whether there was one. -/
def change (k : Kernel) (index : Nat) (state : ChildState) : Bool × Kernel :=
  match k.processes.find? fun p => p.index == index with
  | some p =>
    if p.state = .running then (true, k.setState p.pid state) else (false, k)
  | none => (false, k)

end Kernel
end ScriptService
