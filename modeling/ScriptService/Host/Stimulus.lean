import ScriptService.Host.Run

/-!
# What happens to a host

A run is driven from outside: time passes, others move on the bus, signals arrive, and children
change their states. A history is a list of such stimuli; the run answers each of them by going on
until it has to wait again.
-/

namespace ScriptService

/-- Something that happens to a running host. -/
inductive Stimulus where
  /-- Time passes, in milliseconds. -/
  | wait (duration : Nat)
  | bus (m : BusMove)
  /-- Somebody asks the event loop to stop. -/
  | stop
  /-- A termination signal arrives. -/
  | terminate
  /-- A running child changes its state, with or without the signal that announces it. -/
  | child (index : Nat) (state : ChildState) (announced : Bool)
  deriving Inhabited

/-- Notes that a termination signal has arrived. -/
def Host.terminate (h : Host) : Host := { h with loop := { h.loop with terminationSignal := true } }

namespace HostRun

/-- Changes the host of a run. -/
def onHost (r : HostRun) (f : Host → Host) : HostRun := { r with host := f r.host }

/-- A stimulus acts on a run, which has not gone on yet unless time passes; whether the stimulus
was possible. -/
def meet (fuel : Nat) (s : Stimulus) (r : HostRun) : Bool × HostRun :=
  match s with
  | .wait duration => (true, r.elapse (r.host.now + duration) fuel)
  | .bus m =>
    let (possible, client) := r.host.client.meet m
    (possible, r.onHost fun h => { h with client })
  | .stop => (true, r.onHost Host.stop)
  | .terminate => (true, r.onHost Host.terminate)
  | .child index state announced =>
    let (changed, world) := r.host.world.changeChild index state announced
    (changed, r.onHost fun h => h.inWorld fun _ => world)

/-- The run after a stimulus. -/
def after (fuel : Nat) (r : HostRun) (s : Stimulus) : HostRun := (r.meet fuel s).2.settle fuel

/-- The run after a history. -/
def afterAll (fuel : Nat) (r : HostRun) (history : List Stimulus) : HostRun :=
  history.foldl (after fuel) (r.settle fuel)

end HostRun
end ScriptService
