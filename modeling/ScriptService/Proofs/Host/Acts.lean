import ScriptService.Host.Stimulus
import ScriptService.Proofs.Bus.Calls

/-!
# Runs, one act at a time

A run of a host is made of small acts: a move of its session, a turn of its event loop, the next
stage of the run, and what others do. Acts may come in any order; the scheduler that a list of
stimuli drives is one of the orders.

Main statement: `HostRun.reaches_afterAll`.
-/

namespace ScriptService

/-- Whether somebody else can act on the in-process bus while a session holds the connection `held`:
the session alone uses its connection, and what others do on theirs is up to them. -/
def MemoryBus.Act.spares (held : Option ConnectionId) : MemoryBus.Act → Bool
  | .addObject c _ => held != some c
  | .receive c => held != some c
  | .reply c _ => held != some c
  | .drop c => held != some c
  | _ => true

namespace Client

/-- The connection that the session holds. -/
def held? (client : Client) : Option ConnectionId := client.session.bind (·.stage.connection?)

/-- Somebody else acts on the in-process bus, if that is possible. -/
def beside (client : Client) (m : MemoryBus.Act) : Client :=
  match client.transport with
  | .memory bus =>
    if m.spares client.held? then { client with transport := .memory (bus.act m) } else client
  | _ => client

end Client

namespace HostRun

/-- What can happen to a run. -/
inductive Act where
  /-- The session makes a move. -/
  | move
  /-- The event loop takes a turn. -/
  | turn
  /-- The run goes on to its next stage. -/
  | proceed
  | wait (time : Nat)
  /-- The far side of the bus makes a move. -/
  | meet (m : BusMove)
  /-- A caller or another client acts on the in-process bus. -/
  | beside (m : MemoryBus.Act)
  | stop
  | terminate
  | child (index : Nat) (state : ChildState) (announced : Bool)
  deriving Inhabited

/-- The session makes a move, if it can. -/
def moveSession (r : HostRun) : HostRun :=
  r.onHost fun h => { h with client := (h.client.step h.now).getD h.client }

/-- The event loop takes a turn, while it runs. -/
def turnLoop (r : HostRun) : HostRun :=
  if r.host.phase = .running then r.onHost fun h => h.turn.2 else r

def act (r : HostRun) : Act → HostRun
  | .move => r.moveSession
  | .turn => r.turnLoop
  | .proceed => r.step.getD r
  | .wait time => r.onHost fun h => h.waitUntil time
  | .meet m => r.onHost fun h => { h with client := (h.client.meet m).2 }
  | .beside m => r.onHost fun h => { h with client := h.client.beside m }
  | .stop => r.onHost Host.stop
  | .terminate => r.onHost Host.terminate
  | .child index state announced =>
    r.onHost fun h => h.inWorld fun w => (w.changeChild index state announced).2

/-- The run of a script on a bus before anything happened. -/
def fresh (config : HostConfig) (transport : Transport) (world : World) (file : ScriptFile) :
    HostRun where
  host := { config, client := { transport }, machine := ⟨{}, { world }⟩ }
  stage := .launching file

/-! ## The scheduler -/

/-- Whether acts lead from one run to another. -/
def Reaches (r r' : HostRun) : Prop := ∃ acts : List Act, acts.foldl act r = r'

theorem Reaches.refl (r : HostRun) : Reaches r r := ⟨[], rfl⟩

theorem Reaches.trans {r r' r'' : HostRun} (h : Reaches r r') (h' : Reaches r' r'') :
    Reaches r r'' := by
  rcases h with ⟨acts, rfl⟩
  rcases h' with ⟨more, rfl⟩
  exact ⟨acts ++ more, by rw [List.foldl_append]⟩

theorem reaches_act (r : HostRun) (a : Act) : Reaches r (r.act a) := ⟨[a], rfl⟩

theorem reaches_serve (fuel : Nat) (r : HostRun) :
    Reaches r { r with host := r.host.serve fuel } := by
  have hwork : ∀ client : Client, Reaches { r with host := { r.host with client } }
      { r with host := { r.host with client := client.work r.host.now fuel } } := by
    induction fuel with
    | zero => exact fun client => Reaches.refl _
    | succ fuel ih =>
      intro client
      unfold Client.work
      cases hstep : client.step r.host.now with
      | none => exact Reaches.refl _
      | some next =>
        have hmove : act { r with host := { r.host with client } } .move =
            { r with host := { r.host with client := next } } := by
          have hnow : Host.now { r.host with client } = r.host.now := rfl
          simp only [act, moveSession, onHost, hnow, hstep, Option.getD_some]
        have hfirst := reaches_act { r with host := { r.host with client } } .move
        rw [hmove] at hfirst
        exact hfirst.trans (ih next)
  exact hwork r.host.client

theorem reaches_settleHost (fuel : Nat) (r : HostRun) :
    Reaches r { r with host := r.host.settle fuel } := by
  induction fuel generalizing r with
  | zero => exact Reaches.refl r
  | succ fuel ih =>
    have hserve := reaches_serve fuel r
    unfold Host.settle
    by_cases hphase : (r.host.serve fuel).phase = .running
    · have hturn : act { r with host := r.host.serve fuel } .turn =
          { r with host := (r.host.serve fuel).turn.2 } := by
        simp [act, turnLoop, onHost, hphase]
      have htaken := reaches_act { r with host := r.host.serve fuel } .turn
      rw [hturn] at htaken
      simp only [hphase, if_true]
      rcases hresult : (r.host.serve fuel).turn with ⟨busy, h⟩
      rw [hresult] at htaken
      cases busy with
      | true => exact (hserve.trans htaken).trans (ih { r with host := h })
      | false => exact hserve.trans htaken
    · simp only [hphase, if_false]
      exact hserve

theorem reaches_settle (fuel : Nat) (r : HostRun) : Reaches r (r.settle fuel) := by
  induction fuel generalizing r with
  | zero => exact Reaches.refl r
  | succ fuel ih =>
    have hhost := reaches_settleHost fuel r
    unfold settle
    cases hstep : HostRun.step { r with host := r.host.settle fuel } with
    | none =>
      simp only [hstep]
      exact hhost
    | some next =>
      have hproceed := reaches_act { r with host := r.host.settle fuel } .proceed
      rw [act, hstep, Option.getD_some] at hproceed
      simp only [hstep]
      exact (hhost.trans hproceed).trans (ih next)

theorem reaches_elapse (target fuel : Nat) (r : HostRun) : Reaches r (r.elapse target fuel) := by
  induction fuel generalizing r with
  | zero => exact Reaches.refl r
  | succ fuel ih =>
    have hsettle := reaches_settle fuel r
    have harrive := hsettle.trans (reaches_act _ (.wait target))
    unfold elapse
    cases htime : (r.settle fuel).host.nextDeadline with
    | none =>
      simp only [htime]
      exact harrive
    | some time =>
      simp only [htime]
      by_cases hdue : time ≤ target
      · rw [if_pos hdue]
        exact (hsettle.trans (reaches_act _ (.wait time))).trans (ih _)
      · rw [if_neg hdue]
        exact harrive

theorem reaches_meet (fuel : Nat) (s : Stimulus) (r : HostRun) : Reaches r (r.meet fuel s).2 := by
  cases s with
  | wait duration => exact reaches_elapse _ _ r
  | bus m => exact reaches_act r (.meet m)
  | stop => exact reaches_act r .stop
  | terminate => exact reaches_act r .terminate
  | child index state announced => exact reaches_act r (.child index state announced)

/-- Every run that a list of stimuli drives is a run of acts. -/
theorem reaches_afterAll (fuel : Nat) (r : HostRun) (stimuli : List Stimulus) :
    Reaches r (r.afterAll fuel stimuli) := by
  unfold afterAll
  have hstart := reaches_settle fuel r
  -- Only the first run is settled; the induction is from wherever a stimulus finds the run.
  generalize r.settle fuel = start at hstart
  induction stimuli generalizing start with
  | nil => exact hstart
  | cons s rest ih =>
    apply ih
    exact (hstart.trans (reaches_meet fuel s start)).trans (reaches_settle fuel _)

end HostRun
end ScriptService
