import ScriptService.Proofs.Children.Dispatch
import ScriptService.Proofs.Host.Clients
import ScriptService.Proofs.Host.Timers

/-!
# What waits while timers fire

A termination signal, ends of children that were announced and events of the bus wait until the
event loop looks for them, and it looks only when no collected end and no due timer is left. So a
timer that is due again and again goes first, for as long as the loop finds something ready at every
turn. Once it looks, it heeds the signal before the ends, and the ends before the events.

Main statement: `HostRun.timers_first`.
-/

namespace ScriptService

/-! ## Announcements -/

namespace Kernel

theorem childSignal_fork {k : Kernel} (h : k.childSignal = true) : k.fork.2.childSignal = true := by
  unfold fork
  split
  · simp [h]
  · exact h

theorem childSignal_poll (k : Kernel) (now : Nat) (pid : Int) :
    (k.poll now pid).2.childSignal = k.childSignal := by
  unfold poll
  split
  · rfl
  · split <;> first | rfl | (split <;> rfl)

end Kernel

theorem Child.childSignal_fork {w : World} (h : w.kernel.childSignal = true) (argv : List String) :
    (Child.fork w argv).2.kernel.childSignal = true := by
  unfold Child.fork
  split
  · exact h
  · exact Kernel.childSignal_fork h

theorem World.childSignal_changeChild {w : World} (h : w.kernel.childSignal = true) (index : Nat)
    (state : ChildState) (announced : Bool) :
    (w.changeChild index state announced).2.kernel.childSignal = true := by
  have hchange : (w.kernel.change index state).2.childSignal = w.kernel.childSignal := by
    unfold Kernel.change
    split
    · split <;> rfl
    · rfl
  have hsame : (w.changeChild index state announced).2.kernel.childSignal =
      ((w.kernel.change index state).2.childSignal ||
        ((w.kernel.change index state).1 && announced)) := rfl
  rw [hsame, hchange, h, Bool.true_or]

namespace ChildList

theorem childSignal_collect (w : World) (pid : Int) :
    (collect w pid).2.kernel.childSignal = w.kernel.childSignal := by
  have hpoll : (w.poll pid).2.kernel.childSignal = w.kernel.childSignal :=
    Kernel.childSignal_poll w.kernel w.clock pid
  unfold collect
  split
  all_goals
    rename_i heq
    rw [heq] at hpoll
    exact hpoll

theorem childSignal_reapAll (w : World) (pids : List Int) :
    (reapAll w pids).2.kernel.childSignal = w.kernel.childSignal := by
  induction pids generalizing w with
  | nil => rfl
  | cons pid rest ih => exact (ih _).trans (childSignal_collect w pid)

end ChildList

namespace Resources

/-- No function of the host takes an announcement back. -/
theorem childSignal_invoke {r s : Resources} {name : String} {args : List Value}
    {result : Except Fault Value} (h : r.world.kernel.childSignal = true)
    (hinvoke : invoke name args r = some (result, s)) : s.world.kernel.childSignal = true := by
  have hstirs := stirs hinvoke
  generalize s.world = w at hstirs
  cases hstirs with
  | still => exact h
  | forked argv => exact Child.childSignal_fork h argv
  | refused argv e => exact Child.childSignal_fork h argv
  | logged severity text =>
    rw [Logger.kernel_emit]
    exact h

end Resources

/-! ## Events of the bus -/

namespace Session

/-- A move of a session only adds to what its owner is to be told. -/
theorem Tells.events {s t : Session} {now : Nat} {m : Move} {ns : List Fact}
    (htells : Tells s (.move now m) ns t) : s.events <+: t.events := by
  cases htells with
  | registered c h hheard => exact List.prefix_append _ _
  | received c r h hheard => exact List.prefix_append _ _
  | lost c h hheard => exact List.prefix_append _ _
  | _ => exact List.prefix_refl _

theorem events_kept_step (s : Session) (now : Nat) (m : Move) : s.events <+: (s.step now m).2.events :=
  (s.tells (.move now m)).events

/-- A session that is ended by force keeps what its owner is to be told. -/
theorem events_abort (s : Session) : s.abort.2.events = s.events := by
  unfold abort
  simp only
  split <;> rfl

theorem events_reply (s : Session) (q : Reply) : (s.reply q).2.events = s.events := by
  unfold reply
  split <;> rfl

end Session

namespace Client

variable {client next : Client}

/-- The events that a client has for its owner. -/
def queued (client : Client) : List BusEvent := client.session.elim [] (·.events)

theorem queued_of_session {s : Session} (hs : client.session = some s) :
    client.queued = s.events := by
  simp [queued, hs]

theorem Works.queued {now : Nat} {acts : List Session.Act} (hworks : Works client now acts next) :
    client.queued <+: next.queued := by
  cases hworks with
  | rests => exact List.prefix_refl _
  | moved s m _ hsession _ hnext _ =>
    rw [queued_of_session hsession, queued_of_session hnext]
    exact s.events_kept_step now m
  | forced s _ hsession _ _ hnext =>
    have hsame : client.queued = next.queued := by
      rw [queued_of_session hsession, queued_of_session hnext, s.events_abort]
    exact hsame ▸ List.prefix_refl _

theorem queued_reply (client : Client) (q : Reply) : (client.reply q).2.queued = client.queued := by
  cases hs : client.session with
  | none => simp [reply, hs]
  | some s =>
    rw [queued_of_session hs, queued_of_session (reply_session hs q)]
    exact s.events_reply q

theorem queued_beside (client : Client) (m : MemoryBus.Act) :
    (client.beside m).queued = client.queued := by
  simp only [queued, beside_session]

/-- The first event is the next one. -/
theorem nextEvent_of_queued {e : BusEvent} {rest : List BusEvent}
    (hqueued : client.queued = e :: rest) :
    ∃ next, client.nextEvent = some (e, next) ∧ next.queued = rest := by
  cases hs : client.session with
  | none => simp [queued, hs] at hqueued
  | some s =>
    rw [queued_of_session hs] at hqueued
    refine ⟨{ client with session := some { s with events := rest } }, ?_, rfl⟩
    simp [nextEvent, hs, Session.nextEvent, hqueued]

end Client

namespace Host

/-! ## Hosts for which all goes on to wait -/

/-- A host for which everything still waits that waits for another. -/
structure Patient (g h : Host) : Prop where
  signal : h.loop.terminationSignal = true → g.loop.terminationSignal = true
  ends : h.world.kernel.childSignal = true → g.world.kernel.childSignal = true
  attached : h.loop.attached = true → g.loop.attached = true
  events : h.client.queued <+: g.client.queued

theorem Patient.refl (h : Host) : h.Patient h := ⟨id, id, id, List.prefix_refl _⟩

theorem Patient.trans {k g h : Host} (hkg : k.Patient g) (hgh : g.Patient h) : k.Patient h where
  signal := fun hwaits => hkg.signal (hgh.signal hwaits)
  ends := fun hwaits => hkg.ends (hgh.ends hwaits)
  attached := fun hwaits => hkg.attached (hgh.attached hwaits)
  events := hgh.events.trans hkg.events

section

variable {h g : Host}

/-- The event loop and the client only change where an event is found or answered. -/
theorem patient_of_ends (hloop : g.loop = h.loop) (hclient : g.client = h.client)
    (hends : h.world.kernel.childSignal = true → g.world.kernel.childSignal = true) :
    g.Patient h := by
  refine ⟨?_, hends, ?_, ?_⟩
  · rw [hloop]
    exact id
  · rw [hloop]
    exact id
  · exact hclient ▸ List.prefix_refl _

theorem patient_inWorld (h : Host) {f : World → World}
    (hf : ∀ w, w.kernel.childSignal = true → (f w).kernel.childSignal = true) :
    (h.inWorld f).Patient h :=
  patient_of_ends rfl rfl (hf _)

theorem patient_run (part : Part) (h : Host) : (part.run h).2.Patient h := by
  refine patient_of_ends rfl rfl fun hends => ?_
  refine Code.preserves part.parametric
    (fun (r : Resources) => r.world.kernel.childSignal = true) ?_ ?_ hends
  · intro name args r result s hr hinvoke
    exact Resources.childSignal_invoke hr hinvoke
  · intro e r _ hr
    exact hr

/-- Nothing that waits is lost while an event is dispatched. -/
theorem lasting_patient : Lasting Patient where
  refl := Patient.refl
  trans := Patient.trans
  ran := patient_run
  timers _ _ := patient_of_ends rfl rfl id
  children _ _ := patient_of_ends rfl rfl id
  asked _ _ := patient_of_ends rfl rfl id
  diagnosed h _ := patient_inWorld h fun _ hw => hw
  replied h q := ⟨id, id, id, h.client.queued_reply q ▸ List.prefix_refl _⟩

theorem dispatch_phase (h : Host) (e : LoopEvent) : (h.dispatch e).phase = h.phase := by
  have hlasting : Lasting fun g h => g.phase = h.phase :=
    ⟨fun _ => rfl, fun hkg hgh => hkg.trans hgh, fun _ _ => rfl, fun _ _ => rfl, fun _ _ => rfl,
      fun _ _ => rfl, fun _ _ => rfl, fun _ _ => rfl⟩
  exact hlasting.dispatch h e

theorem patient_carryOut (h : Host) (turn : LoopTurn) : (h.carryOut turn).Patient h := by
  cases turn with
  | dispatch e => exact lasting_patient.dispatch h e
  | lookAgain => exact Patient.refl h
  | leave => exact patient_of_ends rfl rfl id
  | wait => exact Patient.refl h

theorem patient_collectEnds (h : Host) : h.collectEnds.Patient h := by
  refine ⟨id, fun hends => ?_, id, List.prefix_refl _⟩
  exact (ChildList.childSignal_reapAll h.world h.resources.children.pids).trans hends

theorem patient_listen (h : Host) : h.listen.Patient h := by
  unfold listen
  split
  · exact Patient.refl h
  · have hsame : Patient { h with loop := { h.loop with started := true } } h :=
      ⟨id, id, id, List.prefix_refl _⟩
    exact (patient_collectEnds _).trans hsame

/-- A turn with nothing ready looks for signals and bus events. -/
theorem nextTurn_looks {timers : TimerList} (hgoing : h.listen.resources.stopping = false)
    (hready : h.listen.loop.ready = [])
    (hdue : h.listen.resources.timers.popExpired h.listen.now = (none, timers)) :
    h.nextTurn = (h.listen.withTimers timers).look := by
  unfold nextTurn
  simp only [hgoing, Bool.false_eq_true, if_false, hready, hdue]
  rfl

theorem nextTurn_phase (h : Host) : h.nextTurn.2.phase = h.phase := by
  have hturns := h.turns
  generalize h.nextTurn.1 = turn at hturns
  generalize h.nextTurn.2 = g at hturns
  rw [← h.listen_alike.phase]
  cases hturns with
  | stopped _ => rfl
  | ended pid status ready _ _ => rfl
  | due id timers _ _ _ => rfl
  | looked timers _ _ _ _ _ hlook => cases hlook <;> rfl

/-- A turn that does not leave the loop leaves it running. -/
theorem turn_running (hphase : h.phase = .running) (hstays : h.nextTurn.1 ≠ .leave) :
    h.turn.2.phase = .running := by
  have hfound := h.nextTurn_phase.trans hphase
  rw [turn_eq]
  cases hturn : h.nextTurn.1 with
  | dispatch e => exact (dispatch_phase _ e).trans hfound
  | lookAgain => exact hfound
  | leave => exact absurd hturn hstays
  | wait => exact hfound

end

end Host

/-! ## What waits for the event loop -/

/-- Something that waits until the event loop looks for it. -/
inductive Pending where
  | signal
  /-- Ends of children that were announced and not collected yet. -/
  | ends
  /-- An event of the bus; `ahead` others go before it. -/
  | event (ahead : Nat)
  deriving DecidableEq, Inhabited

namespace Pending

/-- Whether it waits for a host. -/
def Waits (p : Pending) (h : Host) : Prop :=
  match p with
  | .signal => h.loop.terminationSignal = true
  | .ends => h.world.kernel.childSignal = true
  | .event ahead => h.loop.attached = true ∧ ahead < h.client.queued.length

/-- What still waits after a turn of the loop: nothing if the turn takes care of it, or leaves the
loop. -/
def after (p : Pending) (turn : LoopTurn) : Option Pending :=
  match p, turn with
  | _, .leave => none
  | .ends, .lookAgain => none
  | .event 0, .dispatch (.bus _) => none
  | .event (ahead + 1), .dispatch (.bus _) => some (.event ahead)
  | p, _ => some p

/-- What still waits after some turns, the latest first. -/
def afterAll (p : Pending) : List LoopTurn → Option Pending
  | [] => some p
  | turn :: past => (p.afterAll past).bind (·.after turn)

theorem afterAll_append (p : Pending) (later past : List LoopTurn) :
    p.afterAll (later ++ past) = (p.afterAll past).bind (·.afterAll later) := by
  induction later with
  | nil => simp [afterAll]
  | cons turn later ih =>
    rw [List.cons_append, afterAll, ih, Option.bind_assoc]
    rfl

/-- Whether a turn does what goes before it. -/
def yieldsTo (p : Pending) (turn : LoopTurn) : Bool :=
  match p, turn with
  | _, .dispatch (.childEnded _ _) => true
  | _, .dispatch (.timer _) => true
  | .event _, .lookAgain => true
  | .event _, .dispatch (.bus _) => true
  | _, _ => false

instance (p : Pending) (h : Host) : Decidable (p.Waits h) :=
  match p with
  | .signal => inferInstanceAs (Decidable (_ = true))
  | .ends => inferInstanceAs (Decidable (_ = true))
  | .event _ => inferInstanceAs (Decidable (_ = true ∧ _ < _))

variable {p q : Pending} {g h : Host}

theorem Waits.patient (hp : p.Waits h) (hpatient : g.Patient h) : p.Waits g := by
  cases p with
  | signal => exact hpatient.signal hp
  | ends => exact hpatient.ends hp
  | event ahead => exact ⟨hpatient.attached hp.1, Nat.lt_of_lt_of_le hp.2 hpatient.events.length_le⟩

/-- A turn lets the same go before what it leaves waiting. -/
theorem yieldsTo_after {turn : LoopTurn} (hafter : p.after turn = some q) (other : LoopTurn) :
    q.yieldsTo other = p.yieldsTo other := by
  unfold after at hafter
  split at hafter
  · cases hafter
  · cases hafter
  · cases hafter
  · cases hafter
    cases other with
    | dispatch e => cases e <;> rfl
    | _ => rfl
  · cases hafter
    rfl

/-- A loop that looks takes care of what waits, unless something else is found before it. -/
theorem Waits.look (hp : p.Waits h) (hafter : p.after h.look.1 = some q) :
    p.yieldsTo h.look.1 = true ∧ q.Waits h.look.2 := by
  unfold Host.look at hafter ⊢
  by_cases hterm : h.loop.terminationSignal = true
  · rw [if_pos hterm] at hafter
    cases p <;> cases hafter
  · rw [if_neg hterm] at hafter ⊢
    by_cases hchild : h.world.kernel.childSignal = true
    · rw [if_pos hchild] at hafter ⊢
      cases p with
      | signal => exact absurd hp hterm
      | ends => cases hafter
      | event ahead =>
        cases hafter
        exact ⟨rfl, hp⟩
    · rw [if_neg hchild] at hafter ⊢
      cases p with
      | signal => exact absurd hp hterm
      | ends => exact absurd hp hchild
      | event ahead =>
        -- The first event is taken, so the others move up.
        cases hqueued : h.client.queued with
        | nil =>
          have hlt := hp.2
          rw [hqueued] at hlt
          exact absurd hlt (Nat.not_lt_zero _)
        | cons e rest =>
          obtain ⟨client, hnext, hrest⟩ := Client.nextEvent_of_queued hqueued
          rw [if_pos hp.1, hnext] at hafter ⊢
          cases ahead with
          | zero => cases hafter
          | succ ahead =>
            cases hafter
            have hlt := hp.2
            rw [hqueued, List.length_cons] at hlt
            refine ⟨rfl, hp.1, ?_⟩
            show ahead < client.queued.length
            rw [hrest]
            omega

/-- What still waits after a turn had to yield to what the turn does. -/
theorem Waits.turn (hp : p.Waits h) (hafter : p.after h.nextTurn.1 = some q) :
    p.yieldsTo h.nextTurn.1 = true ∧ q.Waits h.turn.2 := by
  have hlisten : p.Waits h.listen := hp.patient h.patient_listen
  have hturns := h.turns
  rw [Host.turn_eq]
  rcases hnext : h.nextTurn with ⟨turn, g⟩
  rw [hnext] at hturns hafter
  change Host.Turns h.listen turn g at hturns
  suffices hfound : p.yieldsTo turn = true ∧ q.Waits g from
    ⟨hfound.1, hfound.2.patient (Host.patient_carryOut g turn)⟩
  cases hturns with
  | stopped _ => cases p <;> cases hafter
  | ended pid status ready _ _ =>
    have hpatient : Host.Patient { h.listen with loop := { h.listen.loop with ready } } h.listen :=
      ⟨id, id, id, List.prefix_refl _⟩
    have hsame : q = p := by cases p <;> cases hafter <;> rfl
    refine ⟨by cases p <;> rfl, ?_⟩
    rw [hsame]
    exact hlisten.patient hpatient
  | due id timers _ _ _ =>
    have hpatient : (h.listen.withTimers timers).Patient h.listen :=
      Host.patient_of_ends rfl rfl fun hends => hends
    have hsame : q = p := by cases p <;> cases hafter <;> rfl
    refine ⟨by cases p <;> rfl, ?_⟩
    rw [hsame]
    exact hlisten.patient hpatient
  | looked timers _ _ hgoing hready hdue _ =>
    have hlooks := Host.nextTurn_looks hgoing hready hdue
    have hpatient : (h.listen.withTimers timers).Patient h.listen :=
      Host.patient_of_ends rfl rfl fun hends => hends
    have hlook : p.Waits (h.listen.withTimers timers) := hlisten.patient hpatient
    rw [hnext] at hlooks
    have hfound : p.after (h.listen.withTimers timers).look.1 = some q := by
      rw [← hlooks]
      exact hafter
    have hlooked := hlook.look hfound
    rw [← hlooks] at hlooked
    exact hlooked

end Pending

/-! ## Runs -/

namespace HostRun

/-- What the loop finds to do in an act. -/
def finding (r : HostRun) : Act → List LoopTurn
  | .turn => if r.host.phase = .running then [r.host.nextTurn.1] else []
  | _ => []

/-- Runs of which the turns of the loop are observed. -/
def turning : Observed HostRun Act LoopTurn := ⟨act, finding⟩

/-- The timer that fires if the loop takes a turn. -/
def firing? (r : HostRun) : Option Nat :=
  if r.host.phase = .running then
    match r.host.nextTurn.1 with
    | .dispatch (.timer id) => some id
    | _ => none
  else none

/-- A run whose loop has let others go before what waits: of `p`, `q` is left. -/
structure Delays (p q : Pending) (r : HostRun) (past : List LoopTurn) : Prop where
  running : r.host.phase = .running
  waits : q.Waits r.host
  yields : ∀ turn ∈ past, p.yieldsTo turn = true
  kind : ∀ turn, q.yieldsTo turn = p.yieldsTo turn

variable {r : HostRun} {p q : Pending} {past : List LoopTurn}

/-- Only a turn takes care of what waits, and only a turn leaves the loop. -/
theorem patient_act (hr : Staged r) (hphase : r.host.phase = .running) {a : Act} (ha : a ≠ .turn) :
    (r.act a).host.Patient r.host ∧ (r.act a).host.phase = .running := by
  cases a with
  | move => exact ⟨⟨id, id, id, (r.host.client.works r.host.now).queued⟩, hphase⟩
  | turn => exact absurd rfl ha
  | proceed =>
    have hstep : r.step = none := by
      unfold step
      rw [hr.running hphase]
      simp only [hphase, if_true]
    simp only [act, hstep, Option.getD_none]
    exact ⟨Host.Patient.refl _, hphase⟩
  | wait time => exact ⟨Host.patient_inWorld _ fun _ hw => hw, hphase⟩
  | meet m => exact ⟨⟨id, id, id, List.prefix_refl _⟩, hphase⟩
  | beside m =>
    refine ⟨⟨id, id, id, ?_⟩, hphase⟩
    exact (r.host.client.queued_beside m) ▸ List.prefix_refl _
  | stop => exact ⟨Host.patient_of_ends rfl rfl id, hphase⟩
  | terminate => exact ⟨⟨fun _ => rfl, id, id, List.prefix_refl _⟩, hphase⟩
  | child index state announced =>
    exact ⟨Host.patient_inWorld _ fun w hw => World.childSignal_changeChild hw _ _ _, hphase⟩

/-- An act lets others go before what it leaves waiting. -/
theorem Delays.act (hd : Delays p q r past) (hr : Staged r) {a : Act} {left : Pending}
    (hleft : q.afterAll (finding r a) = some left) :
    Delays p left (r.act a) (finding r a ++ past) := by
  by_cases ha : a = .turn
  · subst ha
    have hfinding : finding r .turn = [r.host.nextTurn.1] := if_pos hd.running
    have hhost : (r.act .turn).host = r.host.turn.2 := by
      simp only [HostRun.act, turnLoop, hd.running, if_true, onHost]
    rw [hfinding] at hleft ⊢
    change q.after r.host.nextTurn.1 = some left at hleft
    have hturn := hd.waits.turn hleft
    have hstays : r.host.nextTurn.1 ≠ .leave := by
      intro hleave
      rw [hleave] at hleft
      cases q <;> cases hleft
    refine ⟨?_, ?_, ?_, ?_⟩
    · rw [hhost]
      exact Host.turn_running hd.running hstays
    · rw [hhost]
      exact hturn.2
    · intro turn hmem
      rcases List.mem_cons.1 hmem with rfl | hmem
      · rw [← hd.kind]
        exact hturn.1
      · exact hd.yields turn hmem
    · intro turn
      rw [Pending.yieldsTo_after hleft, hd.kind]
  · have hfinding : finding r a = [] := by
      cases a <;> first | rfl | exact absurd rfl ha
    have hact := patient_act hr hd.running ha
    rw [hfinding] at hleft ⊢
    cases hleft
    exact ⟨hact.2, hd.waits.patient hact.1, hd.yields, hd.kind⟩

/-- What waits at one moment and still waits at a later one had to yield at every turn between. -/
theorem delays_run (hr : Staged r) (hphase : r.host.phase = .running) (hp : p.Waits r.host)
    (acts : List Act) (hleft : p.afterAll (turning.run r acts).2 = some q) :
    Delays p q (turning.run r acts).1 (turning.run r acts).2 := by
  have hstart : ∀ q, p.afterAll [] = some q → Delays p q r [] := by
    intro q hq
    cases hq
    exact ⟨hphase, hp, fun turn hmem => absurd hmem List.not_mem_nil, fun turn => rfl⟩
  have hstep : ∀ s past a, (Staged s ∧ ∀ q, p.afterAll past = some q → Delays p q s past) →
      Staged (s.act a) ∧ ∀ q, p.afterAll (finding s a ++ past) = some q →
        Delays p q (s.act a) (finding s a ++ past) := by
    intro s past a hs
    refine ⟨hs.1.does (does hs.1 a), fun left hleft => ?_⟩
    rw [Pending.afterAll_append] at hleft
    obtain ⟨q, hq, hleft⟩ := Option.bind_eq_some_iff.1 hleft
    exact (hs.2 q hq).act hs.1 hleft
  exact (turning.run_invariant ⟨hr, hstart⟩ hstep acts).2 q hleft

/-! ## The same timer again -/

theorem nextTurn_of_firing {id : Nat} (hfiring : r.firing? = some id) :
    r.host.phase = .running ∧ ∃ g, r.host.nextTurn = (.dispatch (.timer id), g) := by
  unfold firing? at hfiring
  rcases hnext : r.host.nextTurn with ⟨turn, g⟩
  rw [hnext] at hfiring
  split at hfiring
  · rename_i hphase
    refine ⟨hphase, g, ?_⟩
    split at hfiring
    · rename_i hturn
      cases hfiring
      rw [← hturn]
    · cases hfiring
  · cases hfiring

/-- A timer that fires is due. -/
theorem popExpired_of_firing {id : Nat} (hfiring : r.firing? = some id) :
    (r.host.resources.timers.popExpired r.host.now).1 = some id := by
  obtain ⟨-, g, hnext⟩ := nextTurn_of_firing hfiring
  have hturns := r.host.turns
  rw [hnext] at hturns
  change Host.Turns r.host.listen (.dispatch (.timer id)) g at hturns
  rw [← r.host.listen_timers, ← r.host.listen_alike.now]
  cases hturns with
  | due _ timers _ _ hpop => rw [hpop]
  | looked timers _ _ _ _ _ hlook => cases hlook

/-- A timer that fires and is to fire again returned a delay, which has passed. -/
theorem delay_of_firing {h more : List Note} {later : HostRun} (hr : Timely r h) {id : Nat}
    (hfirst : r.firing? = some id) (hlater : Timely later (more ++ courseNotes r .turn ++ h))
    (hsecond : later.firing? = some id) :
    ∃ callback args, ∃ time : Nat, ∃ v d,
      .ended (.timer id callback args) time (.ok v) ∈ courseNotes r .turn ∧
        v.int? = some d ∧ TimerList.deadline time d.toInt ≤ later.host.now := by
  obtain ⟨hphase, g, hnext⟩ := nextTurn_of_firing hfirst
  obtain ⟨callback, attached, -, -, hnotes⟩ := hr.called hphase hnext
  -- The end of its function is noted first.
  generalize hpart : Part.timer id callback attached.toList = part at hnotes
  have hended : .ended part (part.run g).2.now (part.run g).1 ∈ courseNotes r .turn := by
    rw [hnotes]
    exact List.mem_cons_self
  have hreturned : .returned id (part.run g).2.now (part.run g).1 ∈
      timerNotes (more ++ courseNotes r .turn ++ h) := by
    refine List.mem_filterMap.2 ⟨_, List.mem_append_left _ (List.mem_append_right _ hended), ?_⟩
    rw [← hpart]
    rfl
  -- The timer is linked and due again, so that note allows it to fire.
  obtain ⟨hphase', k, hnext'⟩ := nextTurn_of_firing hsecond
  obtain ⟨callback', attached', hlinked, -, -⟩ := hlater.called hphase' hnext'
  obtain ⟨due, hdue, hpast, -⟩ :=
    hlater.timed.kept.popExpired_eq_some_iff.1 (popExpired_of_firing hsecond)
  have hallows := hlater.timed.lawful.allows (by rw [hlinked]; simp) (Nat.le_refl _)
    (fun d hd => by
      rw [hdue] at hd
      cases hd
      exact hpast) _ hreturned
  obtain ⟨delay, hdelay, hpassed⟩ := hallows rfl
  cases hresult : (part.run g).1 with
  | error fault =>
    rw [hresult] at hdelay
    cases hdelay
  | ok v =>
    rw [hresult] at hdelay hended
    obtain ⟨d, hd, rfl⟩ := Option.map_eq_some_iff.1 hdelay
    refine ⟨callback, attached.toList, _, v, d, ?_, hd, hpassed⟩
    rw [hpart]
    exact hended

end HostRun

/-! ## Timers first -/

/-- A host whose loop finds nothing ready: it is not to stop, and has neither a collected end nor a
timer that is due. -/
structure Host.Unready (h : Host) : Prop where
  going : h.resources.stopping = false
  uncollected : h.listen.loop.ready = []
  undue : (h.resources.timers.popExpired h.now).1 = none

namespace Host

variable {h : Host}

theorem listen_client (h : Host) : h.listen.client = h.client := by
  unfold listen
  split <;> rfl

theorem listen_attached (h : Host) : h.listen.loop.attached = h.loop.attached := by
  unfold listen
  split <;> rfl

theorem listen_childSignal (h : Host) :
    h.listen.world.kernel.childSignal = h.world.kernel.childSignal := by
  unfold listen
  split
  · rfl
  · exact ChildList.childSignal_reapAll h.world h.resources.children.pids

/-- Such a host looks for signals and bus events. -/
theorem Unready.nextTurn_eq (hu : h.Unready) : h.nextTurn.1 = h.look.1 := by
  have hgoing : h.listen.resources.stopping = false := h.listen_alike.stopping.trans hu.going
  rcases hpop : h.listen.resources.timers.popExpired h.listen.now with ⟨due, timers⟩
  have hnone : due = none := by
    have hundue := hu.undue
    rw [← h.listen_timers, ← h.listen_alike.now, hpop] at hundue
    exact hundue
  subst hnone
  rw [nextTurn_looks hgoing hu.uncollected hpop]
  -- What it finds does not depend on its timers, nor on whether it has listened before.
  have hsignal : (h.listen.withTimers timers).loop.terminationSignal = h.loop.terminationSignal :=
    h.listen_alike.signal
  have hends : (h.listen.withTimers timers).world.kernel.childSignal =
      h.world.kernel.childSignal := h.listen_childSignal
  have hattached : (h.listen.withTimers timers).loop.attached = h.loop.attached :=
    h.listen_attached
  have hclient : (h.listen.withTimers timers).client = h.client := h.listen_client
  unfold look
  rw [hsignal, hends, hattached, hclient]
  split
  · rfl
  · split
    · rfl
    · split
      · cases h.client.nextEvent <;> rfl
      · rfl

end Host

namespace HostRun

/-- A timer fires in the next turn of a run, and then after other acts once more, while what waits
before the first of these turns still waits before the second: of `p`, `q` is left. -/
structure FiresTwice (r : HostRun) (between : List Act) (id : Nat) (p q : Pending) : Prop where
  first : r.firing? = some id
  waits : p.Waits r.host
  left : p.afterAll (turning.run r (.turn :: between)).2 = some q
  second : (turning.run r (.turn :: between)).1.firing? = some id

/-- How the loop of a run orders what is ready and what waits. -/
structure TimersFirst (r : HostRun) : Prop where
  /-- Ends that were collected go before every timer. -/
  collected : ∀ pid status rest, r.host.resources.stopping = false →
    r.host.listen.loop.ready = (pid, status) :: rest →
      r.host.nextTurn.1 = .dispatch (.childEnded pid status)
  /-- With nothing ready, a termination signal is heeded first. -/
  signal : r.host.Unready → Pending.signal.Waits r.host → r.host.nextTurn.1 = .leave
  /-- Then ends that were announced are collected. -/
  ends : r.host.Unready → ¬ Pending.signal.Waits r.host → Pending.ends.Waits r.host →
    r.host.nextTurn.1 = .lookAgain
  /-- Then the first event of the bus is dispatched. -/
  event : r.host.Unready → ¬ Pending.signal.Waits r.host → ¬ Pending.ends.Waits r.host →
    ∀ e rest, r.host.loop.attached = true → r.host.client.queued = e :: rest →
      r.host.nextTurn.1 = .dispatch (.bus e)
  /-- A timer that fires twice while the same goes on to wait has returned an integer the first
  time, and that delay has passed; and there was something ready at every turn in between. -/
  again : ∀ between id p q, FiresTwice r between id p q →
    (∃ callback args, ∃ time : Nat, ∃ v d,
      .ended (.timer id callback args) time (.ok v) ∈ courseNotes r .turn ∧
        v.int? = some d ∧
          TimerList.deadline time d.toInt ≤ (turning.run r (.turn :: between)).1.host.now) ∧
      ∀ turn ∈ (turning.run r (.turn :: between)).2, p.yieldsTo turn = true

/--
In every state that a run can reach, what is ready goes before what waits: collected ends, then
timers that are due. Once nothing is ready, the loop heeds a termination signal, then collects
announced ends, then dispatches the first event of the bus. So a timer fires twice while one of them
waits only if its delay has passed and every turn in between found something ready.
-/
theorem timers_first (config : HostConfig) (transport : Transport) (world : World)
    (file : ScriptFile) (acts : List Act) :
    TimersFirst (course.run (fresh config transport world file) acts).1 := by
  have hr := timely_run config transport world file acts
  generalize hstate : course.run (fresh config transport world file) acts = state at hr ⊢
  obtain ⟨r, h⟩ := state
  change Timely r h at hr
  change TimersFirst r
  refine ⟨?_, ?_, ?_, ?_, ?_⟩
  · intro pid status rest hgoing hready
    have hlisten : r.host.listen.resources.stopping = false :=
      r.host.listen_alike.stopping.trans hgoing
    unfold Host.nextTurn
    simp only [hlisten, Bool.false_eq_true, if_false, hready]
  · intro hu hsignal
    change r.host.loop.terminationSignal = true at hsignal
    rw [hu.nextTurn_eq, Host.look, if_pos hsignal]
  · intro hu hsignal hends
    change ¬ r.host.loop.terminationSignal = true at hsignal
    change r.host.world.kernel.childSignal = true at hends
    rw [hu.nextTurn_eq, Host.look, if_neg hsignal, if_pos hends]
  · intro hu hsignal hends e rest hattached hqueued
    change ¬ r.host.loop.terminationSignal = true at hsignal
    change ¬ r.host.world.kernel.childSignal = true at hends
    obtain ⟨client, hnext, -⟩ := Client.nextEvent_of_queued hqueued
    rw [hu.nextTurn_eq, Host.look, if_neg hsignal, if_neg hends, if_pos hattached, hnext]
  · intro between id p q htwice
    have hphase := (nextTurn_of_firing htwice.first).1
    refine ⟨?_, (delays_run hr.staged hphase htwice.waits _ htwice.left).yields⟩
    -- The later state is that of a run that goes on from here.
    have hlater := timely_run config transport world file (acts ++ .turn :: between)
    rw [Observed.run_append, hstate, ← List.singleton_append, Observed.run_append,
      Observed.run_singleton] at hlater
    have hstate : (turning.run r (.turn :: between)).1 = (course.run r (.turn :: between)).1 :=
      Observed.run_fst_eq (show turning.act = course.act from rfl) r _
    rw [← List.singleton_append, course.run_append, Observed.run_singleton] at hstate
    rw [List.singleton_append] at hstate
    have hsecond := htwice.second
    rw [hstate] at hsecond ⊢
    exact delay_of_firing hr htwice.first hlater hsecond

/-- A script whose timer asks for the same delay again and again. -/
def busyScript (delay : Int64) : Program where
  functions := [
    ⟨"start", 0, [[.native none "uloop_timeout" [.function "tick" [], .constant (.int 0)]]]⟩,
    ⟨"tick", 0, [[.give (.constant (.int delay))]]⟩]

/-- The run of the script into its loop, where a termination signal arrives in the millisecond after
the timer fired first. -/
def busyRun (delay : Int64) : HostRun :=
  (turning.run (fresh {} (.memory {}) {} (.program (busyScript delay)))
    [.proceed, .turn, .wait 1, .terminate]).1

/-- The timer fires twice more before the signal is heeded: at once, or when the clock has moved on
between its firings. -/
theorem firesTwice_busy :
    FiresTwice (busyRun 0) [] 1 .signal .signal ∧
      FiresTwice (busyRun 1) [.wait 2] 1 .signal .signal := by
  refine ⟨⟨?_, ?_, ?_, ?_⟩, ⟨?_, ?_, ?_, ?_⟩⟩
  all_goals decide +kernel

end HostRun

end ScriptService
