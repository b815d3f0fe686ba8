import ScriptService.Proofs.Bus.Moves
import ScriptService.Proofs.Host.Clients

/-!
# Callers and dispatches

A host publishes an object on the in-process bus and dispatches the calls that arrive, while
callers, other clients, the loss of connections and the end of the run interfere in any order.
Still a caller gets the outcome of the one dispatch of its own call, or learns that the connection
is closed.

Main statement: `HostRun.correlated`.
-/

namespace ScriptService

open Exchange (Linked noted)

/-! ## What is noted -/

namespace Client

/-- The notes of a reply that the owner gives. -/
def replyNotes (client : Client) (q : Reply) : List Exchange.Note :=
  match client.session with
  | some s => noted (s.notes (.reply q)) []
  | none => []

/-- The notes of what somebody else does on the in-process bus. -/
def besideNotes (client : Client) (m : MemoryBus.Act) : List Exchange.Note :=
  match client.transport with
  | .memory bus => if m.spares client.held? then noted [] (bus.notes m) else []
  | _ => []

end Client

/-- The act on the in-process bus that a move on its far side is. -/
def BusMove.act? : BusMove → Option MemoryBus.Act
  | .call caller object method data => some (.call caller object method data)
  | .disconnectAll => some .disconnectAll
  | _ => none

/-- The far side takes no connection of its own: it registers nothing and replies to nothing. -/
theorem BusMove.ne_of_act? {m : BusMove} {n : MemoryBus.Act} (h : m.act? = some n) :
    (∀ c spec, n ≠ .addObject c spec) ∧ ∀ c q, n ≠ .reply c q := by
  cases m with
  | call | disconnectAll =>
    cases h
    exact ⟨nofun, nofun⟩
  | _ => cases h

/-- The notes of a turn of the loop: a call that is dispatched. -/
def Host.turnNotes (h : Host) : List Exchange.Note :=
  match h.nextTurn with
  | (.dispatch (.bus (.call r)), h) =>
    match h.resources.service with
    | some d =>
      let dispatch := (Dispatch.answer Resources.natives d r h.machine).1
      h.client.replyNotes (dispatch.toReply r.id) ++ [.dispatched r dispatch]
    | none => []
  | _ => []

namespace HostRun

def exchangeNotes (r : HostRun) : Act → List Exchange.Note
  | .move => r.host.client.moveNotes r.host.now
  | .turn => if r.host.phase = .running then r.host.turnNotes else []
  | .meet m => m.act?.elim [] r.host.client.besideNotes
  | .beside m => r.host.client.besideNotes m
  | _ => []

/-- Runs, as seen by one who watches the bus, the session and the dispatches. -/
def exchange : Observed HostRun Act Exchange.Note := ⟨act, exchangeNotes⟩

end HostRun

/-! ## The owner's side of a client -/

namespace Client

variable {name : String} {client : Client} {h : List Exchange.Note}

theorem OnBus.publish (ho : OnBus name client h) (hnone : client.session = none)
    (object : ObjectSpec) (retry : Nat) : OnBus name (client.publish object retry) h := by
  rcases ho with ⟨bus, ht, hl⟩
  rw [hnone] at hl
  exact ⟨bus, ht, hl.publish object retry⟩

theorem OnBus.close (ho : OnBus name client h) (hbound : (Exchange.calls h).length ≤ UInt32.size)
    (now : Nat) {grace : Nat} (hgrace : grace ≠ 0) : OnBus name (client.close now grace) h := by
  have hkept := ho
  rcases ho with ⟨bus, ht, hl⟩
  unfold Client.close
  cases hs : client.session with
  | none => exact hkept
  | some s =>
    rw [hs] at hl
    by_cases hover : s.isOver = true
    · simp only [hover, if_true]
      exact hkept
    · simp only [hover, if_neg hgrace]
      exact ⟨bus, ht, hl.unlink hbound⟩

theorem OnBus.ignore (ho : OnBus name client h) (hbound : (Exchange.calls h).length ≤ UInt32.size) :
    OnBus name client.ignore h := by
  rcases ho with ⟨bus, ht, hl⟩
  refine ⟨bus, ht, ?_⟩
  unfold Client.ignore
  cases hs : client.session with
  | none =>
    rw [hs] at hl
    exact hl
  | some s =>
    rw [hs] at hl
    exact hl.ignore hbound

/-- Somebody else acts, without registering the name or replying to an open call of the object. -/
theorem OnBus.beside (ho : OnBus name client h) (m : MemoryBus.Act)
    (hname : ∀ c spec, m = .addObject c spec → spec.name ≠ name)
    (hreply : ∀ c q, m = .reply c q → ∀ a ∈ Exchange.openCalls h, a.request.object = name →
      a.request.id ≠ q.id)
    (hbound : (Exchange.calls (client.besideNotes m ++ h)).length ≤ UInt32.size) :
    OnBus name (client.beside m) (client.besideNotes m ++ h) := by
  have hkept := ho
  rcases ho with ⟨bus, ht, hl⟩
  unfold besideNotes at hbound ⊢
  unfold Client.beside
  simp only [ht] at hbound ⊢
  by_cases hspares : m.spares client.held? = true
  · rw [if_pos hspares] at hbound ⊢
    rw [if_pos hspares]
    refine ⟨_, rfl, hl.bus_act m hbound ?_ ?_⟩
    · intro c spec hm hsame
      exact absurd hsame (hname c spec hm)
    · intro c q hm a ha hid hobject
      exact absurd hid (hreply c q hm a ha hobject)
  · rw [if_neg hspares] at hbound ⊢
    rw [if_neg hspares]
    exact hkept

theorem meet_eq_beside {bus : MemoryBus} (ht : client.transport = .memory bus) (m : BusMove) :
    (client.meet m).2 = m.act?.elim client client.beside := by
  rcases client with ⟨transport, session, closing, trace⟩
  subst ht
  cases m with
  | call caller object method data => rfl
  | disconnectAll => rfl
  | _ => rfl

end Client

namespace Client

variable {name : String} {client : Client} {h : List Exchange.Note}

/-- The owner takes an event. -/
theorem OnBus.hear (ho : OnBus name client h) (hbound : (Exchange.calls h).length ≤ UInt32.size)
    {e : BusEvent} {next : Client} (hnext : client.nextEvent = some (e, next)) :
    OnBus name next h := by
  rcases ho with ⟨bus, ht, hl⟩
  rcases nextEvent_eq_some hnext with ⟨s, rest, hs, hevents, rfl⟩
  rw [hs] at hl
  exact ⟨bus, ht, hl.hear hbound hevents⟩

/-- The owner takes a call, dispatches it and replies. -/
theorem OnBus.dispatch (ho : OnBus name client h) {r : Request} {next : Client}
    (hnext : client.nextEvent = some (.call r, next)) (d : Dispatch) :
    OnBus name (next.reply (d.toReply r.id)).2
      ((next.replyNotes (d.toReply r.id) ++ [.dispatched r d]) ++ h) := by
  rcases ho with ⟨bus, ht, hl⟩
  rcases nextEvent_eq_some hnext with ⟨s, rest, hs, hevents, rfl⟩
  rw [hs] at hl
  have hdispatched := hl.dispatch hevents d
  rw [List.append_assoc]
  exact ⟨bus, ht, hdispatched⟩

end Client

namespace Host

variable {name : String} {past : List Exchange.Note}

theorem onBus_turn {h : Host} (ho : h.client.OnBus name past)
    (hbound : (Exchange.calls past).length ≤ UInt32.size) :
    h.turn.2.client.OnBus name (h.turnNotes ++ past) := by
  have hclient := h.nextTurn_client
  unfold turn turnNotes
  rcases hturn : h.nextTurn with ⟨turn, next⟩
  rw [hturn] at hclient
  -- What is not an event of the session leaves the client alone.
  have hkept : (∀ e, turn ≠ .dispatch (.bus e)) → next.client.OnBus name past := by
    intro hturn
    rcases hclient with ⟨e, he, -⟩ | ⟨-, hsame⟩
    · exact absurd he (hturn e)
    · rw [hsame]
      exact ho
  cases turn with
  | leave => exact hkept (by simp)
  | lookAgain => exact hkept (by simp)
  | wait => exact hkept (by simp)
  | dispatch e =>
    cases e with
    | timer id =>
      show (next.dispatch (.timer id)).client.OnBus name past
      rw [dispatch_client next (by simp)]
      exact hkept (by simp)
    | childEnded pid status =>
      show (next.dispatch (.childEnded pid status)).client.OnBus name past
      rw [dispatch_client next (by simp)]
      exact hkept (by simp)
    | bus e =>
      rcases hclient with ⟨e', he, hnext⟩ | ⟨hnone, -⟩
      · cases he
        have hheard := ho.hear hbound hnext
        cases e with
        | connected =>
          show (next.dispatch (.bus .connected)).client.OnBus name past
          rw [dispatch_client next (by simp)]
          exact hheard
        | disconnected => exact hheard
        | call r =>
          show (next.answerCall r).client.OnBus name _
          cases hservice : next.resources.service with
          | none =>
            rw [answerCall_unserved hservice]
            simp only [hservice]
            exact hheard
          | some d =>
            rw [answerCall_client hservice]
            simp only [hservice]
            exact ho.dispatch hnext _
      · exact absurd rfl (hnone e)

theorem beginClose_onBus {h : Host} (ho : h.client.OnBus name past)
    (hbound : (Exchange.calls past).length ≤ UInt32.size) : h.beginClose.client.OnBus name past :=
  ho.close hbound _ (by decide)

/-- The service that the script declares is published, if it declares one. -/
theorem activateService_onBus {h : Host} (ho : h.client.OnBus name past)
    (hfresh : h.client.session = none) : h.activateService.client.OnBus name past := by
  have hpublishes := h.publishes
  generalize h.activateService = active at hpublishes
  cases hpublishes with
  | none => exact ho
  | ignored e => exact ho
  | published d w _ => exact ho.publish hfresh d.exported h.config.retry

end Host

namespace HostRun

variable {name : String} {past : List Exchange.Note}

/-- The invariant of a run: the session and the loop begin only when the script is launched. -/
structure Served (name : String) (r : HostRun) (past : List Exchange.Note) : Prop where
  onBus : r.host.client.OnBus name past
  fresh : ∀ file, r.stage = .launching file →
    r.host.client.session = none ∧ r.host.phase ≠ .running

theorem served_conclude {h : Host} (ho : h.client.OnBus name past)
    (hbound : (Exchange.calls past).length ≤ UInt32.size) (status : Int) :
    Served name (conclude h status) past where
  onBus := Host.beginClose_onBus ho hbound
  fresh := fun file hstage => by cases hstage

theorem served_step {r next : HostRun} (hr : Served name r past)
    (hbound : (Exchange.calls past).length ≤ UInt32.size) (hstep : r.step = some next) :
    Served name next past := by
  have hproceeds := proceeds hstep
  cases hproceeds with
  | concludes g status _ hclient =>
    have ho : g.client.OnBus name past := hclient ▸ hr.onBus
    exact served_conclude ho hbound status
  | enters file g hstage hclient =>
    have ho : g.client.OnBus name past := hclient ▸ hr.onBus
    have hfresh : g.client.session = none := by
      rw [hclient]
      exact (hr.fresh file hstage).1
    exact ⟨Host.activateService_onBus ho hfresh, fun file hstage => by cases hstage⟩
  | finishes status _ _ =>
    exact ⟨hr.onBus.ignore hbound, fun file hstage => by cases hstage⟩

/-- Whether an act leaves an object to its host: nobody else registers its name, or replies to one
of its calls that is still open. -/
def Respects (name : String) (past : List Exchange.Note) : Act → Prop
  | .beside (.addObject _ spec) => spec.name ≠ name
  | .beside (.reply _ q) =>
    ∀ a ∈ Exchange.openCalls past, a.request.object = name → a.request.id ≠ q.id
  | _ => True

theorem served_act {r : HostRun} (hr : Served name r past) (a : Act) (ha : Respects name past a)
    (hbound : (Exchange.calls (r.exchangeNotes a ++ past)).length ≤ UInt32.size) :
    Served name (r.act a) (r.exchangeNotes a ++ past) := by
  have hle := Client.calls_le_of_append hbound
  cases a with
  | move =>
    refine ⟨Client.onBus_move hr.onBus r.host.now hbound, ?_⟩
    intro file hstage
    have hfresh := hr.fresh file hstage
    have hidle : (r.host.client.step r.host.now).getD r.host.client = r.host.client := by
      unfold Client.step
      rw [hfresh.1]
      rfl
    refine ⟨?_, hfresh.2⟩
    show ((r.host.client.step r.host.now).getD r.host.client).session = none
    rw [hidle]
    exact hfresh.1
  | turn =>
    simp only [act, turnLoop, exchangeNotes] at hbound ⊢
    by_cases hphase : r.host.phase = .running
    · rw [if_pos hphase, if_pos hphase]
      exact ⟨Host.onBus_turn hr.onBus hle, fun file hstage =>
        absurd hphase (hr.fresh file hstage).2⟩
    · rw [if_neg hphase, if_neg hphase]
      exact hr
  | proceed =>
    show Served name (r.step.getD r) past
    cases hstep : r.step with
    | none => exact hr
    | some next => exact served_step hr hle hstep
  | wait time => exact ⟨hr.onBus, hr.fresh⟩
  | meet m =>
    rcases hr.onBus with ⟨bus, ht, -⟩
    have hmeet := Client.meet_eq_beside ht m
    simp only [act, onHost, exchangeNotes, hmeet] at hbound ⊢
    cases hm : m.act? with
    | none => exact hr
    | some n =>
      rw [hm] at hbound
      have hcaller := BusMove.ne_of_act? hm
      exact ⟨hr.onBus.beside n (fun c spec hn => absurd hn (hcaller.1 c spec))
          (fun c q hn => absurd hn (hcaller.2 c q)) hbound,
        fun file hstage =>
        ⟨(Client.beside_session _ n).trans (hr.fresh file hstage).1, (hr.fresh file hstage).2⟩⟩
  | beside m =>
    have hother : ∀ c spec, m = .addObject c spec → spec.name ≠ name := by
      rintro c spec rfl
      exact ha
    have hreply : ∀ c q, m = .reply c q → ∀ a ∈ Exchange.openCalls past,
        a.request.object = name → a.request.id ≠ q.id := by
      rintro c q rfl
      exact ha
    exact ⟨hr.onBus.beside m hother hreply hbound, fun file hstage =>
      ⟨(Client.beside_session _ m).trans (hr.fresh file hstage).1, (hr.fresh file hstage).2⟩⟩
  | stop => exact ⟨hr.onBus, hr.fresh⟩
  | terminate => exact ⟨hr.onBus, hr.fresh⟩
  | child index state announced => exact ⟨hr.onBus, hr.fresh⟩

theorem served_run {config : HostConfig} {world : World} {file : ScriptFile} {acts : List Act}
    (hacts : ∀ before a, before ++ [a] <+: acts →
      Respects name (exchange.run (fresh config (.memory {}) world file) before).2 a) :
    let p := exchange.run (fresh config (.memory {}) world file) acts
    (Exchange.calls p.2).length ≤ UInt32.size → Served name p.1 p.2 := by
  have hinit : (Exchange.calls []).length ≤ UInt32.size →
      Served name (fresh config (.memory {}) world file) [] := fun _ =>
    { onBus := ⟨{}, rfl, Exchange.linked_init name⟩
      fresh := fun _ _ => ⟨rfl, by simp [HostRun.fresh]⟩ }
  have hstep : ∀ (r : HostRun) (past : List Exchange.Note) (a : Act), Respects name past a →
      ((Exchange.calls past).length ≤ UInt32.size → Served name r past) →
        (Exchange.calls (exchange.notes r a ++ past)).length ≤ UInt32.size →
          Served name (exchange.act r a) (exchange.notes r a ++ past) := by
    intro r past a ha hr hbound
    exact served_act (hr (Client.calls_le_of_append hbound)) a ha hbound
  have hallowed : ∀ before a, before ++ [a] <+: acts → Respects name
      ((exchange.run (fresh config (.memory {}) world file) before).2 ++ []) a := by
    intro before a hbefore
    rw [List.append_nil]
    exact hacts before a hbefore
  have hrun := exchange.run_invariant_along hinit hstep hallowed
  rw [List.append_nil] at hrun
  exact hrun

/-! ## What callers get -/

/-- What the callers of an object get, as a history tells it. -/
structure Correlated (name : String) (client : Client) (h : List Exchange.Note) : Prop where
  /-- Every answer that the bus gave is told, in order. -/
  answers : ∃ bus, client.transport = .memory bus ∧
    bus.answers = MemoryBus.answersOf (Exchange.busNotes h)
  /-- Numbers tell the accepted calls apart. -/
  distinct : (MemoryBus.callIds (Exchange.busNotes h)).Nodup
  /-- A call is given its outcome once. -/
  once : (MemoryBus.answeredIds (Exchange.busNotes h)).Nodup
  /-- The outcome of a call goes to its caller. -/
  caller : ∀ id caller outcome, .answered id caller outcome ∈ Exchange.busNotes h →
    ∃ a ∈ Exchange.calls h, a.request.id = id ∧ a.caller = caller
  /-- A call of the object that is replied to was dispatched once, as it was made, and the reply is
  what came of that dispatch. -/
  replied : ∀ a ∈ Exchange.calls h, a.request.object = name → ∀ q,
    .answered a.request.id a.caller (.replied q) ∈ Exchange.busNotes h →
      ∃ id d, Exchange.dispatchesOf a h = [({ a.request with id }, d)] ∧
        q = d.toReply a.request.id
  /-- The bus itself replies only to calls of methods that the object does not export. -/
  refused : ∀ caller method q, .rejected caller name method (.replied q) ∈ Exchange.busNotes h →
    ∃ s, client.session = some s ∧ s.object.hasMethod method = false
  /-- No call is dispatched twice. -/
  dispatchedOnce : ∀ a ∈ Exchange.calls h, Exchange.dispatchesOf a h = [] ∨
    ∃ id d, Exchange.dispatchesOf a h = [({ a.request with id }, d)]
  /-- Every dispatch is the dispatch of one call. -/
  dispatched : ∀ p ∈ Exchange.dispatches h,
    ∃! a, a ∈ Exchange.calls h ∧ p ∈ Exchange.dispatchesOf a h
  /-- A call that has no outcome when its connection is lost fails. -/
  lost : MemoryBus.LossesTold (Exchange.busNotes h)

theorem correlated_of_linked {bus : MemoryBus} {client : Client} {h : List Exchange.Note}
    (ht : client.transport = .memory bus) (hl : Linked name bus client.session h)
    (hbound : (Exchange.calls h).length ≤ UInt32.size) : Correlated name client h where
  answers := ⟨bus, ht, hl.recorded.answers⟩
  distinct := hl.recorded.nodup_callIds hbound
  once := hl.recorded.resolved.once
  caller := by
    intro id caller outcome hmem
    rcases hl.recorded.resolved.told id caller outcome hmem with ⟨a, ha, hid, hcaller, -⟩
    exact ⟨a, ha, hid, hcaller⟩
  replied := by
    intro a ha hname q hmem
    rcases hl.replied a ha hname q hmem with ⟨id, d, hhanded, hd, hq⟩
    exact ⟨id, d, hl.dispatchesOf_eq hbound hd hhanded, hq⟩
  refused := by
    intro caller method q hmem
    rcases hl.owned.refused caller method q hmem with ⟨spec, hspec, hmethod⟩
    rcases Option.map_eq_some_iff.1 hspec with ⟨s, hs, rfl⟩
    exact ⟨s, hs, hmethod⟩
  dispatchedOnce := by
    intro a ha
    cases hof : Exchange.dispatchesOf a h with
    | nil => exact Or.inl rfl
    | cons p rest =>
      have hp : p ∈ Exchange.dispatchesOf a h := by
        rw [hof]
        exact List.mem_cons_self
      have hhanded := hl.handed_of_mem_dispatchesOf hbound ha hp
      have hone := hl.dispatchesOf_eq hbound (List.mem_filter.1 hp).1 hhanded.1
      refine Or.inr ⟨p.1.id, p.2, ?_⟩
      rw [← hof, hone, ← hhanded.2]
  dispatched := by
    intro p hp
    have hs : ∃ s, client.session = some s := by
      cases hs : client.session with
      | none =>
        rw [hs] at hl
        rw [(hl.absent rfl).2] at hp
        cases hp
      | some s => exact ⟨s, rfl⟩
    rcases hs with ⟨s, hs⟩
    rcases Session.mem_dispatched (hl.answering s hs) hp with ⟨c, r, hhanded, -⟩
    rcases hl.accepted hhanded with ⟨a, ha, rfl, rfl⟩
    refine ⟨a, ⟨ha, ?_⟩, ?_⟩
    · -- The request was handed over from the connection that the call was accepted for.
      show p ∈ Exchange.dispatchesOf a h
      rw [hl.dispatchesOf_eq hbound hp hhanded]
      exact List.mem_singleton_self p
    · rintro b ⟨hb, hpb⟩
      have hhanded' := (hl.handed_of_mem_dispatchesOf hbound hb hpb).1
      have hunique := Session.handed_unique (hl.nodup_numbersOf hbound) hhanded hhanded'
      have hid : b.request.id = a.request.id := by rw [hunique.2]
      exact MemoryBus.call_eq_of_id_eq (hl.recorded.nodup_callIds hbound) hb ha hid
  lost := hl.recorded.losses

/-- In whatever order things happen, the callers of the object that a host publishes under a name
get the outcome of the dispatch of their own call, or learn that the connection is closed; provided
that the numbers of calls do not wrap around, and that no other client registers the name or replies
with the number of a call of the object that is still open. The bus lets a client do both: it takes
the reply of anybody (`replied_forged`). -/
theorem correlated (name : String) (config : HostConfig) (world : World) (file : ScriptFile)
    (acts : List Act) (hother : ∀ c spec, .beside (.addObject c spec) ∈ acts → spec.name ≠ name)
    (hreply : ∀ before c q, before ++ [.beside (.reply c q)] <+: acts →
      ∀ a ∈ Exchange.openCalls (exchange.run (fresh config (.memory {}) world file) before).2,
        a.request.object = name → a.request.id ≠ q.id) :
    let p := exchange.run (fresh config (.memory {}) world file) acts
    (Exchange.calls p.2).length < UInt32.size → Correlated name p.1.host.client p.2 := by
  intro p hbound
  have hacts : ∀ before a, before ++ [a] <+: acts →
      Respects name (exchange.run (fresh config (.memory {}) world file) before).2 a := by
    intro before a hbefore
    have hmem : a ∈ acts := hbefore.mem (by simp)
    unfold Respects
    split
    · exact hother _ _ hmem
    · exact hreply before _ _ hbefore
    · trivial
  have hle : (Exchange.calls p.2).length ≤ UInt32.size := Nat.le_of_lt hbound
  rcases (served_run hacts hle).onBus with ⟨bus, ht, hl⟩
  exact correlated_of_linked ht hl hle

/-- A script that publishes an object with one method. -/
def pingScript : Program where
  globals := [("ubus", .map
    [("methods", .map [("ping", .map [("cb", .function "pong" [])])]),
      ("object", .constant (.string "demo"))])]
  functions := [⟨"start", 0, [[]]⟩, ⟨"pong", 0, [[.give (.table [("n", .callCount)])]]⟩]

/-- A run in which one call is made, dispatched and answered, while another client replies to a call
that there is not. -/
def pingActs : List Act :=
  [.proceed, .move, .move, .beside .connect, .beside (.call "alice" "demo" "ping" none),
    .beside (.reply 2 ⟨7, .notFound, none⟩), .move, .turn, .turn, .move, .move]

theorem correlated_ping :
    let p := exchange.run (fresh {} (.memory {}) {} (.program pingScript)) pingActs
    (Exchange.calls p.2).map (·.caller) = ["alice"] ∧ (Exchange.dispatches p.2).length = 1 ∧
      MemoryBus.answeredIds (Exchange.busNotes p.2) = [0] ∧
        Correlated "demo" p.1.host.client p.2 := by
  intro p
  have hcalls : (Exchange.calls p.2).map (·.caller) = ["alice"] := by decide +kernel
  have hbound : (Exchange.calls p.2).length < UInt32.size := by
    rw [← List.length_map (f := MemoryBus.Call.caller), hcalls]
    decide
  have hother : ∀ c spec, Act.beside (.addObject c spec) ∈ pingActs → spec.name ≠ "demo" := by
    intro c spec hmem
    simp [pingActs] at hmem
  have hreply : ∀ before c q, before ++ [.beside (.reply c q)] <+: pingActs →
      ∀ a ∈ Exchange.openCalls (exchange.run
        (fresh {} (.memory {}) {} (.program pingScript)) before).2,
        a.request.object = "demo" → a.request.id ≠ q.id := by
    rintro before c q ⟨rest, hrest⟩ a ha -
    -- There is one such reply, and the call that is open then has another number.
    obtain ⟨rfl, ⟨-, rfl⟩, -⟩ : before = pingActs.take 5 ∧
        (c = 2 ∧ q = ⟨7, .notFound, none⟩) ∧ rest = pingActs.drop 6 := by
      simpa [pingActs, List.append_eq_cons_iff, List.cons_eq_append_iff] using hrest
    have hopen : (Exchange.openCalls (exchange.run
        (fresh {} (.memory {}) {} (.program pingScript)) (pingActs.take 5)).2).map (·.request.id) =
          [0] := by decide +kernel
    have hid : a.request.id ∈ [(0 : RequestId)] := hopen ▸ List.mem_map_of_mem ha
    rw [List.mem_singleton.1 hid]
    decide
  exact ⟨hcalls, by decide +kernel, by decide +kernel,
    correlated "demo" {} {} (.program pingScript) pingActs hother hreply hbound⟩

/-- A run in which another client replies to the call before it is dispatched. -/
def forgingActs : List Act :=
  [.proceed, .move, .move, .beside .connect, .beside (.call "alice" "demo" "ping" none),
    .beside (.reply 2 ⟨0, .notFound, none⟩)]

/-- The bus does not ask who replies: the caller gets what another client made up, though that
client registered nothing and the call was not dispatched. -/
theorem replied_forged :
    let p := exchange.run (fresh {} (.memory {}) {} (.program pingScript)) forgingActs
    (∀ c spec, Act.beside (.addObject c spec) ∉ forgingActs) ∧
      (Exchange.calls p.2).map (fun a => (a.caller, a.request.object, a.request.id)) =
        [("alice", "demo", 0)] ∧
      .answered 0 "alice" (.replied ⟨0, .notFound, none⟩) ∈ Exchange.busNotes p.2 ∧
      (Exchange.dispatches p.2).length = 0 ∧ ¬Correlated "demo" p.1.host.client p.2 := by
  intro p
  have hcalls : (Exchange.calls p.2).map (fun a => (a.caller, a.request.object, a.request.id)) =
      [("alice", "demo", 0)] := by decide +kernel
  have hanswer : .answered 0 "alice" (.replied ⟨0, .notFound, none⟩) ∈ Exchange.busNotes p.2 :=
    List.mem_of_getElem? (i := 0) rfl
  have hnone : (Exchange.dispatches p.2).length = 0 := by decide +kernel
  refine ⟨by simp [forgingActs], hcalls, hanswer, hnone, fun hcorrelated => ?_⟩
  obtain ⟨a, ha, hcall⟩ := List.mem_map.1 (hcalls ▸ List.mem_cons_self)
  obtain ⟨hcaller, hobject, hid⟩ : a.caller = "alice" ∧ a.request.object = "demo" ∧
    a.request.id = 0 := by simpa using hcall
  have hreplied := hcorrelated.replied a ha hobject ⟨0, .notFound, none⟩
    (by rw [hid, hcaller]; exact hanswer)
  obtain ⟨id, d, hof, -⟩ := hreplied
  have hnil : Exchange.dispatchesOf a p.2 = [] := by
    rw [Exchange.dispatchesOf, List.length_eq_zero_iff.1 hnone]
    rfl
  rw [hnil] at hof
  cases hof

end HostRun
end ScriptService
