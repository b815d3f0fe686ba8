import Mathlib.Data.List.Perm.Subperm
import ScriptService.Proofs.Bus.Ownership
import ScriptService.Proofs.Session.Answers

/-!
# A session on the in-process bus

A session keeps its object on the in-process bus while callers and other clients act there, and its
owner dispatches the calls that arrive. The history of all of them, read in three ways, gives the
history of the bus, that of the session, and the dispatches.

Main statement: `Exchange.Linked`, the invariant that ties the three together, and the lemmas by
which each step keeps it.
-/

namespace ScriptService.Exchange

/-- What is noted of the bus, a session and its owner. -/
inductive Note where
  | bus (n : MemoryBus.Note)
  | session (n : Session.Note)
  /-- The owner dispatched a request. -/
  | dispatched (r : Request) (d : Dispatch)
  deriving Inhabited

def Note.bus? : Note → Option MemoryBus.Note
  | .bus n => some n
  | _ => none

def Note.session? : Note → Option Session.Note
  | .session n => some n
  | _ => none

def Note.dispatch? : Note → Option (Request × Dispatch)
  | .dispatched r d => some (r, d)
  | _ => none

/-- The history of the bus. -/
def busNotes (h : List Note) : List MemoryBus.Note := h.filterMap Note.bus?

/-- The history of the session. -/
def sessionNotes (h : List Note) : List Session.Note := h.filterMap Note.session?

/-- The requests that were dispatched and what came of them, in order. -/
def dispatches (h : List Note) : List (Request × Dispatch) := (h.filterMap Note.dispatch?).reverse

/-- The notes of what a session did and of what happened on the bus meanwhile. -/
def noted (session : List Session.Note) (bus : List MemoryBus.Note) : List Note :=
  session.map .session ++ bus.map .bus

theorem busNotes_append (ns h : List Note) : busNotes (ns ++ h) = busNotes ns ++ busNotes h :=
  List.filterMap_append

theorem sessionNotes_append (ns h : List Note) :
    sessionNotes (ns ++ h) = sessionNotes ns ++ sessionNotes h :=
  List.filterMap_append

theorem dispatches_append (ns h : List Note) :
    dispatches (ns ++ h) = dispatches h ++ dispatches ns := by
  simp [dispatches, List.filterMap_append]

theorem views_noted (session : List Session.Note) (bus : List MemoryBus.Note) (h : List Note) :
    busNotes (noted session bus ++ h) = bus ++ busNotes h ∧
      sessionNotes (noted session bus ++ h) = session ++ sessionNotes h ∧
        dispatches (noted session bus ++ h) = dispatches h := by
  have hsession : ∀ l : List Session.Note, busNotes (l.map .session) = [] ∧
      sessionNotes (l.map .session) = l ∧ dispatches (l.map .session) = [] := by
    intro l
    simp [busNotes, sessionNotes, dispatches, List.filterMap_map, Function.comp_def, Note.bus?,
      Note.session?, Note.dispatch?]
  have hbus : ∀ l : List MemoryBus.Note, busNotes (l.map .bus) = l ∧
      sessionNotes (l.map .bus) = [] ∧ dispatches (l.map .bus) = [] := by
    intro l
    simp [busNotes, sessionNotes, dispatches, List.filterMap_map, Function.comp_def, Note.bus?,
      Note.session?, Note.dispatch?]
  rw [noted]
  refine ⟨?_, ?_, ?_⟩
  · rw [busNotes_append, busNotes_append, (hsession session).1, (hbus bus).1, List.nil_append]
  · rw [sessionNotes_append, sessionNotes_append, (hsession session).2.1, (hbus bus).2.1,
      List.append_nil]
  · rw [dispatches_append, dispatches_append, (hsession session).2.2, (hbus bus).2.2]
    simp

/-- The accepted calls, in order. -/
def calls (h : List Note) : List MemoryBus.Call := MemoryBus.calls (busNotes h)

/-- The accepted calls that have no outcome yet. -/
def openCalls (h : List Note) : List MemoryBus.Call := MemoryBus.openCalls (busNotes h)

theorem calls_noted (session : List Session.Note) (bus : List MemoryBus.Note) (h : List Note) :
    calls (noted session bus ++ h) = MemoryBus.calls (bus ++ busNotes h) := by
  rw [calls, (views_noted session bus h).1]

/-- The numbers under which a call was handed over from its connection. -/
def numbersFor (a : MemoryBus.Call) (h : List Note) : List RequestId :=
  ((Session.handedOn a.owner (sessionNotes h)).filter fun p => p.1.id == a.request.id).map (·.2)

/-- The dispatches of a call: those of requests with a number that the call was handed over
under. -/
def dispatchesOf (a : MemoryBus.Call) (h : List Note) : List (Request × Dispatch) :=
  (dispatches h).filter fun p => (numbersFor a h).contains p.1.id

/-- A reply is the outcome of a dispatch of a call that was handed over from the call's own
connection. -/
def Computed (h : List Note) (a : MemoryBus.Call) (q : Reply) : Prop :=
  ∃ id d, .handed a.owner a.request id ∈ sessionNotes h ∧
    ({ a.request with id }, d) ∈ dispatches h ∧ q = d.toReply a.request.id

theorem Computed.extend {h : List Note} {a : MemoryBus.Call} {q : Reply} (hc : Computed h a q)
    (ns : List Note) : Computed (ns ++ h) a q := by
  rcases hc with ⟨id, d, hhanded, hd, hq⟩
  refine ⟨id, d, ?_, ?_, hq⟩
  · rw [sessionNotes_append]
    exact List.mem_append_right _ hhanded
  · rw [dispatches_append]
    exact List.mem_append_left _ hd

/-! ## The invariant -/

/-- The invariant that ties the bus, the session that publishes under a name, if there is one yet,
and the dispatches of its owner to the history. -/
structure Linked (name : String) (bus : MemoryBus) (owner : Option Session) (h : List Note) :
    Prop where
  recorded : MemoryBus.Recorded bus (busNotes h)
  owned : MemoryBus.Owned name (owner.bind (·.stage.connection?)) (owner.map (·.object)) bus
    (busNotes h)
  routed : ∀ s, owner = some s → Session.Routed s (sessionNotes h)
  answering : ∀ s, owner = some s → Session.Answering s (sessionNotes h) (dispatches h)
  absent : owner = none → sessionNotes h = [] ∧ dispatches h = []
  /-- What was handed over from a connection was taken from the inbox of the connection. -/
  taken : ∀ c, ((Session.handedOn c (sessionNotes h)).map (·.1)).Sublist
    (MemoryBus.receivedBy c (busNotes h))
  replied : ∀ a ∈ calls h, a.request.object = name → ∀ q,
    .answered a.request.id a.caller (.replied q) ∈ busNotes h → Computed h a q

theorem linked_init (name : String) : Linked name {} none [] where
  recorded := MemoryBus.recorded_init
  owned := MemoryBus.owned_init name
  routed := fun s hs => by cases hs
  answering := fun s hs => by cases hs
  absent := fun _ => ⟨rfl, rfl⟩
  taken := fun c => List.Sublist.refl _
  replied := fun a ha => by cases ha

section

variable {name : String} {bus : MemoryBus} {owner : Option Session} {h : List Note}

/-! ### Numbers -/

/-- The connections that calls were handed over from, in order. -/
def sources : List Session.Note → List ConnectionId
  | [] => []
  | .handed c _ _ :: past => sources past ++ [c]
  | _ :: past => sources past

theorem length_sources (h : List Session.Note) :
    (sources h).length = (Session.numbersOf h).length := by
  induction h with
  | nil => rfl
  | cons n h ih => cases n <;> simp [sources, Session.numbersOf, ih]

theorem count_sources (c : ConnectionId) (h : List Session.Note) :
    (sources h).count c = (Session.handedOn c h).length := by
  induction h with
  | nil => rfl
  | cons n h ih =>
    cases n with
    | handed d r id =>
      rw [sources, List.count_append, ih, Session.handedOn]
      by_cases hd : d = c
      · subst hd
        simp
      · rw [if_neg hd, List.count_singleton]
        simp [hd]
    | _ => simpa [sources, Session.handedOn] using ih

/-- No more calls are handed over than were accepted. -/
theorem Linked.length_numbersOf_le (hl : Linked name bus owner h) :
    (Session.numbersOf (sessionNotes h)).length ≤ (calls h).length := by
  have hsub : (sources (sessionNotes h)).Subperm ((calls h).map (·.owner)) := by
    -- Connection by connection, what was handed over was received, and that was accepted.
    rw [List.subperm_ext_iff]
    intro c _
    have hreceived := (hl.taken c).length_le
    have haccepted := (hl.recorded.boxed.taken c).length_le
    rw [List.length_map] at hreceived
    have hcount : ((calls h).map (·.owner)).count c =
        (MemoryBus.acceptedBy c (busNotes h)).length := by
      rw [MemoryBus.acceptedBy, List.length_map, List.count, List.countP_map,
        List.countP_eq_length_filter]
      rfl
    rw [count_sources, hcount]
    exact hreceived.trans haccepted
  have hle := hsub.length_le
  rwa [length_sources, List.length_map] at hle

theorem Linked.nodup_numbersOf (hl : Linked name bus owner h)
    (hbound : (calls h).length ≤ UInt32.size) : (Session.numbersOf (sessionNotes h)).Nodup := by
  cases owner with
  | none =>
    rw [(hl.absent rfl).1]
    exact List.nodup_nil
  | some s =>
    rw [(hl.routed s rfl).numbers]
    exact nodup_numbersGiven (hl.length_numbersOf_le.trans hbound)

/-- What was handed over is an accepted call of its connection. -/
theorem Linked.accepted (hl : Linked name bus owner h) {c : ConnectionId} {r : Request}
    {id : RequestId} (hmem : .handed c r id ∈ sessionNotes h) :
    ∃ a ∈ calls h, a.owner = c ∧ a.request = r := by
  have hhanded : r ∈ (Session.handedOn c (sessionNotes h)).map (·.1) :=
    List.mem_map.2 ⟨(r, id), Session.mem_handedOn.2 hmem, rfl⟩
  have hreceived := (hl.taken c).subset hhanded
  have haccepted := (hl.recorded.boxed.taken c).subset hreceived
  exact MemoryBus.mem_acceptedBy.1 haccepted

/-! ### Steps on the bus -/

/-- The calls that had a reply keep it; the rest is up to the latest notes. -/
theorem Linked.replied_append (hl : Linked name bus owner h) {ns : List Note}
    (hids : (MemoryBus.callIds (busNotes (ns ++ h))).Nodup)
    (hnew : ∀ a ∈ calls (ns ++ h), a.request.object = name → ∀ q,
      .answered a.request.id a.caller (.replied q) ∈ busNotes ns → Computed (ns ++ h) a q) :
    ∀ a ∈ calls (ns ++ h), a.request.object = name → ∀ q,
      .answered a.request.id a.caller (.replied q) ∈ busNotes (ns ++ h) →
        Computed (ns ++ h) a q := by
  intro a ha hname q hmem
  rw [busNotes_append] at hmem
  rcases List.mem_append.1 hmem with hlate | hold
  · exact hnew a ha hname q hlate
  · -- Numbers are unique, so the call that had the reply is this one.
    rcases hl.recorded.resolved.told _ _ _ hold with ⟨b, hb, hid, -, -⟩
    have hb' : b ∈ MemoryBus.calls (busNotes (ns ++ h)) := by
      rw [busNotes_append, MemoryBus.calls_append]
      exact List.mem_append_left _ hb
    have hsame : b = a := MemoryBus.call_eq_of_id_eq hids hb' ha hid
    subst hsame
    exact (hl.replied b hb hname q hold).extend ns

/-- An act on the bus, by whomever, keeps the invariant if it registers nothing of the name but for
the owner, and replies to a call of the object with nothing but what the owner computed. -/
theorem Linked.bus_act (hl : Linked name bus owner h) (m : MemoryBus.Act)
    (hbound : (calls (noted [] (bus.notes m) ++ h)).length ≤ UInt32.size)
    (hadd : ∀ c spec, m = .addObject c spec → spec.name = name →
      owner.bind (·.stage.connection?) = some c ∧ owner.map (·.object) = some spec)
    (hreply : ∀ c q, m = .reply c q → ∀ a ∈ openCalls h,
      a.request.id = q.id → a.request.object = name → Computed h a q) :
    Linked name (bus.act m) owner (noted [] (bus.notes m) ++ h) := by
  have hviews := views_noted [] (bus.notes m) h
  have hbound' : (MemoryBus.calls (bus.notes m ++ busNotes h)).length ≤ UInt32.size := by
    rwa [calls_noted] at hbound
  have hrecorded := hl.recorded.act m hbound'
  have hids := hrecorded.nodup_callIds hbound'
  refine ⟨?_, ?_, ?_, ?_, ?_, ?_, ?_⟩
  · rw [hviews.1]
    exact hrecorded
  · rw [hviews.1]
    exact hl.owned.act m hadd
  · rw [hviews.2.1]
    exact hl.routed
  · rw [hviews.2.1, hviews.2.2]
    exact hl.answering
  · rw [hviews.2.1, hviews.2.2]
    exact hl.absent
  · intro c
    rw [hviews.1, hviews.2.1, MemoryBus.receivedBy_append]
    exact (hl.taken c).trans (List.sublist_append_left _ _)
  · rw [← hviews.1] at hids
    refine hl.replied_append hids ?_
    intro a ha hname q hmem
    have hnotes : busNotes (noted [] (bus.notes m)) = bus.notes m := by
      have hnil := (views_noted [] (bus.notes m) []).1
      simpa [busNotes] using hnil
    rw [hnotes] at hmem
    rcases MemoryBus.replied_of_answered hmem with ⟨hid, c, hm, w, hw, hwid, -⟩
    -- The reply came in for a call that was open, and only this one has the number.
    rcases hl.recorded.resolved.mem_waiting.1 hw with ⟨b, hb, hopen, rfl⟩
    have hb' : b ∈ MemoryBus.calls (busNotes (noted [] (bus.notes m) ++ h)) := by
      rw [busNotes_append, MemoryBus.calls_append]
      exact List.mem_append_left _ hb
    have hsame : b = a := MemoryBus.call_eq_of_id_eq hids hb' ha (hwid.trans hid.symm)
    subst hsame
    exact (hreply c q hm b (MemoryBus.mem_openCalls.2 ⟨hb, hopen⟩) hid hname).extend _

/-! ### Steps of the session -/

/-- An act of the session while the bus takes notes `ns`: what remains to be shown is that the bus
agrees with the connection that is held afterwards, and that what is handed over was taken. -/
theorem Linked.session_step {s : Session} (hl : Linked name bus (some s) h) (a : Session.Act)
    {bus' : MemoryBus} {ns : List MemoryBus.Note}
    (hbound : (MemoryBus.calls (ns ++ busNotes h)).length ≤ UInt32.size)
    (hrecorded : MemoryBus.Recorded bus' (ns ++ busNotes h))
    (howned : MemoryBus.Owned name (s.act a).2.stage.connection? (some s.object) bus'
      (ns ++ busNotes h))
    (hqueued : ∀ q, s.sees a ≠ some (.queued q))
    (htaken : ∀ c, ((Session.handedOn c (s.notes a ++ sessionNotes h)).map (·.1)).Sublist
      (MemoryBus.receivedBy c (ns ++ busNotes h)))
    (hsilent : ∀ id caller q, .answered id caller (.replied q) ∉ ns) :
    Linked name bus' (some (s.act a).2) (noted (s.notes a) ns ++ h) := by
  have hviews := views_noted (s.notes a) ns h
  have hle : (calls h).length ≤ UInt32.size := by
    rw [MemoryBus.calls_append, List.length_append] at hbound
    unfold calls
    omega
  have hnodup := hl.nodup_numbersOf hle
  have hrouted := hl.routed s rfl
  refine ⟨?_, ?_, ?_, ?_, ?_, ?_, ?_⟩
  · rw [hviews.1]
    exact hrecorded
  · rw [hviews.1, Option.map_some, (s.does a).object_eq]
    exact howned
  · intro t ht
    cases ht
    rw [hviews.2.1]
    exact hrouted.does (s.does a)
  · intro t ht
    cases ht
    rw [hviews.2.1, hviews.2.2]
    exact (hl.answering s rfl).does hrouted.closed hnodup (s.does a) hqueued
  · intro hnone
    cases hnone
  · intro c
    rw [hviews.1, hviews.2.1]
    exact htaken c
  · -- The bus takes no reply meanwhile, so there is nothing new to account for.
    have hids := hrecorded.nodup_callIds hbound
    rw [← hviews.1] at hids
    refine hl.replied_append hids ?_
    intro b _ _ q hmem
    have hnotes := (views_noted (s.notes a) ns []).1
    rw [List.append_nil] at hnotes
    rw [hnotes] at hmem
    exact absurd (by simpa [busNotes] using hmem) (hsilent _ _ q)

/-- What hands nothing over leaves the relation between the inboxes and the owner's calls. -/
theorem Linked.taken_of_mute {s : Session} (hl : Linked name bus (some s) h) {a : Session.Act}
    (hhanded : ∀ c r id, s.sees a ≠ some (.handed c r id)) (ns : List MemoryBus.Note)
    (c : ConnectionId) : ((Session.handedOn c (s.notes a ++ sessionNotes h)).map (·.1)).Sublist
      (MemoryBus.receivedBy c (ns ++ busNotes h)) := by
  have hmute : ∀ n ∈ s.notes a, n.mute = true := by
    intro n hn
    rcases List.mem_append.1 hn with hdid | hseen
    · exact Session.mute_did _ n hdid
    · cases n with
      | handed c r id => exact absurd (Option.mem_toList.1 hseen) (hhanded c r id)
      | _ => rfl
  rw [(Session.handed_append_mute hmute _).2.2 c, MemoryBus.receivedBy_append]
  exact (hl.taken c).trans (List.sublist_append_left _ _)

/-- An act of the session alone that hands no call over. -/
theorem Linked.session_act {s : Session} (hl : Linked name bus (some s) h) (a : Session.Act)
    (hbound : (calls h).length ≤ UInt32.size) (hqueued : ∀ q, s.sees a ≠ some (.queued q))
    (hhanded : ∀ c r id, s.sees a ≠ some (.handed c r id))
    (howned : MemoryBus.Owned name (s.act a).2.stage.connection? (some s.object) bus (busNotes h)) :
    Linked name bus (some (s.act a).2) (noted (s.notes a) [] ++ h) :=
  hl.session_step a hbound hl.recorded howned hqueued (hl.taken_of_mute hhanded []) (by simp)

/-- An act of the session alone that leaves the connection as it is. -/
theorem Linked.stay {s : Session} (hl : Linked name bus (some s) h) (a : Session.Act)
    (hbound : (calls h).length ≤ UInt32.size) (hqueued : ∀ q, s.sees a ≠ some (.queued q))
    (hhanded : ∀ c r id, s.sees a ≠ some (.handed c r id))
    (hheld : (s.act a).2.stage.connection? = s.stage.connection?) :
    Linked name bus (some (s.act a).2) (noted (s.notes a) [] ++ h) := by
  refine hl.session_act a hbound hqueued hhanded ?_
  rw [hheld]
  exact hl.owned

/-- The session leaves its connection, which is dropped. -/
theorem Linked.leave {s : Session} (hl : Linked name bus (some s) h) (a : Session.Act)
    {c : ConnectionId} (hbound : (calls (noted [] (bus.notes (.drop c)) ++ h)).length ≤ UInt32.size)
    (hheld : s.stage.connection? = some c) (hqueued : ∀ q, s.sees a ≠ some (.queued q))
    (hhanded : ∀ c r id, s.sees a ≠ some (.handed c r id)) :
    Linked name (bus.act (.drop c)) (some (s.act a).2)
      (noted (s.notes a) (bus.notes (.drop c)) ++ h) := by
  have hbound' : (MemoryBus.calls (bus.notes (.drop c) ++ busNotes h)).length ≤ UInt32.size := by
    rwa [calls_noted] at hbound
  have howned := hl.owned
  rw [Option.bind_some, hheld] at howned
  refine hl.session_step a hbound' (hl.recorded.act _ hbound')
    (howned.drop hl.recorded.resolved _) hqueued (hl.taken_of_mute hhanded _) ?_
  intro id caller q hmem
  rcases MemoryBus.replied_of_answered hmem with ⟨-, d, hm, -⟩
  cases hm

/-- The session takes a call from its inbox and hands it over. -/
theorem Linked.hand {s : Session} (hl : Linked name bus (some s) h) (now : Nat)
    {c : ConnectionId} {r : Request} (hs : s.stage = .serving c) (hheard : s.heard = true)
    (hreceived : (bus.receive c).1 = .call r)
    (hbound : (calls (noted [] (bus.notes (.receive c)) ++ h)).length ≤ UInt32.size) :
    Linked name (bus.act (.receive c)) (some (s.act (.move now (.received r))).2)
      (noted (s.notes (.move now (.received r))) (bus.notes (.receive c)) ++ h) := by
  have hbound' : (MemoryBus.calls (bus.notes (.receive c) ++ busNotes h)).length ≤ UInt32.size := by
    rwa [calls_noted] at hbound
  have hsees : s.sees (.move now (.received r)) = some (.handed c r s.nextId) := by
    simp [Session.sees, hs, hheard]
  have hact : s.act (.move now (.received r)) = ([], s.forward r) := by
    simp [Session.act, Session.step, hs, hheard]
  have hsession : s.notes (.move now (.received r)) = [.handed c r s.nextId] := by
    simp [Session.notes, hact, hsees]
  have hbus : bus.notes (.receive c) = [.received c r] := by simp [MemoryBus.notes, hreceived]
  refine hl.session_step _ hbound' (hl.recorded.act _ hbound') ?_ (by simp [hsees]) ?_
    (by simp [hbus])
  · have howned := hl.owned.act (.receive c) (by simp)
    rw [hact]
    exact howned
  · -- The call is the latest on both sides, and the other connections are as before.
    intro d
    rw [hsession, hbus]
    simp only [List.cons_append, List.nil_append, Session.handedOn, MemoryBus.receivedBy]
    by_cases hd : c = d
    · rw [if_pos hd, if_pos hd, List.map_append]
      exact (hl.taken d).append (List.Sublist.refl _)
    · rw [if_neg hd, if_neg hd]
      exact hl.taken d

/-! ### Steps of the owner -/

/-- An object is published. -/
theorem Linked.publish (hl : Linked name bus none h) (object : ObjectSpec) (retry : Nat) :
    Linked name bus (some { object, retry }) h := by
  have habsent := hl.absent rfl
  refine ⟨hl.recorded, ?_, ?_, ?_, ?_, hl.taken, hl.replied⟩
  · exact (hl.owned.publish object).take _
  · intro s hs
    cases hs
    rw [habsent.1]
    exact Session.routed_init object retry
  · intro s hs
    cases hs
    rw [habsent.1, habsent.2]
    exact Session.answering_init object retry
  · intro hnone
    cases hnone

theorem reply_frame (s : Session) (q : Reply) :
    (s.reply q).2.stage = s.stage ∧ (s.reply q).2.object = s.object := by
  unfold Session.reply
  split
  · exact ⟨rfl, rfl⟩
  · exact ⟨rfl, rfl⟩

theorem mute_of_reply (s : Session) (q : Reply) : ∀ n ∈ s.notes (.reply q), n.mute = true := by
  intro n hn
  unfold Session.notes Session.sees Session.act at hn
  by_cases hover : s.isOver = true
  · simp [hover] at hn
  · simp [hover] at hn
    rw [hn]
    rfl

/-- The owner takes a call, dispatches it and replies with the outcome. -/
theorem Linked.dispatch {s : Session} (hl : Linked name bus (some s) h) {r : Request}
    {rest : List BusEvent} (hevents : s.events = .call r :: rest) (d : Dispatch) :
    Linked name bus (some (({ s with events := rest } : Session).reply (d.toReply r.id)).2)
      (noted (({ s with events := rest } : Session).notes (.reply (d.toReply r.id))) [] ++
        .dispatched r d :: h) := by
  have hframe := reply_frame { s with events := rest } (d.toReply r.id)
  have hmute := mute_of_reply { s with events := rest } (d.toReply r.id)
  have hrouted : Session.Routed { s with events := rest } (sessionNotes h) :=
    (hl.routed s rfl).does (.heard _ rest hevents)
  have hreplied := hrouted.does (Session.does { s with events := rest } (.reply (d.toReply r.id)))
  have hanswering := (hl.answering s rfl).dispatch hevents d _ hmute
  have hviews := views_noted (Session.notes { s with events := rest } (.reply (d.toReply r.id))) []
    (.dispatched r d :: h)
  have hbus : busNotes (.dispatched r d :: h) = busNotes h := rfl
  have hsession : sessionNotes (.dispatched r d :: h) = sessionNotes h := rfl
  have hdispatches : dispatches (.dispatched r d :: h) = dispatches h ++ [(r, d)] := by
    simp [dispatches, Note.dispatch?]
  rw [hbus, hsession, hdispatches, List.nil_append] at hviews
  refine ⟨?_, ?_, ?_, ?_, ?_, ?_, ?_⟩
  · rw [hviews.1]
    exact hl.recorded
  · rw [hviews.1, Option.bind_some, Option.map_some, hframe.1, hframe.2]
    exact hl.owned
  · intro t ht
    cases ht
    rw [hviews.2.1]
    exact hreplied
  · intro t ht
    cases ht
    rw [hviews.2.1, hviews.2.2]
    exact hanswering
  · intro hnone
    cases hnone
  · intro c
    rw [hviews.1, hviews.2.1, (Session.handed_append_mute hmute _).2.2 c]
    exact hl.taken c
  · intro a ha hname q hmem
    have ha' : a ∈ calls h := by
      rw [calls, hviews.1] at ha
      exact ha
    rw [hviews.1] at hmem
    have hold := (hl.replied a ha' hname q hmem).extend [.dispatched r d]
    exact hold.extend _

/-- The owner takes an event that it does not dispatch. -/
theorem Linked.hear {s : Session} (hl : Linked name bus (some s) h)
    (hbound : (calls h).length ≤ UInt32.size) {e : BusEvent} {rest : List BusEvent}
    (hevents : s.events = e :: rest) : Linked name bus (some { s with events := rest }) h := by
  have hact : s.act .hear = ([], { s with events := rest }) := by
    simp [Session.act, Session.nextEvent, hevents]
  have hstay := hl.stay .hear hbound (by simp [Session.sees]) (by simp [Session.sees])
    (by simp [hact])
  simpa [hact, Session.notes, Session.sees, noted] using hstay

theorem Linked.unlink {s : Session} (hl : Linked name bus (some s) h)
    (hbound : (calls h).length ≤ UInt32.size) : Linked name bus (some s.unlink) h := by
  have hstay := hl.stay .unlink hbound (by simp [Session.sees]) (by simp [Session.sees]) rfl
  simpa [Session.act, Session.notes, Session.sees, noted] using hstay

theorem Linked.ignore {s : Session} (hl : Linked name bus (some s) h)
    (hbound : (calls h).length ≤ UInt32.size) : Linked name bus (some s.ignore) h := by
  have hstay := hl.stay .ignore hbound (by simp [Session.sees]) (by simp [Session.sees]) rfl
  simpa [Session.act, Session.notes, Session.sees, noted] using hstay

/-! ### Dispatches of a call -/

/-- Numbers tell the calls that were handed over from a connection apart. -/
theorem Linked.nodup_handedOn (hl : Linked name bus owner h)
    (hbound : (calls h).length ≤ UInt32.size) (c : ConnectionId) :
    ((Session.handedOn c (sessionNotes h)).map (·.1.id)).Nodup := by
  have haccepted : ((MemoryBus.acceptedBy c (busNotes h)).map (·.id)).Nodup := by
    have hsub : (((calls h).filter fun a => a.owner == c).map (·.request.id)).Sublist
        ((calls h).map (·.request.id)) := List.filter_sublist.map _
    rw [MemoryBus.acceptedBy, List.map_map]
    exact hsub.nodup (hl.recorded.nodup_callIds hbound)
  have hreceived := (hl.recorded.boxed.taken c).sublist.map (·.id)
  have hhanded := (hl.taken c).map (·.id)
  rw [List.map_map] at hhanded
  exact (hhanded.trans hreceived).nodup haccepted

theorem Linked.numbersFor_eq (hl : Linked name bus owner h)
    (hbound : (calls h).length ≤ UInt32.size) {a : MemoryBus.Call} {id : RequestId}
    (hhanded : .handed a.owner a.request id ∈ sessionNotes h) : numbersFor a h = [id] := by
  have hmem : (a.request, id) ∈ Session.handedOn a.owner (sessionNotes h) :=
    Session.mem_handedOn.2 hhanded
  have hone := filter_key_eq (hl.nodup_handedOn hbound a.owner) hmem
  rw [numbersFor, hone]
  rfl

/-- A dispatch of a call is one of what was handed over from the call's own connection. -/
theorem Linked.handed_of_mem_dispatchesOf (hl : Linked name bus owner h)
    (hbound : (calls h).length ≤ UInt32.size) {a : MemoryBus.Call} (ha : a ∈ calls h)
    {p : Request × Dispatch} (hp : p ∈ dispatchesOf a h) :
    .handed a.owner a.request p.1.id ∈ sessionNotes h ∧ p.1 = { a.request with id := p.1.id } := by
  have hfound := List.mem_filter.1 hp
  have hnumber : p.1.id ∈ numbersFor a h := by simpa using hfound.2
  rcases List.mem_map.1 hnumber with ⟨⟨r, id⟩, hr, hid⟩
  have hr' := List.mem_filter.1 hr
  have hhanded := Session.mem_handedOn.1 hr'.1
  simp only at hid hhanded
  subst hid
  rcases hl.accepted hhanded with ⟨b, hb, -, rfl⟩
  have hsame : b.request.id = a.request.id := by simpa using hr'.2
  have hab := MemoryBus.call_eq_of_id_eq (hl.recorded.nodup_callIds hbound) hb ha hsame
  subst hab
  refine ⟨hhanded, ?_⟩
  -- Only one request was handed over under the number that was dispatched.
  cases owner with
  | none =>
    rw [(hl.absent rfl).2] at hfound
    cases hfound.1
  | some s =>
    rcases Session.mem_dispatched (hl.answering s rfl) hfound.1 with ⟨c, q, hq, heq⟩
    have hunique := Session.handed_unique (hl.nodup_numbersOf hbound) hhanded hq
    rw [hunique.2]
    exact heq

/-- A call that was dispatched was dispatched once. -/
theorem Linked.dispatchesOf_eq (hl : Linked name bus owner h)
    (hbound : (calls h).length ≤ UInt32.size) {a : MemoryBus.Call} {p : Request × Dispatch}
    (hp : p ∈ dispatches h)
    (hhanded : .handed a.owner a.request p.1.id ∈ sessionNotes h) : dispatchesOf a h = [p] := by
  have hids : ((dispatches h).map (·.1.id)).Nodup := by
    cases owner with
    | none =>
      rw [(hl.absent rfl).2]
      exact List.nodup_nil
    | some s =>
      have hheard := (hl.answering s rfl).heard
      have hsub := ((List.sublist_append_left _ _).trans hheard).map (·.id)
      rw [List.map_map, Session.map_id_handedRequests] at hsub
      exact hsub.nodup (hl.nodup_numbersOf hbound)
  have hnumber := hl.numbersFor_eq hbound hhanded
  have hone := filter_key_eq hids hp
  rw [dispatchesOf, hnumber, ← hone]
  apply List.filter_congr
  intro q _
  rw [Bool.eq_iff_iff]
  simp

end

end ScriptService.Exchange
