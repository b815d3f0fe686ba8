import ScriptService.Proofs.Session.Routing
import ScriptService.Service

/-!
# Answers of the owner

The owner of a session answers calls by dispatching them: it takes the events of the session in
order, and each call that it dispatches gives one reply. An invariant follows a call on its way from
the connection to the owner, and the outcome of its dispatch on the way back.

Main statements: `Session.Answering.does` and `Session.Answering.dispatch`.
-/

namespace ScriptService

/-- The reply that the outcome of a dispatch gives. -/
def Dispatch.toReply (d : Dispatch) (id : RequestId) : Reply := ⟨id, d.status, d.reply⟩

namespace Session

/-! ## What a history says -/

/-- The requests that were handed to the owner, under the numbers of the session, in order. -/
def handedRequests : List Note → List Request
  | [] => []
  | .handed _ r id :: past => handedRequests past ++ [{ r with id }]
  | _ :: past => handedRequests past

/-- The calls of a connection that were handed to the owner, with their numbers, in order. -/
def handedOn (c : ConnectionId) : List Note → List (Request × RequestId)
  | [] => []
  | .handed d r id :: past => if d = c then handedOn c past ++ [(r, id)] else handedOn c past
  | _ :: past => handedOn c past

/-- The calls among the events that wait for the owner. -/
def waitingCalls (events : List BusEvent) : List Request :=
  events.filterMap fun
    | .call r => some r
    | _ => none

/-- Notes that hand no call to the owner. -/
def Note.mute : Note → Bool
  | .handed _ _ _ => false
  | _ => true

theorem handed_append_mute {ns : List Note} (hns : ∀ n ∈ ns, n.mute = true) (h : List Note) :
    handedRequests (ns ++ h) = handedRequests h ∧ numbersOf (ns ++ h) = numbersOf h ∧
      ∀ c, handedOn c (ns ++ h) = handedOn c h := by
  induction ns with
  | nil => exact ⟨rfl, rfl, fun _ => rfl⟩
  | cons n ns ih =>
    have hn : n.mute = true := hns n List.mem_cons_self
    have ih' := ih fun m hm => hns m (List.mem_cons_of_mem n hm)
    cases n with
    | handed c r id => simp [Note.mute] at hn
    | _ => simpa [handedRequests, numbersOf, handedOn] using ih'

theorem mute_did (events : List SessionEvent) :
    ∀ n ∈ (events.map Note.did).reverse, n.mute = true := by
  intro n hn
  rcases List.mem_map.1 (List.mem_reverse.1 hn) with ⟨e, -, rfl⟩
  rfl

theorem mute_seen (events : List SessionEvent) {n : Note} (hn : n.mute = true) :
    ∀ m ∈ (events.map Note.did).reverse ++ [n], m.mute = true := by
  intro m hm
  rcases List.mem_append.1 hm with hm | hm
  · exact mute_did events m hm
  · rw [List.mem_singleton.1 hm]
    exact hn

theorem mem_handedRequests {q : Request} {h : List Note} :
    q ∈ handedRequests h ↔ ∃ c r id, .handed c r id ∈ h ∧ q = { r with id } := by
  induction h with
  | nil => simp [handedRequests]
  | cons n h ih =>
    cases n with
    | handed c r id =>
      rw [handedRequests, List.mem_append, ih, List.mem_singleton]
      constructor
      · rintro (⟨d, q', i, hmem, rfl⟩ | rfl)
        · exact ⟨d, q', i, List.mem_cons_of_mem _ hmem, rfl⟩
        · exact ⟨c, r, id, List.mem_cons_self, rfl⟩
      · rintro ⟨d, q', i, hmem, rfl⟩
        rcases List.mem_cons.1 hmem with heq | hmem
        · cases heq
          exact Or.inr rfl
        · exact Or.inl ⟨d, q', i, hmem, rfl⟩
    | _ => simpa [handedRequests] using ih

theorem mem_handedOn {c : ConnectionId} {p : Request × RequestId} {h : List Note} :
    p ∈ handedOn c h ↔ .handed c p.1 p.2 ∈ h := by
  induction h with
  | nil => simp [handedOn]
  | cons n h ih =>
    cases n with
    | handed d r id =>
      by_cases hd : d = c
      · subst hd
        rw [handedOn, if_pos rfl, List.mem_append, ih, List.mem_singleton, List.mem_cons]
        constructor
        · rintro (hmem | rfl)
          · exact Or.inr hmem
          · exact Or.inl rfl
        · rintro (heq | hmem)
          · cases heq
            exact Or.inr rfl
          · exact Or.inl hmem
      · rw [handedOn, if_neg hd, ih, List.mem_cons]
        have hne : Note.handed c p.1 p.2 ≠ .handed d r id := fun heq =>
          hd (Note.handed.inj heq).1.symm
        simp [hne]
    | _ => simpa [handedOn] using ih

theorem map_id_handedRequests (h : List Note) :
    (handedRequests h).map (·.id) = numbersOf h := by
  induction h with
  | nil => rfl
  | cons n h ih => cases n <;> simp [handedRequests, numbersOf, ih]

theorem mem_numbersOf {c : ConnectionId} {r : Request} {id : RequestId} {h : List Note}
    (hmem : .handed c r id ∈ h) : id ∈ numbersOf h := by
  rw [← map_id_handedRequests]
  exact List.mem_map.2 ⟨{ r with id }, mem_handedRequests.2 ⟨c, r, id, hmem, rfl⟩, rfl⟩

/-- A number that was given out once stands for one call of one connection. -/
theorem handed_unique {h : List Note} (hnodup : (numbersOf h).Nodup) {c d : ConnectionId}
    {r q : Request} {id : RequestId} (hc : .handed c r id ∈ h) (hd : .handed d q id ∈ h) :
    c = d ∧ r = q := by
  induction h with
  | nil => cases hc
  | cons n h ih =>
    cases n with
    | handed e p i =>
      rw [numbersOf, List.nodup_append] at hnodup
      -- The latest number is not among the earlier ones.
      have hnew : ∀ {c : ConnectionId} {r : Request}, .handed c r i ∉ h := fun hmem =>
        hnodup.2.2 i (mem_numbersOf hmem) i (List.mem_singleton_self i) rfl
      rcases List.mem_cons.1 hc with heq | hc'
      · cases heq
        rcases List.mem_cons.1 hd with heq | hd'
        · cases heq
          exact ⟨rfl, rfl⟩
        · exact absurd hd' hnew
      · rcases List.mem_cons.1 hd with heq | hd'
        · cases heq
          exact absurd hc' hnew
        · exact ih hnodup.1 hc' hd'
    | _ => exact ih hnodup (by simpa using hc) (by simpa using hd)

/-! ## The invariant -/

/-- The invariant that ties a session to its history and to the dispatches that its owner made. -/
structure Answering (s : Session) (h : List Note) (ds : List (Request × Dispatch)) : Prop where
  /-- An open call arrived on the connection that is held. -/
  calls : ∀ p ∈ s.inFlight, ∃ c r, s.stage.connection? = some c ∧ .handed c r p.1 ∈ h ∧ r.id = p.2
  /-- What was dispatched and what waits for the owner was handed over, in this order. -/
  heard : (ds.map (·.1) ++ waitingCalls s.events).Sublist (handedRequests h)
  /-- Queued replies are outcomes of dispatches. -/
  queued : ∀ q ∈ s.replies, ∃ p ∈ ds, q = p.2.toReply p.1.id
  /-- A reply on its way out is the outcome of the dispatch of a call of the connection. -/
  writing : ∀ c q, s.stage = .writing c q →
    ∃ r id d, .handed c r id ∈ h ∧ ({ r with id }, d) ∈ ds ∧ q = d.toReply r.id

theorem answering_init (object : ObjectSpec) (retry : Nat) :
    Answering { object := object, retry := retry } [] [] where
  calls := fun p hp => by cases hp
  heard := List.Sublist.refl _
  queued := fun q hq => by cases hq
  writing := fun c q hs => by cases hs

theorem mem_dispatched {s : Session} {h : List Note} {ds : List (Request × Dispatch)}
    (ha : Answering s h ds) {p : Request × Dispatch} (hp : p ∈ ds) :
    ∃ c r, .handed c r p.1.id ∈ h ∧ p.1 = { r with id := p.1.id } := by
  -- What is dispatched is taken from what was handed over.
  have hmem : p.1 ∈ handedRequests h :=
    ha.heard.subset (List.mem_append_left _ (List.mem_map.2 ⟨p, hp, rfl⟩))
  rcases mem_handedRequests.1 hmem with ⟨c, r, id, hhanded, heq⟩
  rw [heq]
  exact ⟨c, r, hhanded, rfl⟩

/-- What hands nothing to the owner and starts no write keeps the invariant, as long as no open
call, no event and no queued reply is added. -/
theorem Answering.extend {s t : Session} {h : List Note} {ds : List (Request × Dispatch)}
    (ha : Answering s h ds) {ns : List Note} (hns : ∀ n ∈ ns, n.mute = true)
    (hcalls : ∀ p ∈ t.inFlight, p ∈ s.inFlight ∧ t.stage.connection? = s.stage.connection?)
    (hevents : (waitingCalls t.events).Sublist (waitingCalls s.events))
    (hreplies : ∀ q ∈ t.replies, q ∈ s.replies)
    (hwriting : ∀ c q, t.stage = .writing c q → s.stage = .writing c q) :
    Answering t (ns ++ h) ds where
  calls := by
    intro p hp
    have hold := hcalls p hp
    rcases ha.calls p hold.1 with ⟨c, r, hc, hmem, hid⟩
    exact ⟨c, r, hold.2.trans hc, List.mem_append_right _ hmem, hid⟩
  heard := by
    rw [(handed_append_mute hns h).1]
    exact (List.Sublist.append (List.Sublist.refl _) hevents).trans ha.heard
  queued := fun q hq => ha.queued q (hreplies q hq)
  writing := by
    intro c q hs
    rcases ha.writing c q (hwriting c q hs) with ⟨r, id, d, hmem, hd, heq⟩
    exact ⟨r, id, d, List.mem_append_right _ hmem, hd, heq⟩

theorem Answering.forward {s : Session} {h : List Note} {ds : List (Request × Dispatch)}
    (ha : Answering s h ds) (c : ConnectionId) (r : Request) (hs : s.stage = .serving c) :
    Answering (s.forward r) (.handed c r s.nextId :: h) ds where
  calls := by
    intro p hp
    have hc : (s.forward r).stage.connection? = some c := by
      simp [Session.forward, hs, Stage.connection?]
    rcases List.mem_cons.1 hp with rfl | hp
    · exact ⟨c, r, hc, List.mem_cons_self, rfl⟩
    · rcases ha.calls p (List.mem_filter.1 hp).1 with ⟨d, q, hd, hmem, hid⟩
      exact ⟨d, q, hd, List.mem_cons_of_mem _ hmem, hid⟩
  heard := by
    have hevents : waitingCalls (s.forward r).events =
        waitingCalls s.events ++ [{ r with id := s.nextId }] := by
      simp [Session.forward, waitingCalls]
    rw [hevents, handedRequests, ← List.append_assoc]
    exact List.Sublist.append ha.heard (List.Sublist.refl _)
  queued := ha.queued
  writing := by
    intro d q hq
    simp [Session.forward, hs] at hq

theorem Answering.taken {s : Session} {h : List Note} {ds : List (Request × Dispatch)}
    (ha : Answering s h ds) (hnodup : (numbersOf h).Nodup) (c : ConnectionId) (q : Reply)
    (rest : List Reply) (bus : RequestId) (hs : s.stage = .serving c)
    (hqueue : s.replies = q :: rest) (hcall : List.lookup q.id s.inFlight = some bus) :
    Answering
      { s with
        replies := rest
        inFlight := s.inFlight.filter fun p => p.1 != q.id
        stage := .writing c { q with id := bus } }
      (.taken q :: h) ds where
  calls := by
    intro p hp
    rcases ha.calls p (List.mem_filter.1 hp).1 with ⟨d, r, hd, hmem, hid⟩
    exact ⟨d, r, by simpa [hs, Stage.connection?] using hd, List.mem_cons_of_mem _ hmem, hid⟩
  heard := by simpa [handedRequests] using ha.heard
  queued := fun p hp => ha.queued p (by rw [hqueue]; exact List.mem_cons_of_mem _ hp)
  writing := by
    intro d p hstage
    cases hstage
    -- The table knows the call under this number, and the queue knows its dispatch.
    have hopen : (q.id, bus) ∈ s.inFlight := by
      rcases List.lookup_eq_some_iff.1 hcall with ⟨before, after, heq, -⟩
      rw [heq]
      simp
    rcases ha.calls _ hopen with ⟨d, r, hd, hmem, hid⟩
    obtain rfl : c = d := by simpa [hs, Stage.connection?] using hd
    rcases ha.queued q (by rw [hqueue]; exact List.mem_cons_self) with ⟨p, hp, hq⟩
    have hpid : p.1.id = q.id := by rw [hq]; rfl
    rcases mem_dispatched ha hp with ⟨e, r', hmem', heq⟩
    rw [hpid] at hmem' heq
    have hsame := handed_unique hnodup hmem hmem'
    refine ⟨r, q.id, p.2, List.mem_cons_of_mem _ hmem, ?_, ?_⟩
    · rw [hsame.2, ← heq]
      exact hp
    · rw [hid, hq]
      rfl

theorem calls_of_inFlight_nil {s t : Session} (hcalls : t.inFlight = []) :
    ∀ p ∈ t.inFlight, p ∈ s.inFlight ∧ t.stage.connection? = s.stage.connection? := by
  intro p hp
  rw [hcalls] at hp
  cases hp

theorem waitingCalls_lose (s : Session) (now : Nat) (c : ConnectionId) :
    waitingCalls (s.lose now c).2.events = waitingCalls s.events := by
  unfold lose pause
  by_cases hheard : s.heard = true
  · simp [hheard, waitingCalls]
  · simp [hheard]

theorem not_writing_of_connection_none {s : Session} (h : s.stage.connection? = none)
    (c : ConnectionId) (q : Reply) : s.stage ≠ .writing c q := by
  intro hs
  simp [hs, Stage.connection?] at h

theorem abort_events (s : Session) : s.abort.2.events = s.events := by
  unfold abort
  split
  · rfl
  · rfl

/-- A connection that is left takes its open calls along. -/
theorem Answering.leave {s t : Session} {h : List Note} {ds : List (Request × Dispatch)}
    (ha : Answering s h ds) {ns : List Note} (hns : ∀ n ∈ ns, n.mute = true)
    (hstage : t.stage.connection? = none) (hcalls : t.inFlight = [])
    (hevents : waitingCalls t.events = waitingCalls s.events)
    (hreplies : ∀ q ∈ t.replies, q ∈ s.replies) : Answering t (ns ++ h) ds := by
  refine ha.extend hns (calls_of_inFlight_nil hcalls) (by rw [hevents]) hreplies ?_
  intro c q ht
  exact absurd ht (not_writing_of_connection_none hstage c q)

/-- A queue without its first reply has no others than before. -/
theorem mem_of_replies {s : Session} {r : Reply} {rest : List Reply}
    (hqueue : s.replies = r :: rest) : ∀ q ∈ rest, q ∈ s.replies := by
  intro q hq
  rw [hqueue]
  exact List.mem_cons_of_mem r hq

theorem Answering.does {s t : Session} {h : List Note} {ds : List (Request × Dispatch)}
    {events : List SessionEvent} {seen : Option Note} (ha : Answering s h ds)
    (hclosed : s.stage.serves = false → s.inFlight = []) (hnodup : (numbersOf h).Nodup)
    (hdoes : Does s events seen t) (hseen : ∀ q, seen ≠ some (.queued q)) :
    Answering t ((events.map .did).reverse ++ seen.toList ++ h) ds := by
  cases hdoes with
  | idle => exact ha
  | connected c hs =>
    -- No call is open between two connections.
    have hopen : s.inFlight = [] := hclosed (by simp [hs, Stage.serves])
    exact ha.extend (by simp [Note.mute]) (calls_of_inFlight_nil hopen)
      (List.Sublist.refl _) (fun q hq => hq) (by simp)
  | unconnected now hs =>
    have hopen : s.inFlight = [] := hclosed (by simp [hs, Stage.serves])
    exact ha.leave (by simp [Note.mute]) (by simp [pause, Stage.connection?]) hopen rfl
      fun q hq => hq
  | registered c hs _ htalk =>
    have hopen : s.inFlight = [] := hclosed (by simp [hs, Stage.serves])
    rw [Option.toList_none, List.append_nil]
    exact ha.extend (mute_did events) (calls_of_inFlight_nil hopen) (by simp [waitingCalls])
      (fun q hq => hq) (by simp)
  | refused c now hs htalk =>
    have hopen : s.inFlight = [] := hclosed (by simp [hs, Stage.serves])
    rw [Option.toList_none, List.append_nil]
    exact ha.leave (mute_did _) (by simp [pause, Stage.connection?]) hopen rfl fun q hq => hq
  | handed c r hs _ => exact ha.forward c r hs
  | passed c r rest hs hqueue _ =>
    exact ha.extend (by simp [Note.mute]) (fun p hp => ⟨hp, rfl⟩) (List.Sublist.refl _)
      (mem_of_replies hqueue) (fun c q hs' => hs')
  | taken c r rest bus hs hqueue hcall => exact ha.taken hnodup c r rest bus hs hqueue hcall
  | written c r hs =>
    exact ha.extend (by simp [Note.mute])
      (fun p hp => ⟨hp, by simp [hs, Stage.connection?]⟩) (List.Sublist.refl _) (fun q hq => hq)
      (by simp)
  | stalled c r hs =>
    exact ha.extend (by simp) (fun p hp => ⟨hp, by simp [hs, Stage.connection?]⟩)
      (List.Sublist.refl _) (fun q hq => hq) (by simp)
  | lost c now hs htalk =>
    have hlost := lose_left s now c
    rw [Option.toList_none, List.append_nil]
    exact ha.leave (mute_did _) hlost.1 hlost.2.2.1 (waitingCalls_lose s now c) fun q hq => by
      rwa [hlost.2.2.2] at hq
  | broken c r now hs htalk =>
    have hlost := lose_left s now c
    exact ha.leave (mute_seen _ rfl) hlost.1 hlost.2.2.1 (waitingCalls_lose s now c) fun q hq => by
      rwa [hlost.2.2.2] at hq
  | finished c hs htalk =>
    rw [Option.toList_none, List.append_nil]
    exact ha.leave (mute_did _) (by simp [finish, Stage.connection?]) rfl rfl fun q hq => hq
  | discarded deadline r rest hs hqueue =>
    exact ha.extend (by simp [Note.mute]) (fun p hp => ⟨hp, rfl⟩) (List.Sublist.refl _)
      (mem_of_replies hqueue) (fun c q hs' => hs')
  | resumed deadline hs =>
    have hopen : s.inFlight = [] := hclosed (by simp [hs, Stage.serves])
    exact ha.leave (by simp) rfl hopen rfl fun q hq => hq
  | ended deadline hs =>
    have hopen : s.inFlight = [] := hclosed (by simp [hs, Stage.serves])
    exact ha.leave (by simp) rfl hopen rfl fun q hq => hq
  | queued r _ => exact absurd rfl (hseen r)
  | unlinked =>
    exact ha.extend (by simp) (fun p hp => ⟨hp, rfl⟩) (List.Sublist.refl _)
      (fun q hq => hq) (fun c q hs => hs)
  | ignored =>
    exact ha.extend (by simp) (fun p hp => ⟨hp, rfl⟩) (by simp [ignore, waitingCalls])
      (fun q hq => hq) (fun c q hs => hs)
  | heard e rest hevents =>
    refine ha.extend (by simp) (fun p hp => ⟨hp, rfl⟩) ?_ (fun q hq => hq) (fun c q hs => hs)
    rw [hevents]
    exact (List.sublist_cons_self e rest).filterMap _
  | aborted hs =>
    have haborted := abort_left s
    rw [Option.toList_none, List.append_nil]
    exact ha.leave (mute_did _) haborted.1 haborted.2.2.1 (by rw [abort_events]) fun q hq => by
      rw [haborted.2.2.2] at hq
      cases hq
  | cutOff c hs =>
    have haborted := abort_left s
    exact ha.leave (mute_seen _ rfl) haborted.1 haborted.2.2.1 (by rw [abort_events]) fun q hq => by
      rw [haborted.2.2.2] at hq
      cases hq

/-- The owner takes a call, dispatches it and queues the outcome. -/
theorem Answering.dispatch {s : Session} {h : List Note} {ds : List (Request × Dispatch)}
    (ha : Answering s h ds) {r : Request} {rest : List BusEvent}
    (hevents : s.events = .call r :: rest) (d : Dispatch) (ns : List Note)
    (hns : ∀ n ∈ ns, n.mute = true) :
    Answering (({ s with events := rest } : Session).reply (d.toReply r.id)).2 (ns ++ h)
      (ds ++ [(r, d)]) := by
  have hhanded := (handed_append_mute hns h).1
  have hheard : ((ds ++ [(r, d)]).map (·.1) ++ waitingCalls rest).Sublist
      (handedRequests (ns ++ h)) := by
    have hold := ha.heard
    rw [hevents] at hold
    rw [hhanded]
    simpa [waitingCalls] using hold
  have hmore : Answering { s with events := rest } (ns ++ h) (ds ++ [(r, d)]) := by
    refine ⟨?_, hheard, ?_, ?_⟩
    · intro p hp
      rcases ha.calls p hp with ⟨c, q, hc, hmem, hid⟩
      exact ⟨c, q, hc, List.mem_append_right _ hmem, hid⟩
    · intro q hq
      rcases ha.queued q hq with ⟨p, hp, heq⟩
      exact ⟨p, List.mem_append_left _ hp, heq⟩
    · intro c q hs
      rcases ha.writing c q hs with ⟨p, id, e, hmem, he, heq⟩
      exact ⟨p, id, e, List.mem_append_right _ hmem, List.mem_append_left _ he, heq⟩
  unfold Session.reply
  by_cases hover : isOver { s with events := rest } = true
  · rw [if_pos hover]
    exact hmore
  · rw [if_neg hover]
    refine ⟨hmore.calls, hmore.heard, ?_, hmore.writing⟩
    intro q hq
    rcases List.mem_append.1 hq with hq | hq
    · exact hmore.queued q hq
    · exact ⟨(r, d), by simp, List.mem_singleton.1 hq⟩

end Session
end ScriptService
