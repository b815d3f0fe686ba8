import ScriptService.Bus.Client
import ScriptService.Proofs.Bus.Exchange

/-!
# Moves of a client on the in-process bus

A client asks the bus for the next move of its session, lets the session make it, and drops the
connection that the session gave up.

Main statement: `Client.onBus_move`.
-/

namespace ScriptService

open Exchange (Linked noted)

namespace Client

/-- What the bus is asked for the next move of a session. -/
def asks (s : Session) : List MemoryBus.Act :=
  match s.stage with
  | .connecting => [.connect]
  | .registering c => [.addObject c s.object]
  | .serving c => if s.replies.isEmpty && s.linked then [.receive c] else []
  | .writing c q => [.reply c q]
  | _ => []

/-- The connections that a session's events say it dropped. -/
def drops (events : List SessionEvent) : List MemoryBus.Act :=
  events.filterMap fun
    | .dropped c => some (.drop c)
    | _ => none

/-- The notes of a session's act, for which the bus was asked something first. -/
def actNotes (bus : MemoryBus) (asked : List MemoryBus.Act) (s : Session) (a : Session.Act) :
    List Exchange.Note :=
  noted (s.notes a) (MemoryBus.observed.run bus (asked ++ drops (s.act a).1)).2

/-- The notes of a client's step. -/
def moveNotes (client : Client) (now : Nat) : List Exchange.Note :=
  match client.transport, client.session with
  | .memory bus, some s =>
    match nextMove? (.memory bus) now s with
    | some (m, _) => actNotes bus (asks s) s (.move now m)
    | none =>
      if !s.isOver && client.closing.any (· ≤ now) then actNotes bus [] s .abort else []
  | _, _ => []

/-- The client works on the in-process bus, and the invariant holds. -/
def OnBus (name : String) (client : Client) (h : List Exchange.Note) : Prop :=
  ∃ bus, client.transport = .memory bus ∧ Linked name bus client.session h

/-! ## Dropping connections -/

theorem release_memory (bus : MemoryBus) (events : List SessionEvent) :
    release (.memory bus) events = .memory (MemoryBus.observed.run bus (drops events)).1 := by
  unfold release
  induction events generalizing bus with
  | nil => rfl
  | cons e rest ih =>
    cases e with
    | dropped c =>
      have hdrops : drops (.dropped c :: rest) = [.drop c] ++ drops rest := rfl
      rw [hdrops, Observed.run_append, Observed.run_singleton]
      exact ih _
    | _ => exact ih bus

theorem drops_append (events more : List SessionEvent) :
    drops (events ++ more) = drops events ++ drops more :=
  List.filterMap_append

theorem drops_eq_nil {events : List SessionEvent} (h : ∀ c, .dropped c ∉ events) :
    drops events = [] := by
  unfold drops
  rw [List.filterMap_eq_nil_iff]
  intro e he
  cases e with
  | dropped c => exact absurd he (h c)
  | _ => rfl

theorem drops_talk {talk : List SessionEvent} (h : Session.Talk talk) : drops talk = [] := by
  apply drops_eq_nil
  intro c hmem
  rcases h _ hmem with ⟨d, heq⟩ | ⟨e, object, heq⟩
  · cases heq
  · cases heq

section

variable {name : String} {bus : MemoryBus} {h : List Exchange.Note}

theorem calls_le_of_append {ns : List Exchange.Note} {k : Nat}
    (hbound : (Exchange.calls (ns ++ h)).length ≤ k) : (Exchange.calls h).length ≤ k := by
  rw [Exchange.calls, Exchange.busNotes_append, MemoryBus.calls_append,
    List.length_append] at hbound
  unfold Exchange.calls
  omega

/-- An act of the session that makes no connection and hands no call over; the connection that it
gives up, if it gives one up, is dropped. -/
theorem linked_go {s : Session} (hl : Linked name bus (some s) h) (a : Session.Act)
    (hbound : (Exchange.calls (actNotes bus [] s a ++ h)).length ≤ UInt32.size)
    (hqueued : ∀ q, s.sees a ≠ some (.queued q))
    (hhanded : ∀ c r id, s.sees a ≠ some (.handed c r id))
    (hconnected : ∀ c, (s.act a).1 ≠ [.connect (some c)]) :
    Linked name (MemoryBus.observed.run bus (drops (s.act a).1)).1 (some (s.act a).2)
      (actNotes bus [] s a ++ h) := by
  unfold actNotes at hbound ⊢
  rw [List.nil_append] at hbound ⊢
  -- An act makes a connection, or gives one up, or keeps what it holds.
  rcases (s.does a).connection with ⟨c, hevents⟩ | ⟨c, talk, htalk, hevents, hheld, -⟩ |
    ⟨hheld, hnone⟩
  · exact absurd hevents (hconnected c)
  · have hdrops : drops (s.act a).1 = [.drop c] := by
      rw [hevents, drops_append, drops_talk htalk]
      rfl
    rw [hdrops, Observed.run_singleton] at hbound ⊢
    refine hl.leave a ?_ hheld hqueued hhanded
    rw [Exchange.calls_noted] at hbound ⊢
    exact hbound
  · rw [drops_eq_nil hnone] at hbound ⊢
    exact hl.stay a (calls_le_of_append hbound) hqueued hhanded hheld

/-- What the bus is asked keeps the invariant: the owner registers its own object on the connection
that it holds, and writes only what it computed. -/
theorem linked_ask {s : Session} (hl : Linked name bus (some s) h)
    (hbound : (Exchange.calls (noted [] (MemoryBus.observed.run bus (asks s)).2 ++ h)).length ≤
      UInt32.size) :
    Linked name (MemoryBus.observed.run bus (asks s)).1 (some s)
      (noted [] (MemoryBus.observed.run bus (asks s)).2 ++ h) := by
  unfold asks at hbound ⊢
  cases hs : s.stage with
  | connecting =>
    simp only [hs, Observed.run_singleton] at hbound ⊢
    exact hl.bus_act .connect hbound (by simp) (by simp)
  | registering c =>
    simp only [hs, Observed.run_singleton] at hbound ⊢
    refine hl.bus_act (.addObject c s.object) hbound ?_ (by simp)
    intro d spec hm _
    obtain ⟨rfl, rfl⟩ : c = d ∧ s.object = spec := by simpa using hm
    simp [hs, Session.Stage.connection?]
  | serving c =>
    by_cases hidle : (s.replies.isEmpty && s.linked) = true
    · simp only [hs, hidle, if_true, Observed.run_singleton] at hbound ⊢
      exact hl.bus_act (.receive c) hbound (by simp) (by simp)
    · simp only [hidle]
      exact hl
  | writing c q =>
    simp only [hs, Observed.run_singleton] at hbound ⊢
    refine hl.bus_act (.reply c q) hbound (by simp) ?_
    intro d q' hm a ha hid hname
    obtain ⟨rfl, rfl⟩ : c = d ∧ q = q' := by simpa using hm
    have hle := calls_le_of_append hbound
    have hcall := MemoryBus.mem_openCalls.1 ha
    -- A call of the object waits on the connection that is held.
    have hheld := hl.owned.waiting a ha hname
    have howner : c = a.owner := by simpa [hs, Session.Stage.connection?] using hheld
    rcases (hl.answering s rfl).writing c q hs with ⟨r, id, d, hhanded, hd, hq⟩
    rcases hl.accepted hhanded with ⟨b, hb, -, rfl⟩
    -- The call that is answered is the one that was handed over.
    have hsame : b.request.id = a.request.id := by
      rw [hid, hq]
      rfl
    have hab : b = a :=
      MemoryBus.call_eq_of_id_eq (hl.recorded.nodup_callIds hle) hb hcall.1 hsame
    subst hab
    subst howner
    exact ⟨id, d, hhanded, hd, hq⟩
  | stalled c => exact hl
  | pausing deadline => exact hl
  | ended => exact hl

theorem actNotes_append (bus : MemoryBus) (asked : List MemoryBus.Act) (s : Session)
    (a : Session.Act) (h : List Exchange.Note) :
    actNotes bus asked s a ++ h = actNotes (MemoryBus.observed.run bus asked).1 [] s a ++
      (noted [] (MemoryBus.observed.run bus asked).2 ++ h) := by
  simp [actNotes, noted, Observed.run_append]

/-- The bus is asked something, then the session acts as in `linked_go`. -/
theorem linked_asked {s : Session} (hl : Linked name bus (some s) h) (a : Session.Act)
    (hbound : (Exchange.calls (actNotes bus (asks s) s a ++ h)).length ≤ UInt32.size)
    (hqueued : ∀ q, s.sees a ≠ some (.queued q))
    (hhanded : ∀ c r id, s.sees a ≠ some (.handed c r id))
    (hconnected : ∀ c, (s.act a).1 ≠ [.connect (some c)]) :
    Linked name (MemoryBus.observed.run bus (asks s ++ drops (s.act a).1)).1 (some (s.act a).2)
      (actNotes bus (asks s) s a ++ h) := by
  rw [actNotes_append] at hbound ⊢
  rw [Observed.run_append]
  have hasked := linked_ask hl (calls_le_of_append hbound)
  exact linked_go hasked a hbound hqueued hhanded hconnected

/-! ## Moves -/

/-- What a move can be: the session makes a connection or hands a call over in two cases only. -/
inductive MoveOf (bus : MemoryBus) (s : Session) : Session.Move → Prop where
  | connect (hs : s.stage = .connecting) : MoveOf bus s (.connected bus.connect.1)
  | hand (c : ConnectionId) (r : Request) (hs : s.stage = .serving c) (hheard : s.heard = true)
      (hasks : asks s = [.receive c]) (hreceived : (bus.receive c).1 = .call r) :
      MoveOf bus s (.received r)
  | other (m : Session.Move) (hs : s.stage ≠ .connecting)
      (hunheard : ∀ r, m = .received r → s.heard = false) : MoveOf bus s m

theorem run_asks_serving {s : Session} {c : ConnectionId} (hs : s.stage = .serving c) :
    (MemoryBus.observed.run bus (asks s)).1 =
      if s.replies.isEmpty && s.linked then (bus.receive c).2 else bus := by
  unfold asks
  simp only [hs]
  split
  · rw [Observed.run_singleton]
    rfl
  · rfl

/-- A move of a session that is not connecting and takes no call. -/
theorem MoveOf.plain {s : Session} (hs : s.stage ≠ .connecting) {m : Session.Move}
    (hm : ∀ r, m ≠ .received r) : MoveOf bus s m :=
  .other m hs fun r heq => absurd heq (hm r)

/-- The next move of a session that serves: a reply goes first, then the end of the link, and only
then a call. -/
theorem nextMove?_serving {s : Session} {c : ConnectionId} {now : Nat} {m : Session.Move}
    {t : Transport} (hs : s.stage = .serving c)
    (h : nextMove? (.memory bus) now s = some (m, t)) :
    t = .memory (MemoryBus.observed.run bus (asks s)).1 ∧ MoveOf bus s m := by
  unfold nextMove? at h
  rw [run_asks_serving hs]
  have hplain : ∀ {m}, (∀ r, m ≠ .received r) → MoveOf bus s m := MoveOf.plain (by simp [hs])
  simp only [hs, Transport.receive] at h
  by_cases hempty : s.replies.isEmpty = true
  · by_cases hlinked : s.linked = true
    · have hasks : asks s = [.receive c] := by simp [asks, hs, hempty, hlinked]
      simp only [hempty, hlinked, Bool.not_true, Bool.false_eq_true, if_false, Bool.and_self,
        if_true] at h ⊢
      rcases hreceived : bus.receive c with ⟨got, after⟩
      rw [hreceived] at h
      cases got with
      | call r =>
        rcases Option.some.inj h with ⟨rfl, rfl⟩
        refine ⟨rfl, ?_⟩
        -- A call is handed over only if the owner still listens.
        by_cases hheard : s.heard = true
        · exact .hand c r hs hheard hasks (by rw [hreceived])
        · exact .other _ (by simp [hs]) fun _ _ => by simpa using hheard
      | pending => cases h
      | closed =>
        rcases Option.some.inj h with ⟨rfl, rfl⟩
        exact ⟨rfl, hplain (by simp)⟩
      | failed e =>
        rcases Option.some.inj h with ⟨rfl, rfl⟩
        exact ⟨rfl, hplain (by simp)⟩
    · simp only [hempty, hlinked, Bool.not_true, Bool.false_eq_true, if_false, Bool.not_false,
        Bool.and_false, if_true] at h ⊢
      rcases Option.some.inj h with ⟨rfl, rfl⟩
      exact ⟨rfl, hplain (by simp)⟩
  · simp only [hempty, Bool.not_false, Bool.false_eq_true, if_false, Bool.false_and,
      if_true] at h ⊢
    rcases Option.some.inj h with ⟨rfl, rfl⟩
    exact ⟨rfl, hplain (by simp)⟩

theorem nextMove?_memory {s : Session} {now : Nat} {m : Session.Move} {t : Transport}
    (h : nextMove? (.memory bus) now s = some (m, t)) :
    t = .memory (MemoryBus.observed.run bus (asks s)).1 ∧ MoveOf bus s m := by
  cases hs : s.stage with
  | connecting =>
    simp only [nextMove?, hs, Transport.connect, Option.some.injEq, Prod.mk.injEq] at h
    rcases h with ⟨rfl, rfl⟩
    simp only [asks, hs, Observed.run_singleton]
    exact ⟨rfl, .connect hs⟩
  | registering c =>
    simp only [nextMove?, hs, Transport.addObject] at h
    simp only [asks, hs, Observed.run_singleton]
    split at h
    · rename_i heq
      rcases Option.some.inj h with ⟨rfl, rfl⟩
      exact ⟨(Prod.mk.inj heq).2.symm, .plain (by simp [hs]) (by simp)⟩
    · rename_i heq
      rcases Option.some.inj h with ⟨rfl, rfl⟩
      exact ⟨(Prod.mk.inj heq).2.symm, .plain (by simp [hs]) (by simp)⟩
  | serving c => exact nextMove?_serving hs h
  | writing c q =>
    simp only [nextMove?, hs, Transport.write, Option.some.injEq, Prod.mk.injEq] at h
    rcases h with ⟨rfl, rfl⟩
    simp only [asks, hs, Observed.run_singleton]
    exact ⟨rfl, .plain (by simp [hs]) (by simp)⟩
  | stalled c => simp [nextMove?, hs] at h
  | pausing deadline =>
    have hasked : (MemoryBus.observed.run bus (asks s)).1 = bus := by
      simp only [asks, hs]
      rfl
    rw [hasked]
    simp only [nextMove?, hs] at h
    -- Whatever ends the pause or goes on in it, the bus is not asked.
    split at h
    · rcases Option.some.inj h with ⟨rfl, rfl⟩
      exact ⟨rfl, .plain (by simp [hs]) (by simp)⟩
    · split at h
      · rcases Option.some.inj h with ⟨rfl, rfl⟩
        exact ⟨rfl, .plain (by simp [hs]) (by simp)⟩
      · split at h
        · rcases Option.some.inj h with ⟨rfl, rfl⟩
          exact ⟨rfl, .plain (by simp [hs]) (by simp)⟩
        · cases h
  | ended => simp [nextMove?, hs] at h

/-- An ordinary move: the session makes no connection and hands no call over. -/
theorem linked_other {s : Session} (hl : Linked name bus (some s) h) (now : Nat) (m : Session.Move)
    (hs : s.stage ≠ .connecting) (hunheard : ∀ r, m = .received r → s.heard = false)
    (hbound : (Exchange.calls (actNotes bus (asks s) s (.move now m) ++ h)).length ≤ UInt32.size) :
    Linked name (MemoryBus.observed.run bus (asks s ++ drops (s.act (.move now m)).1)).1
      (some (s.act (.move now m)).2) (actNotes bus (asks s) s (.move now m) ++ h) := by
  refine linked_asked hl (.move now m) hbound ?_ ?_ ?_
  · intro q hsees
    cases Session.sees_eq_queued hsees
  · intro c r id hsees
    rcases Session.sees_eq_handed hsees with ⟨-, hheard, now', heq⟩
    rw [hunheard r (Session.Act.move.inj heq).2] at hheard
    cases hheard
  · intro c hevents
    have hnone := Session.connect_not_mem_step hs now m c
    simp only [Session.act] at hevents
    rw [hevents] at hnone
    exact hnone (List.mem_singleton_self _)

/-- The client makes a connection. -/
theorem linked_connect {s : Session} (hl : Linked name bus (some s) h) (now : Nat)
    (hs : s.stage = .connecting)
    (hbound : (Exchange.calls (actNotes bus (asks s) s (.move now (.connected bus.connect.1)) ++
      h)).length ≤ UInt32.size) :
    Linked name (MemoryBus.observed.run bus (asks s ++
        drops (s.act (.move now (.connected bus.connect.1))).1)).1
      (some (s.act (.move now (.connected bus.connect.1))).2)
      (actNotes bus (asks s) s (.move now (.connected bus.connect.1)) ++ h) := by
  have hdrops : drops (s.act (.move now (.connected bus.connect.1))).1 = [] := by
    simp [Session.act, Session.step, hs, drops]
  rw [actNotes_append] at hbound ⊢
  rw [Observed.run_append]
  have hasked := linked_ask hl (calls_le_of_append hbound)
  have howned := hasked.owned
  rw [Option.bind_some, hs] at howned
  unfold actNotes at hbound ⊢
  rw [List.nil_append, hdrops] at hbound ⊢
  refine hasked.session_act _ (calls_le_of_append hbound) ?_ ?_ (howned.take _)
  · simp [Session.sees, hs]
  · simp [Session.sees, hs]

/-- The client takes a call, which is handed over. -/
theorem linked_hand {s : Session} (hl : Linked name bus (some s) h) (now : Nat) {c : ConnectionId}
    {r : Request} (hs : s.stage = .serving c) (hheard : s.heard = true)
    (hasks : asks s = [.receive c]) (hreceived : (bus.receive c).1 = .call r)
    (hbound : (Exchange.calls (actNotes bus (asks s) s (.move now (.received r)) ++ h)).length ≤
      UInt32.size) :
    Linked name (MemoryBus.observed.run bus (asks s ++ drops (s.act (.move now (.received r))).1)).1
      (some (s.act (.move now (.received r))).2)
      (actNotes bus (asks s) s (.move now (.received r)) ++ h) := by
  have hdrops : drops (s.act (.move now (.received r))).1 = [] := by
    simp [Session.act, Session.step, hs, hheard, drops]
  unfold actNotes at hbound ⊢
  rw [hasks, hdrops, List.append_nil, Observed.run_singleton] at hbound ⊢
  refine hl.hand now hs hheard hreceived ?_
  rw [Exchange.calls_noted] at hbound ⊢
  exact hbound

theorem linked_moveOf {s : Session} (hl : Linked name bus (some s) h) (now : Nat) {m : Session.Move}
    (hm : MoveOf bus s m)
    (hbound : (Exchange.calls (actNotes bus (asks s) s (.move now m) ++ h)).length ≤ UInt32.size) :
    Linked name (MemoryBus.observed.run bus (asks s ++ drops (s.act (.move now m)).1)).1
      (some (s.act (.move now m)).2) (actNotes bus (asks s) s (.move now m) ++ h) := by
  cases hm with
  | connect hs => exact linked_connect hl now hs hbound
  | hand c r hs hheard hasks hreceived => exact linked_hand hl now hs hheard hasks hreceived hbound
  | other m hs hunheard => exact linked_other hl now m hs hunheard hbound

/-- The client ends its session by force. -/
theorem onBus_abort {client : Client} (hbus : client.transport = .memory bus) {s : Session}
    (hsession : client.session = some s) (hl : Linked name bus (some s) h) (now : Nat)
    (hover : s.isOver = false)
    (hbound : (Exchange.calls (actNotes bus [] s .abort ++ h)).length ≤ UInt32.size) :
    OnBus name (client.abort now) (actNotes bus [] s .abort ++ h) := by
  have hconnected : ∀ c, (s.act .abort).1 ≠ [.connect (some c)] := by
    intro c
    simp only [Session.act, Session.abort]
    split
    · simp
    · simp
  have hgone := linked_go hl .abort hbound
    (fun q hsees => by cases Session.sees_eq_queued hsees)
    (fun c r id hsees => by
      rcases Session.sees_eq_handed hsees with ⟨-, -, now', heq⟩
      cases heq) hconnected
  have habort : client.abort now =
      { client.record now s.abort.1 s.abort.2 with closing := none } := by
    unfold abort
    simp [hsession, hover]
  rw [habort]
  refine ⟨_, ?_, hgone⟩
  simp only [record, hbus, release_memory]
  rfl

/-- A move of the client keeps the invariant. -/
theorem onBus_move {client : Client} (ho : OnBus name client h) (now : Nat)
    (hbound : (Exchange.calls (client.moveNotes now ++ h)).length ≤ UInt32.size) :
    OnBus name ((client.step now).getD client) (client.moveNotes now ++ h) := by
  rcases ho with ⟨bus, ht, hl⟩
  have hkept : OnBus name client h := ⟨bus, ht, hl⟩
  unfold moveNotes at hbound ⊢
  unfold Client.step
  cases hs : client.session with
  | none =>
    simp only [ht]
    exact hkept
  | some s =>
    rw [hs] at hl
    simp only [ht, hs] at hbound ⊢
    cases hmove : nextMove? (.memory bus) now s with
    | some next =>
      rcases next with ⟨m, t⟩
      rcases nextMove?_memory hmove with ⟨rfl, hm⟩
      simp only [hmove] at hbound ⊢
      have hlinked := linked_moveOf hl now hm hbound
      refine ⟨_, ?_, hlinked⟩
      simp only [Option.getD_some, record, release_memory, Observed.run_append]
      rfl
    | none =>
      simp only [hmove] at hbound ⊢
      by_cases hdue : (!s.isOver && client.closing.any (· ≤ now)) = true
      · rw [if_pos hdue] at hbound ⊢
        rw [if_pos hdue, Option.getD_some]
        have hover : s.isOver = false := by
          rw [Bool.and_eq_true] at hdue
          simpa using hdue.1
        have hnoted : Client.transport
            { client with trace := client.trace ++ [Stamped.mk now Session.overdue] } =
              .memory bus := ht
        exact onBus_abort hnoted hs hl now hover hbound
      · rw [if_neg hdue] at hbound ⊢
        rw [if_neg hdue]
        exact hkept

end

end Client
end ScriptService
