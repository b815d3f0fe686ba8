import ScriptService.Proofs.Session.Ledger

/-!
# Closing a session

A session takes the calls that arrive and the replies of its owner in turn, so the calls that it is
done with come before those whose replies are queued, and these before those that wait for the
owner. When the link is closed it takes no more calls, and ends once it has written what is queued:
then every call that was dispatched is answered, unless its connection was lost.

Main statements: `Session.Punctual.deals` and `Session.Closing.deals`.
-/

namespace ScriptService.Session

/-! ## What a history says -/

/-- The connection on which something arrives, is written or breaks off. -/
def Fact.on? : Fact → Option ConnectionId
  | .received c _ => some c
  | .written c _ => some c
  | .lost c => some c
  | _ => none

/-- Whether a call is read from the bus or handed to the owner. -/
def Fact.forwards : Fact → Bool
  | .received _ _ => true
  | .told (.call _) => true
  | _ => false

/-- What holds of a fact and what happened before it. -/
structure Timely (f : Fact) (past : List Fact) : Prop where
  /-- No call is forwarded once the link is closed. -/
  punctual : f.forwards = true → .unlinked ∉ past
  /-- What is read or written goes over the connection that was made last and is not dropped. -/
  addressed : ∀ c, f.on? = some c → (ledger past).made.head? = some c ∧ openConnections past = [c]

/-- Every call that was dispatched is answered. -/
structure Answered (l : Ledger) (ds : List (Request × Dispatch)) : Prop where
  /-- Calls are dispatched in the order in which they arrive. -/
  order : ds.map (·.1) <+: l.arrivals.map Arrival.told
  /-- Unless a connection is lost, it carries the replies to the calls that came on it and were
  dispatched, in the order of their dispatch, and no others. -/
  answered : ∀ k, k ∉ l.lost → l.writtenTo k = answersOn k l.arrivals ds

/-! ## Calls on their way -/

/-- What is due on the connection that is served, and what was written to it. -/
def Stage.Keeps : Stage → List Reply → List Reply → Prop
  | .serving _, due, written => due = written
  | .writing _ q, due, written => due = written ++ [q]
  | _, _, _ => True

/-- The calls that a session is done with, and those on their way: replies are queued for the first
of them, and the others wait for the owner. -/
structure Queues (s : Session) (l : Ledger) (done todo : List Arrival)
    (given queued : List (Request × Dispatch)) : Prop where
  arrivals : l.arrivals = done ++ todo
  dispatched : given.map (·.1) = done.map Arrival.told
  waiting : queued.map (·.1) ++ waitingCalls s.events = todo.map Arrival.told
  replies : s.replies = queued.map fun p => p.2.toReply p.1.id
  /-- The numbers of calls on their way tell them apart. -/
  room : todo.length ≤ UInt32.size
  calls : s.inFlight = if s.stage.serves then openCalls l.latest todo else []
  keeps : s.stage.Keeps (answersOn l.latest done given) (l.writtenTo l.latest)

/-- What a session that goes on owes to the calls that were dispatched. -/
structure Owed (s : Session) (l : Ledger) (ds : List (Request × Dispatch)) : Prop where
  next : s.nextId = UInt32.ofNat l.arrivals.length
  /-- Nothing is owed on a connection that is not served. -/
  settled : ∀ k, (s.stage.serves = true → k ≠ l.latest) → k ∈ l.lost ∨ l.Unused k
  fresh : ∀ c, s.stage = .registering c → l.Unused l.latest
  queues : ∃ done todo given queued, ds = given ++ queued ∧ Queues s l done todo given queued

section

variable {s t : Session} {l l' : Ledger} {done todo : List Arrival}
  {ds given queued : List (Request × Dispatch)}

theorem owed_init (object : ObjectSpec) (retry : Nat) :
    Owed { object := object, retry := retry } {} [] where
  next := rfl
  settled := fun _ _ => Or.inr ⟨nofun, rfl⟩
  fresh := nofun
  queues := ⟨[], [], [], [], rfl, rfl, rfl, rfl, rfl, Nat.zero_le _, rfl, trivial⟩

theorem Queues.length_eq (hq : Queues s l done todo given queued) : done.length = given.length := by
  have hlength := congrArg List.length hq.dispatched
  rw [List.length_map, List.length_map] at hlength
  exact hlength.symm

/-- A session that serves no connection keeps no calls open. -/
theorem Owed.inFlight_nil (ho : Owed s l ds) (hserves : s.stage.serves = false) :
    s.inFlight = [] := by
  obtain ⟨done, todo, given, queued, -, hq⟩ := ho.queues
  rw [hq.calls, hserves]
  rfl

/-- A connection that is not served keeps nothing back. -/
theorem keeps_of_not_serves {stage : Stage} (hserves : stage.serves = false)
    (due written : List Reply) : stage.Keeps due written := by
  cases stage with
  | serving c => cases hserves
  | writing c q => cases hserves
  | _ => trivial

/-- Without a connection that is served, the calls on their way stay as they are. -/
theorem Owed.unserved (ho : Owed s l ds) (harrivals : l'.arrivals = l.arrivals)
    (hnext : t.nextId = s.nextId) (hevents : waitingCalls t.events = waitingCalls s.events)
    (hreplies : t.replies = s.replies) (hserves : t.stage.serves = false)
    (hcalls : t.inFlight = []) (hsettled : ∀ k, k ∈ l'.lost ∨ l'.Unused k)
    (hfresh : ∀ c, t.stage = .registering c → l'.Unused l'.latest) : Owed t l' ds := by
  obtain ⟨done, todo, given, queued, hds, hq⟩ := ho.queues
  refine ⟨?_, fun k _ => hsettled k, hfresh, done, todo, given, queued, hds, ?_⟩
  · rw [hnext, harrivals]
    exact ho.next
  · refine ⟨harrivals.trans hq.arrivals, hq.dispatched, ?_, hreplies.trans hq.replies, hq.room, ?_,
      keeps_of_not_serves hserves _ _⟩
    · rw [hevents]
      exact hq.waiting
    · rw [hserves]
      exact hcalls

/-! ### Replies -/

/-- The reply that is taken is that to the first call on its way. -/
theorem Queues.head {q : Reply} {rest : List Reply} (hq : Queues s l done todo given queued)
    (hreplies : s.replies = q :: rest) :
    ∃ a more p behind, todo = a :: more ∧ queued = p :: behind ∧ p.1 = a.told ∧
      q = p.2.toReply a.id ∧ rest = behind.map fun p => p.2.toReply p.1.id := by
  have hqueue := hreplies.symm.trans hq.replies
  have hwaiting := hq.waiting
  cases queued with
  | nil => cases hqueue
  | cons p behind =>
    cases todo with
    | nil => cases hwaiting
    | cons a more =>
      obtain ⟨hhead, hrest⟩ := List.cons.inj hqueue
      have htold : p.1 = a.told := (List.cons.inj hwaiting).1
      refine ⟨a, more, p, behind, rfl, rfl, htold, ?_, hrest⟩
      rw [hhead]
      show p.2.toReply p.1.id = p.2.toReply a.id
      rw [htold]
      rfl

/-- A reply leaves the queue: its call is done with. -/
theorem Queues.take {a : Arrival} {p : Request × Dispatch}
    (hq : Queues s l done (a :: todo) given (p :: queued)) (hevents : t.events = s.events)
    (hreplies : t.replies = queued.map fun p => p.2.toReply p.1.id)
    (hcalls : t.inFlight = if t.stage.serves then openCalls l.latest todo else [])
    (hkeeps : t.stage.Keeps (answersOn l.latest done given ++
      if a.connection = l.latest then [p.2.toReply a.request.id] else []) (l.writtenTo l.latest)) :
    Queues t l (done ++ [a]) todo (given ++ [p]) queued := by
  obtain ⟨htold, hwaiting⟩ := List.cons.inj hq.waiting
  refine ⟨?_, ?_, ?_, hreplies, Nat.le_of_succ_le hq.room, hcalls, ?_⟩
  · rw [hq.arrivals, List.append_assoc]
    rfl
  · rw [List.map_append, List.map_append, hq.dispatched]
    exact congrArg (_ ++ [·]) htold
  · rw [hevents]
    exact hwaiting
  · rw [answersOn_append hq.length_eq]
    exact hkeeps

theorem Owed.passed (ho : Owed s l ds) (hl : l.Sound) {c : ConnectionId} {q : Reply}
    {rest : List Reply} (hs : s.stage = .serving c) (hreplies : s.replies = q :: rest)
    (hcall : List.lookup q.id s.inFlight = none) : Owed { s with replies := rest } l ds := by
  obtain ⟨done, todo, given, queued, rfl, hq⟩ := ho.queues
  obtain ⟨a, more, p, behind, rfl, rfl, -, rfl, hrest⟩ := hq.head hreplies
  have hnodup := hl.nodup hq.arrivals hq.room
  have hcalls : s.inFlight = openCalls l.latest (a :: more) := by
    rw [hq.calls, hs]
    rfl
  have hother : a.connection ≠ l.latest := by
    intro hsame
    rw [hcalls, show (p.2.toReply a.id).id = a.id from rfl, lookup_openCalls hnodup,
      if_pos hsame] at hcall
    cases hcall
  have hkeeps := hq.keeps
  refine ⟨ho.next, ho.settled, ho.fresh, done ++ [a], more, given ++ [p], behind, by simp, ?_⟩
  refine hq.take rfl hrest ?_ ?_
  · show s.inFlight = if s.stage.serves then openCalls l.latest more else []
    rw [hcalls, openCalls_cons, if_neg hother, List.append_nil, hs]
    rfl
  · rw [if_neg hother, List.append_nil]
    exact hkeeps

theorem Owed.taken (ho : Owed s l ds) (hl : l.Sound) {c : ConnectionId} {q : Reply}
    {rest : List Reply} {bus : RequestId} (hs : s.stage = .serving c)
    (hreplies : s.replies = q :: rest) (hcall : List.lookup q.id s.inFlight = some bus) :
    Owed
      { s with
        replies := rest
        inFlight := s.inFlight.filter fun p => p.1 != q.id
        stage := .writing c { q with id := bus } } l ds := by
  obtain ⟨done, todo, given, queued, rfl, hq⟩ := ho.queues
  obtain ⟨a, more, p, behind, rfl, rfl, -, rfl, hrest⟩ := hq.head hreplies
  have hnodup := hl.nodup hq.arrivals hq.room
  have hcalls : s.inFlight = openCalls l.latest (a :: more) := by
    rw [hq.calls, hs]
    rfl
  rw [hcalls, show (p.2.toReply a.id).id = a.id from rfl, lookup_openCalls hnodup] at hcall
  have hsame : a.connection = l.latest := by
    by_contra hother
    rw [if_neg hother] at hcall
    cases hcall
  rw [if_pos hsame] at hcall
  cases hcall
  have hkeeps := hq.keeps
  rw [hs] at hkeeps
  have hserves : s.stage.serves = true := by rw [hs]; rfl
  refine ⟨ho.next, fun k hk => ho.settled k fun _ => hk rfl, nofun, done ++ [a], more, given ++ [p],
    behind, by simp, ?_⟩
  refine hq.take rfl hrest ?_ ?_
  · rw [hcalls]
    exact filter_openCalls_cons hnodup
  · rw [if_pos hsame]
    exact congrArg (· ++ [p.2.toReply a.request.id]) hkeeps

theorem Owed.discarded (ho : Owed s l ds) {deadline : Nat} {q : Reply} {rest : List Reply}
    (hs : s.stage = .pausing deadline) (hreplies : s.replies = q :: rest) :
    Owed { s with replies := rest } l ds := by
  have hnone : s.inFlight = [] := ho.inFlight_nil (by rw [hs]; rfl)
  obtain ⟨done, todo, given, queued, rfl, hq⟩ := ho.queues
  obtain ⟨a, more, p, behind, rfl, rfl, -, rfl, hrest⟩ := hq.head hreplies
  refine ⟨ho.next, ho.settled, ho.fresh, done ++ [a], more, given ++ [p], behind, by simp, ?_⟩
  refine hq.take rfl hrest ?_ ?_
  · show s.inFlight = if s.stage.serves then openCalls l.latest more else []
    rw [hnone, hs]
    rfl
  · show s.stage.Keeps _ _
    rw [hs]
    trivial

/-! ### Connections -/

theorem Owed.made (ho : Owed s l ds) (hl : l.Sound) (hs : s.stage = .connecting)
    (c : ConnectionId) : Owed { s with stage := .registering c } (l.note (.made c)) ds := by
  have hserves : s.stage.serves = false := by rw [hs]; rfl
  refine ho.unserved rfl rfl rfl rfl rfl (ho.inFlight_nil hserves) ?_ fun _ _ => hl.unused c
  intro k
  exact ho.settled k fun h => absurd (hserves.symm.trans h) (by simp)

theorem Owed.registered (ho : Owed s l ds) {c : ConnectionId} (hs : s.stage = .registering c) :
    Owed { s with stage := .serving c, events := s.events ++ [.connected] } l ds := by
  have hserves : s.stage.serves = false := by rw [hs]; rfl
  have hnone := ho.inFlight_nil hserves
  have hfresh := ho.fresh c hs
  obtain ⟨done, todo, given, queued, rfl, hq⟩ := ho.queues
  -- No call came on the connection yet.
  have hunused : ∀ a ∈ done ++ todo, a.connection ≠ l.latest := by
    rw [← hq.arrivals]
    exact hfresh.1
  refine ⟨ho.next, ?_, nofun, done, todo, given, queued, rfl, ?_⟩
  · intro k _
    exact ho.settled k fun h => absurd (hserves.symm.trans h) (by simp)
  · refine ⟨hq.arrivals, hq.dispatched, ?_, hq.replies, hq.room, ?_, ?_⟩
    · rw [show waitingCalls (s.events ++ [.connected]) = waitingCalls s.events by
        simp [waitingCalls]]
      exact hq.waiting
    · show s.inFlight = openCalls l.latest todo
      rw [hnone, openCalls_eq_nil fun a ha => hunused a (List.mem_append_right _ ha)]
    · show answersOn l.latest done given = l.writtenTo l.latest
      rw [hfresh.2, answersOn_eq_nil fun a ha => hunused a (List.mem_append_left _ ha)]

/-- A call arrives only when no reply is queued: then all calls on their way wait for the owner. -/
theorem Owed.received (ho : Owed s l ds) (hl : l.Sound) {c : ConnectionId}
    (hs : s.stage = .serving c) (hreplies : s.replies = []) (r : Request)
    (hroom : (l.note (.received c r)).arrivals.length ≤ ds.length + UInt32.size) :
    Owed (s.forward r) (l.note (.received c r)) ds := by
  have hl' := hl.note (.received c r)
  obtain ⟨done, todo, given, queued, rfl, hq⟩ := ho.queues
  obtain rfl : queued = [] := by
    rw [← List.map_eq_nil_iff, ← hq.replies]
    exact hreplies
  have hserves : s.stage.serves = true := by rw [hs]; rfl
  have hkeeps := hq.keeps
  have hcalls := hq.calls
  rw [hserves, if_pos rfl] at hcalls
  have harrivals : (l.note (.received c r)).arrivals =
      done ++ (todo ++ [⟨l.latest, r, s.nextId⟩]) := by
    show l.arrivals ++ [⟨l.latest, r, UInt32.ofNat l.arrivals.length⟩] = _
    rw [ho.next, hq.arrivals, List.append_assoc]
  have hmore : (todo ++ [(⟨l.latest, r, s.nextId⟩ : Arrival)]).length ≤ UInt32.size := by
    rw [harrivals, List.length_append, hq.length_eq, List.append_nil] at hroom
    exact Nat.le_of_add_le_add_left hroom
  -- The new number is not among those of the calls on their way.
  have hnew : s.nextId ∉ todo.map (·.id) := by
    have hnodup := hl'.nodup harrivals hmore
    rw [List.map_append, List.nodup_append] at hnodup
    intro hmem
    exact hnodup.2.2 _ hmem _ (by simp) rfl
  refine ⟨?_, ?_, ?_, done, todo ++ [⟨l.latest, r, s.nextId⟩], given, [], rfl, ?_⟩
  · show s.nextId + 1 = UInt32.ofNat (l.note (.received c r)).arrivals.length
    rw [show (l.note (.received c r)).arrivals.length = l.arrivals.length + 1 from
      List.length_append, ho.next]
    simp
  · -- The call came on the connection that is served.
    intro k hk
    rcases ho.settled k fun _ => hk hserves with hlost | hunused
    · exact Or.inl hlost
    · refine Or.inr ⟨?_, hunused.2⟩
      intro a ha
      rcases List.mem_append.1 ha with ha | ha
      · exact hunused.1 a ha
      · rw [List.mem_singleton.1 ha]
        exact (hk hserves).symm
  · intro d hd
    exact absurd (hs.symm.trans hd) (by simp)
  · refine ⟨harrivals, hq.dispatched, ?_, hq.replies, hmore, ?_, hkeeps⟩
    · have hevents : waitingCalls (s.forward r).events =
          waitingCalls s.events ++ [{ r with id := s.nextId }] := by
        simp [Session.forward, waitingCalls]
      rw [hevents, ← List.append_assoc, hq.waiting, List.map_append]
      rfl
    · show (s.nextId, r.id) :: s.inFlight.filter (fun p => p.1 != s.nextId) =
        if s.stage.serves then openCalls l.latest (todo ++ [⟨l.latest, r, s.nextId⟩]) else []
      rw [hserves, if_pos rfl, openCalls_append, hcalls, filter_openCalls hnew]

theorem Owed.written (ho : Owed s l ds) {c : ConnectionId} {q : Reply}
    (hs : s.stage = .writing c q) :
    Owed { s with stage := .serving c } (l.note (.written c q)) ds := by
  have hserves : s.stage.serves = true := by rw [hs]; rfl
  have hwritten : ∀ k, (l.note (.written c q)).writtenTo k =
      l.writtenTo k ++ if k = l.latest then [q] else [] := by
    intro k
    show ((l.written ++ [(l.latest, q)]).filter fun p => p.1 == k).map (·.2) = _
    rw [List.filter_append, List.map_append]
    by_cases hk : k = l.latest
    · simp [hk, Ledger.writtenTo]
    · simp [hk, Ne.symm hk, Ledger.writtenTo]
  obtain ⟨done, todo, given, queued, rfl, hq⟩ := ho.queues
  have hcalls := hq.calls
  rw [hserves] at hcalls
  have hkeeps := hq.keeps
  rw [hs] at hkeeps
  refine ⟨ho.next, ?_, nofun, done, todo, given, queued, rfl, ?_⟩
  · intro k hk
    have hother : k ≠ l.latest := hk rfl
    rcases ho.settled k fun _ => hother with hlost | hunused
    · exact Or.inl hlost
    · refine Or.inr ⟨hunused.1, ?_⟩
      rw [hwritten, if_neg hother, List.append_nil]
      exact hunused.2
  · refine ⟨hq.arrivals, hq.dispatched, hq.waiting, hq.replies, hq.room, hcalls, ?_⟩
    show answersOn l.latest done given = (l.note (.written c q)).writtenTo l.latest
    rw [hwritten, if_pos rfl]
    exact hkeeps

/-- A reply that does not arrive is still counted as due, but not kept. -/
theorem Owed.stalled (ho : Owed s l ds) {c : ConnectionId} {q : Reply}
    (hs : s.stage = .writing c q) : Owed { s with stage := .stalled c } l ds := by
  have hserves : s.stage.serves = true := by rw [hs]; rfl
  obtain ⟨done, todo, given, queued, rfl, hq⟩ := ho.queues
  have hcalls := hq.calls
  rw [hserves] at hcalls
  refine ⟨ho.next, fun k hk => ho.settled k fun _ => hk rfl, nofun, done, todo, given, queued, rfl,
    ?_⟩
  exact ⟨hq.arrivals, hq.dispatched, hq.waiting, hq.replies, hq.room, hcalls, trivial⟩

theorem Owed.lost (ho : Owed s l ds) (c : ConnectionId) (deadline : Nat) :
    Owed
      { s with
        inFlight := []
        stage := .pausing deadline
        events := s.events ++ [.disconnected] } (l.note (.lost c)) ds := by
  refine ho.unserved rfl rfl ?_ rfl rfl rfl ?_ nofun
  · simp [waitingCalls]
  · intro k
    by_cases hk : k = l.latest
    · exact Or.inl (List.mem_cons.2 (Or.inl hk))
    · rcases ho.settled k fun _ => hk with hlost | hunused
      · exact Or.inl (List.mem_cons_of_mem _ hlost)
      · exact Or.inr hunused

/-! ### The owner -/

/-- The owner takes a call, dispatches it and queues the reply. -/
theorem Owed.dispatch (ho : Owed s l ds) (hover : s.isOver = false) {q : Request}
    {rest : List BusEvent} (hevents : s.events = .call q :: rest) (d : Dispatch) :
    Owed (({ s with events := rest } : Session).reply (d.toReply q.id)).2 l (ds ++ [(q, d)]) := by
  obtain ⟨done, todo, given, queued, rfl, hq⟩ := ho.queues
  have hreply : (({ s with events := rest } : Session).reply (d.toReply q.id)).2 =
      { s with events := rest, replies := s.replies ++ [d.toReply q.id] } := by
    have hsame : ({ s with events := rest } : Session).isOver = false := hover
    simp [reply, hsame]
  have hcalls := hq.calls
  have hkeeps := hq.keeps
  have hwaiting := hq.waiting
  rw [hreply]
  refine ⟨ho.next, ho.settled, ho.fresh, done, todo, given, queued ++ [(q, d)],
    List.append_assoc _ _ _, ?_⟩
  refine ⟨hq.arrivals, hq.dispatched, ?_, ?_, hq.room, hcalls, hkeeps⟩
  · rw [hevents] at hwaiting
    rw [← hwaiting, List.map_append, List.append_assoc]
    rfl
  · show s.replies ++ [d.toReply q.id] = _
    rw [hq.replies, List.map_append]
    rfl

/-- What the owner does else: calls stay on their way. -/
theorem Owed.same (ho : Owed s l ds) (hstage : t.stage = s.stage) (hnext : t.nextId = s.nextId)
    (hevents : waitingCalls t.events = waitingCalls s.events) (hreplies : t.replies = s.replies)
    (hcalls : t.inFlight = s.inFlight) : Owed t l ds := by
  obtain ⟨done, todo, given, queued, rfl, hq⟩ := ho.queues
  refine ⟨hnext.trans ho.next, ?_, ?_, done, todo, given, queued, rfl, ?_⟩
  · rw [hstage]
    exact ho.settled
  · rw [hstage]
    exact ho.fresh
  · refine ⟨hq.arrivals, hq.dispatched, ?_, hreplies.trans hq.replies, hq.room, ?_, ?_⟩
    · rw [hevents]
      exact hq.waiting
    · rw [hcalls, hstage]
      exact hq.calls
    · rw [hstage]
      exact hq.keeps

/-! ### The end -/

/-- A session that may end owes nothing. -/
theorem Owed.answered (ho : Owed s l ds) (hreplies : s.replies = [])
    (hs : (∃ c, s.stage = .serving c) ∨ s.stage.serves = false) : Answered l ds := by
  obtain ⟨done, todo, given, queued, rfl, hq⟩ := ho.queues
  obtain rfl : queued = [] := by
    rw [← List.map_eq_nil_iff, ← hq.replies]
    exact hreplies
  rw [List.append_nil]
  constructor
  · rw [hq.dispatched, hq.arrivals, List.map_append]
    exact List.prefix_append _ _
  · intro k hk
    rw [hq.arrivals, answersOn_append_left hq.length_eq]
    by_cases hserved : s.stage.serves = true ∧ k = l.latest
    · obtain ⟨hserves, rfl⟩ := hserved
      rcases hs with ⟨c, hs⟩ | hs
      · have hkeeps := hq.keeps
        rw [hs] at hkeeps
        exact hkeeps.symm
      · exact absurd (hs.symm.trans hserves) (by simp)
    · rcases ho.settled k fun hserves hlatest => hserved ⟨hserves, hlatest⟩ with hlost | hunused
      · exact absurd hlost hk
      · have hnone : ∀ a ∈ done, a.connection ≠ k := by
          intro a ha
          apply hunused.1
          rw [hq.arrivals]
          exact List.mem_append_left _ ha
        rw [hunused.2, answersOn_eq_nil hnone]

end

/-! ## Steps -/

section

variable {s t : Session} {a : Act} {m : Move} {now : Nat} {ns h : List Fact}
  {ds : List (Request × Dispatch)}

/-- The connection that is held was made last. -/
theorem Tells.held (htells : Tells s a ns t)
    (hheld : ∀ c, s.stage.connection? = some c → (ledger h).made.head? = some c) :
    ∀ c, t.stage.connection? = some c → (ledger (ns ++ h)).made.head? = some c := by
  -- A connection that goes on is held as before.
  have hkept : ∀ {c : ConnectionId}, s.stage.connection? = some c →
      ∀ d, some c = some d → (ledger h).made.head? = some d := by
    intro c hc d hd
    obtain rfl := Option.some.inj hd
    exact hheld c hc
  cases htells with
  | unreached now hs => nofun
  | made now c hs =>
    intro d hd
    exact hd
  | registered now c hs _ => exact hkept (by rw [hs]; rfl)
  | refused now c e hs => nofun
  | taken now c q rest bus hs _ _ => exact hkept (by rw [hs]; rfl)
  | written now c q hs => exact hkept (by rw [hs]; rfl)
  | stalled now c q hs => exact hkept (by rw [hs]; rfl)
  | lost now m c _ _ => nofun
  | closed now c hs => nofun
  | unheard now m c f _ _ => nofun
  | resumed now deadline hs => nofun
  | ended now deadline hs => nofun
  | withdrawn c hs =>
    rw [(abort_left s).1]
    nofun
  | aborted hs =>
    rw [(abort_left s).1]
    nofun
  | _ => exact hheld

/-- The link stays closed. -/
theorem Tells.link (htells : Tells s a ns t) (hunlinked : .unlinked ∈ h → s.linked = false) :
    .unlinked ∈ ns ++ h → t.linked = false := by
  have haborted : s.abort.2.linked = false := by
    unfold abort
    split <;> rfl
  cases htells with
  | unlinked => exact fun _ => rfl
  | withdrawn c hs => exact fun _ => haborted
  | aborted hs => exact fun _ => haborted
  | unheard now m c f _ hs =>
    rcases hs with ⟨-, rfl⟩ | ⟨-, ⟨r, rfl⟩ | rfl⟩
    · simpa using hunlinked
    · simpa using hunlinked
    · simpa using hunlinked
  | unreached now hs => simpa [pause] using hunlinked
  | refused now c e hs => simpa [pause] using hunlinked
  | received now c r hs _ => simpa [forward] using hunlinked
  | ignored => simpa [ignore] using hunlinked
  | _ => simpa using hunlinked

/-- A fact that is no call and belongs to no connection that is served is timely at any time. -/
theorem timely_of_quiet {f : Fact} (hforwards : f.forwards = false) (hon : f.on? = none)
    (past : List Fact) : Timely f past := by
  refine ⟨fun h => absurd (hforwards.symm.trans h) (by simp), ?_⟩
  intro c hc
  exact absurd (hon.symm.trans hc) (by simp)

theorem Tells.timely (htells : Tells s (.move now m) ns t) (hpermits : s.Permits m)
    (hheard : s.heard = true) (hunlinked : .unlinked ∈ h → s.linked = false)
    (hheld : ∀ c, s.stage.connection? = some c →
      (ledger h).made.head? = some c ∧ openConnections h = [c])
    (hh : Throughout Timely h) : Throughout Timely (ns ++ h) := by
  -- What happens on the connection that is held.
  have hon : ∀ {f : Fact} {c : ConnectionId}, s.stage.connection? = some c → f.on? = some c →
      f.forwards = false → Timely f h := by
    intro f c hc hf hforwards
    refine ⟨fun h => absurd (hforwards.symm.trans h) (by simp), ?_⟩
    intro d hd
    obtain rfl := Option.some.inj (hf.symm.trans hd)
    exact hheld _ hc
  cases htells with
  | idle => exact hh
  | unreached now hs => exact throughout_cons.2 ⟨timely_of_quiet rfl rfl _, hh⟩
  | made now c hs => exact throughout_cons.2 ⟨timely_of_quiet rfl rfl _, hh⟩
  | registered now c hs _ =>
    refine throughout_cons.2 ⟨timely_of_quiet rfl rfl _, ?_⟩
    exact throughout_cons.2 ⟨timely_of_quiet rfl rfl _, hh⟩
  | refused now c e hs =>
    refine throughout_cons.2 ⟨timely_of_quiet rfl rfl _, ?_⟩
    exact throughout_cons.2 ⟨timely_of_quiet rfl rfl _, hh⟩
  | received now c r hs _ =>
    have hopen : .unlinked ∉ h := by
      intro hmem
      exact absurd (hpermits.2.symm.trans (hunlinked hmem)) (by simp)
    refine throughout_cons.2 ⟨⟨fun _ => by simpa using hopen, nofun⟩, ?_⟩
    refine throughout_cons.2 ⟨⟨fun _ => hopen, ?_⟩, hh⟩
    intro d hd
    obtain rfl : c = d := Option.some.inj hd
    exact hheld c (by rw [hs]; rfl)
  | passed now c q rest hs _ _ => exact hh
  | taken now c q rest bus hs _ _ => exact hh
  | written now c q hs =>
    exact throughout_cons.2 ⟨hon (by rw [hs]; rfl) rfl rfl, hh⟩
  | stalled now c q hs => exact hh
  | lost now m c hs _ =>
    refine throughout_cons.2 ⟨timely_of_quiet rfl rfl _, ?_⟩
    refine throughout_cons.2 ⟨timely_of_quiet rfl rfl _, ?_⟩
    exact throughout_cons.2 ⟨hon hs.1 rfl rfl, hh⟩
  | closed now c hs => exact throughout_cons.2 ⟨timely_of_quiet rfl rfl _, hh⟩
  | unheard now m c f hdeaf _ => exact absurd (hheard.symm.trans hdeaf) (by simp)
  | discarded now deadline q rest hs _ => exact hh
  | resumed now deadline hs => exact hh
  | ended now deadline hs => exact hh

/-- A move keeps what is owed, or ends a session that owes nothing. -/
theorem Owed.move (ho : Owed s (ledger h) ds) (htells : Tells s (.move now m) ns t)
    (hover : s.isOver = false) (hheard : s.heard = true) (hpermits : s.Permits m)
    (hroom : (ledger (ns ++ h)).arrivals.length ≤ ds.length + UInt32.size) :
    t.isOver = false ∧ Owed t (ledger (ns ++ h)) ds ∨
      t.isOver = true ∧ Answered (ledger (ns ++ h)) ds := by
  have hl := sound_ledger h
  -- Between two connections nothing is open, and nothing is owed on any of them.
  have hnone : s.stage.serves = false →
      s.inFlight = [] ∧ ∀ k, k ∈ (ledger h).lost ∨ (ledger h).Unused k := by
    intro hserves
    refine ⟨ho.inFlight_nil hserves, fun k => ho.settled k fun h => ?_⟩
    exact absurd (hserves.symm.trans h) (by simp)
  cases htells with
  | idle => exact Or.inl ⟨hover, ho⟩
  | unreached now hs =>
    obtain ⟨hcalls, hsettled⟩ := hnone (by rw [hs]; rfl)
    exact Or.inl ⟨rfl, ho.unserved rfl rfl rfl rfl rfl hcalls hsettled nofun⟩
  | made now c hs => exact Or.inl ⟨rfl, ho.made hl hs c⟩
  | registered now c hs _ => exact Or.inl ⟨rfl, ho.registered hs⟩
  | refused now c e hs =>
    obtain ⟨hcalls, hsettled⟩ := hnone (by rw [hs]; rfl)
    exact Or.inl ⟨rfl, ho.unserved rfl rfl rfl rfl rfl hcalls hsettled nofun⟩
  | received now c r hs _ => exact Or.inl ⟨hover, ho.received hl hs hpermits.1 r hroom⟩
  | passed now c q rest hs hreplies hcall => exact Or.inl ⟨hover, ho.passed hl hs hreplies hcall⟩
  | taken now c q rest bus hs hreplies hcall => exact Or.inl ⟨rfl, ho.taken hl hs hreplies hcall⟩
  | written now c q hs => exact Or.inl ⟨rfl, ho.written hs⟩
  | stalled now c q hs => exact Or.inl ⟨rfl, ho.stalled hs⟩
  | lost now m c _ _ => exact Or.inl ⟨rfl, ho.lost c _⟩
  | closed now c hs => exact Or.inr ⟨rfl, ho.answered hpermits.1 (Or.inl ⟨c, hs⟩)⟩
  | unheard now m c f hdeaf _ => exact absurd (hheard.symm.trans hdeaf) (by simp)
  | discarded now deadline q rest hs hreplies => exact Or.inl ⟨hover, ho.discarded hs hreplies⟩
  | resumed now deadline hs =>
    obtain ⟨hcalls, hsettled⟩ := hnone (by rw [hs]; rfl)
    exact Or.inl ⟨rfl, ho.unserved rfl rfl rfl rfl rfl hcalls hsettled nofun⟩
  | ended now deadline hs =>
    exact Or.inr ⟨rfl, ho.answered hpermits.1 (Or.inr (by rw [hs]; rfl))⟩

end

/-! ## The invariants -/

/-- When a session forwards calls, and over which connections. -/
structure Punctual (s : Session) (h : List Fact) : Prop where
  timely : Throughout Timely h
  unlinked : .unlinked ∈ h → s.linked = false
  held : ∀ c, s.stage.connection? = some c → (ledger h).made.head? = some c

/-- What a session owes to the calls that its owner dispatched, until it ends. -/
structure Closing (s : Session) (h : List Fact) (ds : List (Request × Dispatch)) : Prop where
  owed : s.isOver = false → Owed s (ledger h) ds
  answered : s.isOver = true → .forced ∉ h → Answered (ledger h) ds

section

variable {s t : Session} {m : Move} {now : Nat} {ns h : List Fact}
  {ds more : List (Request × Dispatch)}

theorem punctual_init (object : ObjectSpec) (retry : Nat) :
    Punctual { object := object, retry := retry } [] where
  timely := throughout_nil
  unlinked := nofun
  held := nofun

theorem closing_init (object : ObjectSpec) (retry : Nat) :
    Closing { object := object, retry := retry } [] [] where
  owed := fun _ => owed_init object retry
  answered := nofun

/-! ### When calls are forwarded -/

theorem Punctual.move (hp : Punctual s h) (hsingle : openConnections h = s.stage.connection?.toList)
    (hheard : s.isOver = false → s.heard = true) (hpermits : s.Permits m) :
    Punctual (s.step now m).2 (s.facts (.move now m) ++ h) := by
  by_cases hover : s.isOver = true
  · obtain ⟨hstep, hfacts⟩ := step_of_isOver hover now m
    rw [hfacts, hstep]
    exact hp
  · rw [Bool.not_eq_true] at hover
    have htells : Tells s (.move now m) (s.facts (.move now m)) (s.step now m).2 :=
      s.tells (.move now m)
    have hheld : ∀ c, s.stage.connection? = some c →
        (ledger h).made.head? = some c ∧ openConnections h = [c] := by
      intro c hc
      refine ⟨hp.held c hc, ?_⟩
      rw [hsingle, hc]
      rfl
    exact ⟨htells.timely hpermits (hheard hover) hp.unlinked hheld hp.timely,
      htells.link hp.unlinked, htells.held hp.held⟩

theorem Punctual.abort (hp : Punctual s h) : Punctual s.abort.2 (s.facts .abort ++ h) := by
  have htells : Tells s .abort (s.facts .abort) s.abort.2 := s.tells .abort
  refine ⟨?_, htells.link hp.unlinked, htells.held hp.held⟩
  generalize s.facts .abort = ns at htells ⊢
  generalize s.abort.2 = t at htells
  cases htells with
  | idle => exact hp.timely
  | withdrawn c hs =>
    refine throughout_cons.2 ⟨timely_of_quiet rfl rfl _, ?_⟩
    exact throughout_cons.2 ⟨timely_of_quiet rfl rfl _, hp.timely⟩
  | aborted hs =>
    by_cases hover : s.isOver = true
    · simp only [hover, if_true]
      exact hp.timely
    · simp only [hover]
      exact throughout_cons.2 ⟨timely_of_quiet rfl rfl _, hp.timely⟩

/-- The owner takes an event. -/
theorem Punctual.heard (hp : Punctual s h) (e : BusEvent) (hstage : t.stage = s.stage)
    (hlinked : t.linked = s.linked) : Punctual t (.heard e :: h) where
  timely := throughout_cons.2 ⟨timely_of_quiet rfl rfl _, hp.timely⟩
  unlinked := by
    rw [hlinked]
    simpa using hp.unlinked
  held := by
    rw [hstage]
    exact hp.held

theorem Punctual.deals (hp : Punctual s h)
    (hsingle : openConnections h = s.stage.connection?.toList) (hdeals : Deals s ns more t) :
    Punctual t (ns ++ h) := by
  cases hdeals with
  | rests => exact hp
  | moved now m hheard hpermits => exact hp.move hsingle hheard hpermits
  | forced _ => exact hp.abort
  | heard e rest _ _ _ => exact hp.heard e rfl rfl
  | answered q rest d _ _ =>
    obtain ⟨hstage, hlinked, -⟩ := s.reply_left rest (d.toReply q.id)
    exact hp.heard _ hstage hlinked
  | unlinked =>
    exact ⟨throughout_cons.2 ⟨timely_of_quiet rfl rfl _, hp.timely⟩, fun _ => rfl, hp.held⟩
  | ignored _ => exact ⟨hp.timely, hp.unlinked, hp.held⟩

/-! ### What is owed to the calls that were dispatched -/

theorem Closing.move (hc : Closing s h ds) (hheard : s.isOver = false → s.heard = true)
    (hpermits : s.Permits m)
    (hroom : (ledger (s.facts (.move now m) ++ h)).arrivals.length ≤ ds.length + UInt32.size) :
    Closing (s.step now m).2 (s.facts (.move now m) ++ h) ds := by
  by_cases hover : s.isOver = true
  · obtain ⟨hstep, hfacts⟩ := step_of_isOver hover now m
    rw [hfacts, hstep]
    exact hc
  · rw [Bool.not_eq_true] at hover
    have htells : Tells s (.move now m) (s.facts (.move now m)) (s.step now m).2 :=
      s.tells (.move now m)
    rcases (hc.owed hover).move htells hover (hheard hover) hpermits hroom with
      ⟨hgoes, howed⟩ | ⟨hends, hanswered⟩
    · exact ⟨fun _ => howed, fun hends => absurd (hends.symm.trans hgoes) (by simp)⟩
    · exact ⟨fun hgoes => absurd (hgoes.symm.trans hends) (by simp), fun _ _ => hanswered⟩

/-- A session that is ended by force loses what is queued. -/
theorem Closing.abort (hover : s.isOver = false) : Closing s.abort.2 (s.facts .abort ++ h) ds := by
  have hforced : .forced ∈ s.facts .abort := by simp [facts, happening, hover]
  constructor
  · intro hgoes
    exact absurd (hgoes.symm.trans s.abort_isOver) (by simp)
  · intro _ hnot
    exact absurd (List.mem_append_left _ hforced) hnot

/-- The owner of a session that goes on takes an event. -/
theorem Closing.heard (e : BusEvent) (hover : s.isOver = false) (hstage : t.stage = s.stage)
    (howed : Owed t (ledger h) ds) : Closing t (.heard e :: h) ds := by
  have hsame : t.isOver = s.isOver := isOver_of_stage hstage
  exact ⟨fun _ => howed, fun hends => absurd (hends.symm.trans (hsame.trans hover)) (by simp)⟩

theorem Closing.deals (hc : Closing s h ds) (hdeals : Deals s ns more t)
    (hroom : (ledger (ns ++ h)).arrivals.length ≤ (ds ++ more).length + UInt32.size) :
    Closing t (ns ++ h) (ds ++ more) := by
  have hsame : ds ++ [] = ds := List.append_nil ds
  cases hdeals with
  | rests => rwa [hsame]
  | moved now m hheard hpermits =>
    rw [hsame] at hroom ⊢
    exact hc.move hheard hpermits hroom
  | forced hover => exact Closing.abort hover
  | heard e rest hover hevents hcall =>
    rw [hsame]
    refine Closing.heard e hover rfl ((hc.owed hover).same rfl rfl ?_ rfl rfl)
    rw [hevents]
    cases e with
    | call q => exact absurd rfl (hcall q)
    | _ => rfl
  | answered q rest d hover hevents =>
    obtain ⟨hstage, -, -⟩ := s.reply_left rest (d.toReply q.id)
    exact Closing.heard _ hover hstage ((hc.owed hover).dispatch hover hevents d)
  | unlinked =>
    rw [hsame]
    refine ⟨fun hover => (hc.owed hover).same rfl rfl rfl rfl rfl, ?_⟩
    intro hover hnot
    exact hc.answered hover (by simpa using hnot)
  | ignored hover =>
    rw [hsame]
    exact ⟨fun hgoes => absurd (hgoes.symm.trans hover) (by simp), hc.answered⟩

end

end ScriptService.Session
