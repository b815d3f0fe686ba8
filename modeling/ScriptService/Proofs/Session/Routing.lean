import ScriptService.Proofs.Session.Run

/-!
# Where replies go

A reply is written at most once, to the connection that its call came from, under the number that
the bus gave to the call. Which replies these are is read off the history of a run alone: `due`
knows neither the table of open calls nor the stage of the session.

Main statement: `Session.written_eq_due`, for every run of a session.
-/

namespace ScriptService.Session

/-! ## What a history says -/

/-- Whether a connection was made. -/
def Note.connects : Note → Bool
  | .did (.connect (some _)) => true
  | _ => false

/-- How many connections were made. -/
def connections (history : List Note) : Nat := history.countP Note.connects

/-- The notes from the `k`-th connection on until the next one is made. -/
def during (k : Nat) : List Note → List Note
  | [] => []
  | n :: past => if connections (n :: past) = k then n :: during k past else during k past

/-- The call that is open under a number of the session's: the bus's number of the latest call
that was handed out under it, unless a reply with the number has been taken since. -/
def openCall? (id : RequestId) : List Note → Option RequestId
  | [] => none
  | .handed _ r i :: past => if i = id then some r.id else openCall? id past
  | .taken r :: past => if r.id = id then none else openCall? id past
  | _ :: past => openCall? id past

/-- The replies that are due on a connection, in order: each reply taken for a call that is open
under its number, with the number that the bus gave to the call. -/
def due : List Note → List Reply
  | [] => []
  | .taken r :: past =>
    due past ++ ((openCall? r.id past).map fun bus => { r with id := bus }).toList
  | _ :: past => due past

/-- The replies that were written, in order. -/
def writtenReplies : List Note → List Reply
  | [] => []
  | .did (.written _ r) :: past => writtenReplies past ++ [r]
  | _ :: past => writtenReplies past

/-- The numbers that were given to calls, in order. -/
def numbersOf : List Note → List RequestId
  | [] => []
  | .handed _ _ id :: past => numbersOf past ++ [id]
  | _ :: past => numbersOf past

/-- The replies that the owner queued, in order. -/
def queuedReplies : List Note → List Reply
  | [] => []
  | .queued r :: past => queuedReplies past ++ [r]
  | _ :: past => queuedReplies past

/-- The replies that left the queue, in order. -/
def unqueuedReplies : List Note → List Reply
  | [] => []
  | .taken r :: past => unqueuedReplies past ++ [r]
  | .discarded r :: past => unqueuedReplies past ++ [r]
  | _ :: past => unqueuedReplies past

/-! ## Notes of one connection -/

theorem connections_cons (n : Note) (h : List Note) :
    connections (n :: h) = connections h + if n.connects then 1 else 0 := by
  simp [connections, List.countP_cons]

theorem during_eq_nil {k : Nat} {h : List Note} (hk : connections h < k) : during k h = [] := by
  induction h with
  | nil => rfl
  | cons n past ih =>
    have hle : connections past ≤ connections (n :: past) := by
      rw [connections_cons]
      exact Nat.le_add_right _ _
    rw [during, if_neg (Nat.ne_of_lt hk)]
    exact ih (Nat.lt_of_le_of_lt hle hk)

/-- The notes since the latest connection was made. -/
def current (h : List Note) : List Note := during (connections h) h

theorem current_cons {n : Note} {h : List Note} (hn : n.connects = false) :
    current (n :: h) = n :: current h := by
  have hc : connections (n :: h) = connections h := by simp [connections_cons, hn]
  simp [current, during, hc]

theorem current_cons_connects {n : Note} {h : List Note} (hn : n.connects = true) :
    current (n :: h) = [n] := by
  have hc : connections (n :: h) = connections h + 1 := by simp [connections_cons, hn]
  rw [current, during, if_pos rfl, hc, during_eq_nil (Nat.lt_succ_self _)]

theorem during_cons_of_ne {n : Note} {h : List Note} {k : Nat} (hk : connections (n :: h) ≠ k) :
    during k (n :: h) = during k h := by
  rw [during, if_neg hk]

/-- Making a connection leaves what is known of earlier ones. -/
theorem during_cons_of_le {n : Note} {h : List Note} {k : Nat} (hn : n.connects = true)
    (hk : k ≤ connections h) : during k (n :: h) = during k h := by
  apply during_cons_of_ne
  rw [connections_cons, hn]
  simp
  omega

/-- Notes that open no connection, hand over no call, take no reply and write none. -/
def Note.silent : Note → Bool
  | .did (.connect (some _)) => false
  | .did (.written _ _) => false
  | .handed _ _ _ => false
  | .taken _ => false
  | _ => true

theorem connects_of_silent {n : Note} (hn : n.silent = true) : n.connects = false := by
  unfold Note.silent at hn
  split at hn <;> simp_all [Note.connects]

/-- What is read off a history does not depend on silent notes. -/
theorem views_cons_silent {n : Note} (hn : n.silent = true) (h : List Note) :
    (∀ id, openCall? id (n :: h) = openCall? id h) ∧ due (n :: h) = due h ∧
      writtenReplies (n :: h) = writtenReplies h ∧ numbersOf (n :: h) = numbersOf h := by
  unfold Note.silent at hn
  split at hn <;> simp_all [openCall?, due, writtenReplies, numbersOf]

theorem views_append_silent {ns : List Note} (hns : ∀ n ∈ ns, n.silent = true) (h : List Note) :
    (∀ id, openCall? id (ns ++ h) = openCall? id h) ∧ due (ns ++ h) = due h ∧
      writtenReplies (ns ++ h) = writtenReplies h ∧ numbersOf (ns ++ h) = numbersOf h := by
  induction ns with
  | nil => exact ⟨fun _ => rfl, rfl, rfl, rfl⟩
  | cons n ns ih =>
    obtain ⟨hopen, hdue, hwritten, hnumbers⟩ := ih fun m hm => hns m (List.mem_cons_of_mem n hm)
    obtain ⟨hopen', hdue', hwritten', hnumbers'⟩ :=
      views_cons_silent (hns n List.mem_cons_self) (ns ++ h)
    exact ⟨fun id => (hopen' id).trans (hopen id), hdue'.trans hdue, hwritten'.trans hwritten,
      hnumbers'.trans hnumbers⟩

/-- Notes that make no connection belong to the current one. -/
theorem current_append {ns : List Note} (hns : ∀ n ∈ ns, n.connects = false) (h : List Note) :
    current (ns ++ h) = ns ++ current h ∧ connections (ns ++ h) = connections h ∧
      ∀ k, k ≠ connections h → during k (ns ++ h) = during k h := by
  induction ns with
  | nil => exact ⟨rfl, rfl, fun _ _ => rfl⟩
  | cons n ns ih =>
    have hn : n.connects = false := hns n List.mem_cons_self
    obtain ⟨hcur, hcount, hother⟩ := ih fun m hm => hns m (List.mem_cons_of_mem n hm)
    have hcount' : connections (n :: (ns ++ h)) = connections h := by
      simp [connections_cons, hn, hcount]
    refine ⟨?_, hcount', fun k hk => ?_⟩
    · rw [List.cons_append, current_cons hn, hcur, List.cons_append]
    · rw [List.cons_append, during_cons_of_ne (by rw [hcount']; exact hk.symm)]
      exact hother k hk

theorem silent_of_talk {talk : List SessionEvent} (h : Talk talk) :
    ∀ n ∈ (talk.map Note.did).reverse, n.silent = true := by
  intro n hn
  obtain ⟨e, he, rfl⟩ := List.mem_map.1 (List.mem_reverse.1 hn)
  rcases h e he with ⟨d, rfl⟩ | ⟨c, object, rfl⟩
  · rfl
  · rfl

/-! ## The invariant -/

/-- A connection that is left: all that was due on it was written, but for the reply of a write
that failed or was given up. -/
def Settled (p : List Note) : Prop :=
  due p = writtenReplies p ∨ .unwritten ∈ p ∧ ∃ r, due p = writtenReplies p ++ [r]

/-- What is due and what is written on the current connection, by the stage of the session. -/
def Standing : Stage → List Note → Prop
  | .registering _, p => due p = writtenReplies p
  | .serving _, p => due p = writtenReplies p
  | .writing _ r, p => due p = writtenReplies p ++ [r]
  | .stalled _, p => ∃ r, due p = writtenReplies p ++ [r]
  | _, p => Settled p

/-- Whether calls can be open at a stage. -/
def Stage.serves : Stage → Bool
  | .serving _ => true
  | .writing _ _ => true
  | .stalled _ => true
  | _ => false

/-- The invariant that ties a session to its history. -/
structure Routed (s : Session) (h : List Note) : Prop where
  next : s.nextId = UInt32.ofNat (numbersOf h).length
  numbers : numbersOf h = numbersGiven (numbersOf h).length
  /-- Without a connection that is served there are no open calls. -/
  closed : s.stage.serves = false → s.inFlight = []
  /-- The table of open calls says what the history says. -/
  calls : ∀ c, s.stage.connection? = some c →
    ∀ id, List.lookup id s.inFlight = openCall? id (current h)
  held : ∀ c, s.stage.connection? = some c → .did (.connect (some c)) ∈ current h
  standing : Standing s.stage (current h)
  settled : ∀ k < connections h, Settled (during k h)
  /-- Replies are written to the connection that is open. -/
  addressed : ∀ k c r, .did (.written c r) ∈ during k h → .did (.connect (some c)) ∈ during k h

theorem routed_init (object : ObjectSpec) (retry : Nat) :
    Routed { object := object, retry := retry } [] where
  next := rfl
  numbers := rfl
  closed := fun _ => rfl
  calls := fun c hc => by simp [Stage.connection?] at hc
  held := fun c hc => by simp [Stage.connection?] at hc
  standing := Or.inl rfl
  settled := fun k hk => absurd hk (Nat.not_lt_zero k)
  addressed := fun k c r hmem => by simp [during] at hmem

/-- Notes that make no connection leave what is known of earlier connections, so that only the
current one has to be looked at. -/
theorem Routed.extend {s s' : Session} {h : List Note} (hr : Routed s h) (ns : List Note)
    (hns : ∀ n ∈ ns, n.connects = false)
    (hnext : s'.nextId = UInt32.ofNat (numbersOf (ns ++ h)).length)
    (hnumbers : numbersOf (ns ++ h) = numbersGiven (numbersOf (ns ++ h)).length)
    (hclosed : s'.stage.serves = false → s'.inFlight = [])
    (hcalls : ∀ c, s'.stage.connection? = some c →
      ∀ id, List.lookup id s'.inFlight = openCall? id (ns ++ current h))
    (hkept : ∀ c, s'.stage.connection? = some c → s.stage.connection? = some c)
    (hstanding : Standing s'.stage (ns ++ current h))
    (hwritten : ∀ c r, .did (.written c r) ∈ ns → s.stage.connection? = some c) :
    Routed s' (ns ++ h) := by
  obtain ⟨hcur, hcount, hother⟩ := current_append hns h
  refine ⟨hnext, hnumbers, hclosed, ?_, ?_, ?_, ?_, ?_⟩
  · rw [hcur]
    exact hcalls
  · intro c hc
    rw [hcur]
    exact List.mem_append_right _ (hr.held c (hkept c hc))
  · rw [hcur]
    exact hstanding
  · -- Earlier connections keep the notes that they have.
    intro k hk
    rw [hcount] at hk
    rw [hother k (Nat.ne_of_lt hk)]
    exact hr.settled k hk
  · intro k c r hmem
    by_cases hk : k = connections h
    · have hduring : during k (ns ++ h) = ns ++ current h := by
        rw [hk, ← hcount]
        exact hcur
      rw [hduring] at hmem ⊢
      refine List.mem_append_right _ ?_
      rcases List.mem_append.1 hmem with hnew | hold
      · exact hr.held c (hwritten c r hnew)
      · exact hr.addressed _ c r hold
    · rw [hother k hk] at hmem ⊢
      exact hr.addressed k c r hmem

theorem silent_of_talk_dropped {talk : List SessionEvent} (h : Talk talk) (c : ConnectionId) :
    ∀ n ∈ ((talk ++ [SessionEvent.dropped c]).map Note.did).reverse, n.silent = true := by
  intro n hn
  simp only [List.map_append, List.map_cons, List.map_nil, List.reverse_append,
    List.reverse_cons, List.reverse_nil, List.nil_append, List.mem_append, List.mem_singleton] at hn
  rcases hn with rfl | hn
  · rfl
  · exact silent_of_talk h n hn

theorem not_written_of_silent {ns : List Note} (hns : ∀ n ∈ ns, n.silent = true)
    (c : ConnectionId) (r : Reply) : Note.did (.written c r) ∉ ns := by
  intro hmem
  simpa [Note.silent] using hns _ hmem

/-- Silent notes and changes on the owner's side leave the invariant alone. -/
theorem Routed.quiet {s s' : Session} {h : List Note} (hr : Routed s h) (ns : List Note)
    (hns : ∀ n ∈ ns, n.silent = true) (hstage : s'.stage = s.stage) (hnext : s'.nextId = s.nextId)
    (hcalls : s'.inFlight = s.inFlight) (hstanding : Standing s.stage (ns ++ current h)) :
    Routed s' (ns ++ h) := by
  obtain ⟨-, -, -, hnumbers⟩ := views_append_silent hns h
  refine hr.extend ns (fun n hn => connects_of_silent (hns n hn)) ?_ ?_ ?_ ?_ ?_ ?_ ?_
  · rw [hnext, hnumbers]
    exact hr.next
  · rw [hnumbers]
    exact hr.numbers
  · rw [hstage, hcalls]
    exact hr.closed
  · intro c hc id
    rw [hstage] at hc
    rw [hcalls, (views_append_silent hns _).1 id]
    exact hr.calls c hc id
  · intro c hc
    rwa [hstage] at hc
  · rw [hstage]
    exact hstanding
  · exact fun c r hmem => absurd hmem (not_written_of_silent hns c r)

theorem settled_append_silent {ns : List Note} (hns : ∀ n ∈ ns, n.silent = true) {p : List Note}
    (hp : Settled p) : Settled (ns ++ p) := by
  obtain ⟨-, hdue, hwritten, -⟩ := views_append_silent hns p
  rw [Settled, hdue, hwritten]
  rcases hp with hall | ⟨hunwritten, hbut⟩
  · exact Or.inl hall
  · exact Or.inr ⟨List.mem_append_right _ hunwritten, hbut⟩

theorem standing_append_silent {ns : List Note} (hns : ∀ n ∈ ns, n.silent = true) {stage : Stage}
    {p : List Note} (hp : Standing stage p) : Standing stage (ns ++ p) := by
  obtain ⟨-, hdue, hwritten, -⟩ := views_append_silent hns p
  cases stage with
  | registering c => simpa [Standing, hdue, hwritten] using hp
  | serving c => simpa [Standing, hdue, hwritten] using hp
  | writing c r => simpa [Standing, hdue, hwritten] using hp
  | stalled c => simpa [Standing, hdue, hwritten] using hp
  | connecting => exact settled_append_silent hns hp
  | pausing d => exact settled_append_silent hns hp
  | ended => exact settled_append_silent hns hp

theorem standing_iff_settled {stage : Stage} (h : stage.connection? = none) (p : List Note) :
    Standing stage p ↔ Settled p := by
  cases stage <;> simp_all [Stage.connection?, Standing]

/-- The connection, if there was one, is left. -/
theorem Routed.leave {s s' : Session} {h : List Note} (hr : Routed s h) (ns : List Note)
    (hns : ∀ n ∈ ns, n.silent = true) (hleft : s'.stage.connection? = none)
    (hnext : s'.nextId = s.nextId) (hcalls : s'.inFlight = [])
    (hsettled : Settled (ns ++ current h)) : Routed s' (ns ++ h) := by
  obtain ⟨-, -, -, hnumbers⟩ := views_append_silent hns h
  refine hr.extend ns (fun n hn => connects_of_silent (hns n hn)) ?_ ?_ (fun _ => hcalls) ?_ ?_ ?_
    ?_
  · rw [hnext, hnumbers]
    exact hr.next
  · rw [hnumbers]
    exact hr.numbers
  · exact fun c hc => by simp [hleft] at hc
  · exact fun c hc => by simp [hleft] at hc
  · exact (standing_iff_settled hleft _).2 hsettled
  · exact fun c r hmem => absurd hmem (not_written_of_silent hns c r)

theorem Routed.standing_of {s : Session} {h : List Note} (hr : Routed s h) {stage : Stage}
    (hs : s.stage = stage) : Standing stage (current h) :=
  hs ▸ hr.standing

/-- A connection that no reply is being written to is settled. -/
theorem Routed.settled_current {s : Session} {h : List Note} (hr : Routed s h)
    (hstage : ∀ c r, s.stage ≠ .writing c r ∧ s.stage ≠ .stalled c) : Settled (current h) := by
  cases hs : s.stage with
  | registering c => exact Or.inl (hr.standing_of hs)
  | serving c => exact Or.inl (hr.standing_of hs)
  | writing c r => exact absurd hs (hstage c r).1
  | stalled c => exact absurd hs (hstage c default).2
  | connecting => exact hr.standing_of hs
  | pausing d => exact hr.standing_of hs
  | ended => exact hr.standing_of hs

/-- A connection that is left while a reply is being written is settled by the note that the reply
is not written. -/
theorem Routed.settled_unwritten {s : Session} {h : List Note} (hr : Routed s h)
    (ns : List Note) (hns : ∀ n ∈ ns, n.silent = true) {c : ConnectionId}
    (hstage : (∃ r, s.stage = .writing c r) ∨ s.stage = .stalled c) :
    Settled (ns ++ .unwritten :: current h) := by
  have hone : ∃ r, due (current h) = writtenReplies (current h) ++ [r] := by
    rcases hstage with ⟨r, hs⟩ | hs
    · exact ⟨r, hr.standing_of hs⟩
    · exact hr.standing_of hs
  apply settled_append_silent hns
  exact Or.inr ⟨List.mem_cons_self, by simpa [due, writtenReplies] using hone⟩

/-! ## Every act keeps the invariant -/

theorem lookup_filter_ne (calls : List (RequestId × RequestId)) (i id : RequestId) :
    List.lookup id (calls.filter fun p => p.1 != i) =
      if i = id then none else List.lookup id calls := by
  induction calls with
  | nil => simp
  | cons p rest ih =>
    obtain ⟨k, v⟩ := p
    by_cases hk : k = i
    · subst hk
      by_cases hid : k = id
      · simpa [hid] using ih
      · have hne : (id == k) = false := beq_eq_false_iff_ne.2 (Ne.symm hid)
        simpa [List.lookup_cons, hne, hid] using ih
    · by_cases hid : id = k
      · subst hid
        simp [hk, Ne.symm hk]
      · have hne : (id == k) = false := beq_eq_false_iff_ne.2 hid
        simpa [List.lookup_cons, hne, hk] using ih

theorem Routed.connected {s : Session} {h : List Note} (hr : Routed s h) (c : ConnectionId)
    (hs : s.stage = .connecting) :
    Routed { s with stage := .registering c } (.did (.connect (some c)) :: h) := by
  have hcur : current (.did (.connect (some c)) :: h) = [.did (.connect (some c))] :=
    current_cons_connects rfl
  have hcount : connections (.did (.connect (some c)) :: h) = connections h + 1 := by
    simp [connections_cons, Note.connects]
  have hopen : s.inFlight = [] := hr.closed (by simp [hs, Stage.serves])
  have hsettled : Settled (current h) := hr.settled_current (by simp [hs])
  refine ⟨hr.next, hr.numbers, fun _ => hopen, ?_, ?_, ?_, ?_, ?_⟩
  · intro d hd id
    simp [hcur, hopen, openCall?]
  · intro d hd
    obtain rfl : c = d := by simpa [Stage.connection?] using hd
    simp [hcur]
  · simp [Standing, hcur, due, writtenReplies]
  · -- What was the current connection is an earlier one from now on.
    intro k hk
    rw [hcount] at hk
    have hk' : k ≤ connections h := Nat.lt_succ_iff.1 hk
    rw [during_cons_of_le rfl hk']
    rcases Nat.lt_or_eq_of_le hk' with hlt | rfl
    · exact hr.settled k hlt
    · exact hsettled
  · intro k d r hmem
    by_cases hk : k = connections h + 1
    · rw [hk, ← hcount] at hmem
      rw [show during _ _ = _ from hcur] at hmem
      simp at hmem
    · rw [during_cons_of_ne (by rw [hcount]; exact Ne.symm hk)] at hmem ⊢
      exact hr.addressed k d r hmem

theorem Routed.forward {s : Session} {h : List Note} (hr : Routed s h) (c : ConnectionId)
    (r : Request) (hs : s.stage = .serving c) :
    Routed (s.forward r) (.handed c r s.nextId :: h) := by
  have hc : s.stage.connection? = some c := by simp [hs, Stage.connection?]
  refine hr.extend [.handed c r s.nextId] (by simp [Note.connects]) ?_ ?_ ?_ ?_ ?_ ?_ ?_
  · simp [Session.forward, numbersOf, hr.next]
  · have hn := hr.numbers
    simp [numbersOf, numbersGiven_succ, ← hn, hr.next]
  · simp [Session.forward, hs, Stage.serves]
  · intro d _ id
    have hold := hr.calls c hc id
    simp only [Session.forward, List.lookup_cons, List.cons_append, List.nil_append, openCall?]
    -- A number that is given out anew names the new call only.
    by_cases hid : s.nextId = id
    · simp [hid]
    · have hne : (id == s.nextId) = false := beq_eq_false_iff_ne.2 (Ne.symm hid)
      rw [hne, lookup_filter_ne, if_neg hid, if_neg hid]
      exact hold
  · exact fun d hd => hd
  · have hstanding := hr.standing_of hs
    simpa [Session.forward, hs, Standing, due, writtenReplies] using hstanding
  · simp

/-- A reply that answers no open call leaves everything but the queue as it is. -/
theorem Routed.passed {s : Session} {h : List Note} (hr : Routed s h) (c : ConnectionId)
    (r : Reply) (rest : List Reply) (hs : s.stage = .serving c)
    (hcall : List.lookup r.id s.inFlight = none) :
    Routed { s with replies := rest } (.taken r :: h) := by
  have hc : s.stage.connection? = some c := by simp [hs, Stage.connection?]
  have hnone : openCall? r.id (current h) = none := by rw [← hr.calls c hc r.id, hcall]
  refine hr.extend [.taken r] (by simp [Note.connects]) ?_ ?_ ?_ ?_ ?_ ?_ ?_
  · simpa [numbersOf] using hr.next
  · simpa [numbersOf] using hr.numbers
  · exact hr.closed
  · intro d hd id
    simp only [List.cons_append, List.nil_append, openCall?]
    by_cases hid : r.id = id
    · rw [if_pos hid, ← hid]
      exact hcall
    · rw [if_neg hid]
      exact hr.calls d hd id
  · exact fun d hd => hd
  · -- Without an open call, the reply is not due.
    have hstanding := hr.standing_of hs
    simpa [hs, Standing, due, writtenReplies, hnone] using hstanding
  · simp

theorem Routed.taken {s : Session} {h : List Note} (hr : Routed s h) (c : ConnectionId)
    (r : Reply) (rest : List Reply) (bus : RequestId) (hs : s.stage = .serving c)
    (hcall : List.lookup r.id s.inFlight = some bus) :
    Routed
      { s with
        replies := rest
        inFlight := s.inFlight.filter fun p => p.1 != r.id
        stage := .writing c { r with id := bus } }
      (.taken r :: h) := by
  have hc : s.stage.connection? = some c := by simp [hs, Stage.connection?]
  have hsome : openCall? r.id (current h) = some bus := by rw [← hr.calls c hc r.id, hcall]
  refine hr.extend [.taken r] (by simp [Note.connects]) ?_ ?_ ?_ ?_ ?_ ?_ ?_
  · simpa [numbersOf] using hr.next
  · simpa [numbersOf] using hr.numbers
  · simp [Stage.serves]
  · intro d _ id
    simp only [List.cons_append, List.nil_append, openCall?, lookup_filter_ne]
    by_cases hid : r.id = id
    · simp [hid]
    · rw [if_neg hid, if_neg hid]
      exact hr.calls c hc id
  · intro d hd
    simpa [hs, Stage.connection?] using hd
  · -- The reply is due, and the only one that is not written yet.
    have hstanding := hr.standing_of hs
    simp only [Standing] at hstanding
    simp [Standing, due, writtenReplies, hsome, hstanding]
  · simp

theorem Routed.written {s : Session} {h : List Note} (hr : Routed s h) (c : ConnectionId)
    (r : Reply) (hs : s.stage = .writing c r) :
    Routed { s with stage := .serving c } (.did (.written c r) :: h) := by
  have hc : s.stage.connection? = some c := by simp [hs, Stage.connection?]
  refine hr.extend [.did (.written c r)] (by simp [Note.connects]) ?_ ?_ ?_ ?_ ?_ ?_ ?_
  · simpa [numbersOf] using hr.next
  · simpa [numbersOf] using hr.numbers
  · simp [Stage.serves]
  · intro d _ id
    simpa [openCall?] using hr.calls c hc id
  · intro d hd
    simpa [hs, Stage.connection?] using hd
  · have hstanding := hr.standing_of hs
    simp only [Standing] at hstanding
    simp [Standing, due, writtenReplies, hstanding]
  · intro d q hmem
    obtain ⟨rfl, rfl⟩ : d = c ∧ q = r := by simpa using hmem
    exact hc

theorem Routed.stalled {s : Session} {h : List Note} (hr : Routed s h) (c : ConnectionId)
    (r : Reply) (hs : s.stage = .writing c r) : Routed { s with stage := .stalled c } h := by
  have hc : s.stage.connection? = some c := by simp [hs, Stage.connection?]
  refine hr.extend [] (by simp) hr.next hr.numbers ?_ ?_ ?_ ?_ ?_
  · simp [Stage.serves]
  · exact fun d _ => hr.calls c hc
  · intro d hd
    simpa [hs, Stage.connection?] using hd
  · exact ⟨r, hr.standing_of hs⟩
  · simp

theorem silent_abort (s : Session) :
    ∀ n ∈ (s.abort.1.map Note.did).reverse, n.silent = true := by
  unfold abort
  split
  · simp [Note.silent]
  · simp

/-- The session waits or goes on without having gained a connection. -/
theorem Routed.idle {s s' : Session} {h : List Note} (hr : Routed s h) (ns : List Note)
    (hns : ∀ n ∈ ns, n.silent = true) (hstage : s.stage.serves = false)
    (hleft : s'.stage.connection? = none) (hnext : s'.nextId = s.nextId)
    (hcalls : s'.inFlight = s.inFlight) : Routed s' (ns ++ h) := by
  refine hr.leave ns hns hleft hnext (hcalls.trans (hr.closed hstage)) ?_
  refine settled_append_silent hns (hr.settled_current ?_)
  intro c r
  constructor
  · rintro hs
    simp [hs, Stage.serves] at hstage
  · rintro hs
    simp [hs, Stage.serves] at hstage

theorem Routed.registered {s : Session} {h : List Note} (hr : Routed s h) (c : ConnectionId)
    (hs : s.stage = .registering c) {ns : List Note} (hns : ∀ n ∈ ns, n.silent = true)
    (told : List BusEvent) :
    Routed { s with stage := .serving c, events := told } (ns ++ h) := by
  have hc : s.stage.connection? = some c := by simp [hs, Stage.connection?]
  obtain ⟨-, -, -, hnumbers⟩ := views_append_silent hns h
  refine hr.extend ns (fun n hn => connects_of_silent (hns n hn)) ?_ ?_ ?_ ?_ ?_ ?_ ?_
  · rw [hnumbers]
    exact hr.next
  · rw [hnumbers]
    exact hr.numbers
  · simp [Stage.serves]
  · intro d _ id
    rw [(views_append_silent hns _).1 id]
    exact hr.calls c hc id
  · intro d hd
    simpa [hs, Stage.connection?] using hd
  · -- No reply is due or written on a connection before it is served.
    have hstanding : Standing (.registering c) (current h) := hr.standing_of hs
    exact standing_append_silent hns hstanding
  · exact fun d r hmem => absurd hmem (not_written_of_silent hns d r)

theorem Routed.does {s s' : Session} {h : List Note} {events : List SessionEvent}
    {seen : Option Note} (hr : Routed s h) (hdoes : Does s events seen s') :
    Routed s' ((events.map .did).reverse ++ seen.toList ++ h) := by
  -- What the owner does on its side leaves the stage, the numbers and the open calls.
  have howned : ∀ {t : Session}, t.stage = s.stage → t.nextId = s.nextId →
      t.inFlight = s.inFlight → Routed t h := fun hstage hnext hcalls =>
    hr.quiet [] (by simp) hstage hnext hcalls hr.standing
  cases hdoes with
  | idle => exact hr
  | connected c hs => exact hr.connected c hs
  | unconnected now hs =>
    exact hr.idle [.did (.connect none)] (by simp [Note.silent]) (by simp [hs, Stage.serves])
      (by simp [pause, Stage.connection?]) rfl rfl
  | registered c hs _ htalk =>
    simpa using hr.registered c hs (silent_of_talk htalk) (s.events ++ [.connected])
  | refused c now hs htalk =>
    have hpause : Routed (s.pause now) _ := hr.idle _ (silent_of_talk_dropped htalk c)
      (by simp [hs, Stage.serves]) (by simp [pause, Stage.connection?]) rfl rfl
    simpa using hpause
  | handed c r hs _ => exact hr.forward c r hs
  | passed c r rest hs _ hcall => exact hr.passed c r rest hs hcall
  | taken c r rest bus hs _ hcall => exact hr.taken c r rest bus hs hcall
  | written c r hs => exact hr.written c r hs
  | stalled c r hs => exact hr.stalled c r hs
  | lost c now hs htalk =>
    obtain ⟨hleft, hnext, hcalls, -⟩ := lose_left s now c
    have hns := silent_of_talk_dropped htalk c
    simpa using hr.leave _ hns hleft hnext hcalls
      (settled_append_silent hns (hr.settled_current (by simp [hs])))
  | broken c r now hs htalk =>
    obtain ⟨hleft, hnext, hcalls, -⟩ := lose_left s now c
    have hns := silent_of_talk_dropped htalk c
    refine hr.leave _ ?_ hleft hnext hcalls ?_
    · intro n hn
      rcases List.mem_append.1 hn with hn | hn
      · exact hns n hn
      · simp [List.mem_singleton.1 hn, Note.silent]
    · rw [List.append_assoc]
      exact hr.settled_unwritten _ hns (Or.inl ⟨r, hs⟩)
  | finished c hs htalk =>
    have hns := silent_of_talk_dropped htalk c
    have hsettled : Settled (current h) :=
      hr.settled_current (by rcases hs with hs | hs <;> simp [hs])
    have hfinish : Routed (s.finish c).2 _ := hr.leave _ hns (by simp [finish, Stage.connection?])
      rfl rfl (settled_append_silent hns hsettled)
    simpa using hfinish
  | discarded deadline r rest hs _ =>
    exact hr.quiet [.discarded r] (by simp [Note.silent]) rfl rfl rfl
      (standing_append_silent (by simp [Note.silent]) hr.standing)
  | resumed deadline hs =>
    exact hr.idle [] (by simp) (by simp [hs, Stage.serves]) rfl rfl rfl
  | ended deadline hs =>
    exact hr.idle [] (by simp) (by simp [hs, Stage.serves]) rfl rfl rfl
  | queued r _ =>
    exact hr.quiet [.queued r] (by simp [Note.silent]) rfl rfl rfl
      (standing_append_silent (by simp [Note.silent]) hr.standing)
  | unlinked => exact howned rfl rfl rfl
  | ignored => exact howned rfl rfl rfl
  | heard e rest _ => exact howned rfl rfl rfl
  | aborted hs =>
    obtain ⟨hleft, hnext, hcalls, -⟩ := abort_left s
    have hns := silent_abort s
    simpa using hr.leave _ hns hleft hnext hcalls
      (settled_append_silent hns (hr.settled_current hs))
  | cutOff c hs =>
    obtain ⟨hleft, hnext, hcalls, -⟩ := abort_left s
    exact hr.leave [.did (.dropped c), .unwritten] (by simp [Note.silent]) hleft hnext hcalls
      (hr.settled_unwritten [.did (.dropped c)] (by simp [Note.silent]) hs)

theorem routed_run (object : ObjectSpec) (retry : Nat) (acts : List Act) :
    Routed (observed.run { object := object, retry := retry } acts).1
      (observed.run { object := object, retry := retry } acts).2 :=
  observed.run_invariant (routed_init object retry) (fun s _ a hr => hr.does (s.does a)) acts

/-! ## The queue -/

/-- Replies leave the queue in the order in which they were queued; those that are lost are lost
with the session. -/
def Queued (s : Session) (h : List Note) : Prop :=
  ∃ lost, queuedReplies h = unqueuedReplies h ++ s.replies ++ lost ∧
    (s.isOver = false → lost = [])

theorem queue_views_did (events : List SessionEvent) (h : List Note) :
    queuedReplies ((events.map .did).reverse ++ h) = queuedReplies h ∧
      unqueuedReplies ((events.map .did).reverse ++ h) = unqueuedReplies h := by
  induction events generalizing h with
  | nil => exact ⟨rfl, rfl⟩
  | cons e rest ih =>
    obtain ⟨hq, hu⟩ := ih (.did e :: h)
    simp only [List.map_cons, List.reverse_cons, List.append_assoc, List.singleton_append]
    exact ⟨hq.trans rfl, hu.trans rfl⟩

theorem abort_isOver (s : Session) : s.abort.2.isOver = true := by
  unfold abort
  split <;> rfl

theorem Queued.does {s s' : Session} {h : List Note} {events : List SessionEvent}
    {seen : Option Note} (hq : Queued s h) (hdoes : Does s events seen s') :
    Queued s' ((events.map .did).reverse ++ seen.toList ++ h) := by
  obtain ⟨lost, hqueue, hlost⟩ := hq
  rw [List.append_assoc, Queued, (queue_views_did events _).1, (queue_views_did events _).2]
  -- A session that is not over before the act has lost nothing.
  have hkeep : ∀ {t : Session}, t.replies = s.replies → s.isOver = false → Queued t h :=
    fun hreplies hover => ⟨[], by rw [hqueue, hlost hover, hreplies], fun _ => rfl⟩
  have hsame : ∀ {t : Session}, t.replies = s.replies → t.stage = s.stage → Queued t h :=
    fun hreplies hstage => ⟨lost, by rw [hqueue, hreplies], fun hover => hlost (by
      rw [isOver, ← hstage]
      exact hover)⟩
  cases hdoes with
  | idle => exact hsame rfl rfl
  | connected c hs => exact hkeep rfl (by simp [isOver, hs])
  | unconnected now hs => exact hkeep rfl (by simp [isOver, hs])
  | registered c hs _ _ => exact hkeep rfl (by simp [isOver, hs])
  | refused c now hs _ => exact hkeep rfl (by simp [isOver, hs])
  | handed c r hs _ => exact hkeep rfl (by simp [isOver, hs])
  | passed c r rest hs hreplies _ =>
    have hnone := hlost (by simp [isOver, hs])
    exact ⟨[], by simp [queuedReplies, unqueuedReplies, hqueue, hnone, hreplies], fun _ => rfl⟩
  | taken c r rest bus hs hreplies _ =>
    have hnone := hlost (by simp [isOver, hs])
    exact ⟨[], by simp [queuedReplies, unqueuedReplies, hqueue, hnone, hreplies], fun _ => rfl⟩
  | written c r hs => exact hkeep rfl (by simp [isOver, hs])
  | stalled c r hs => exact hkeep rfl (by simp [isOver, hs])
  | lost c now hs _ => exact hkeep (lose_left s now c).2.2.2 (by simp [isOver, hs])
  | broken c r now hs _ => exact hkeep (lose_left s now c).2.2.2 (by simp [isOver, hs])
  | finished c hs _ => exact hkeep rfl (by rcases hs with hs | hs <;> simp [isOver, hs])
  | discarded deadline r rest hs hreplies =>
    have hnone := hlost (by simp [isOver, hs])
    exact ⟨[], by simp [queuedReplies, unqueuedReplies, hqueue, hnone, hreplies], fun _ => rfl⟩
  | resumed deadline hs => exact hkeep rfl (by simp [isOver, hs])
  | ended deadline hs => exact hkeep rfl (by simp [isOver, hs])
  | queued r hover =>
    have hnone := hlost hover
    exact ⟨[], by simp [queuedReplies, unqueuedReplies, hqueue, hnone], fun _ => rfl⟩
  | unlinked => exact hsame rfl rfl
  | ignored => exact hsame rfl rfl
  | heard e rest _ => exact hsame rfl rfl
  | aborted _ =>
    refine ⟨s.replies ++ lost, ?_, fun hover => ?_⟩
    · simp [(abort_left s).2.2.2, hqueue]
    · simp [abort_isOver] at hover
  | cutOff c _ =>
    refine ⟨s.replies ++ lost, ?_, fun hover => ?_⟩
    · simp [(abort_left s).2.2.2, hqueue, queuedReplies, unqueuedReplies]
    · simp [abort_isOver] at hover

theorem queued_run (object : ObjectSpec) (retry : Nat) (acts : List Act) :
    Queued (observed.run { object := object, retry := retry } acts).1
      (observed.run { object := object, retry := retry } acts).2 :=
  observed.run_invariant ⟨[], rfl, fun _ => rfl⟩ (fun s _ a hq => hq.does (s.does a)) acts

/-! ## Where replies go -/

/-- Whether a reply is being written. -/
def isWriting (s : Session) : Bool :=
  match s.stage with
  | .writing _ _ => true
  | .stalled _ => true
  | _ => false

theorem settled_or_writing {s : Session} {h : List Note} (hr : Routed s h) :
    due (current h) = writtenReplies (current h) ∨
      ∃ r, due (current h) = writtenReplies (current h) ++ [r] ∧
        (.unwritten ∈ current h ∨ s.isWriting = true) := by
  by_cases hw : ∃ c r, s.stage = .writing c r ∨ s.stage = .stalled c
  · obtain ⟨c, r, hs⟩ := hw
    rcases hs with hs | hs
    · exact Or.inr ⟨r, hr.standing_of hs, Or.inr (by simp [isWriting, hs])⟩
    · obtain ⟨q, hdue⟩ : ∃ q, due (current h) = writtenReplies (current h) ++ [q] :=
        hr.standing_of hs
      exact Or.inr ⟨q, hdue, Or.inr (by simp [isWriting, hs])⟩
  · have hstage : ∀ c r, s.stage ≠ .writing c r ∧ s.stage ≠ .stalled c := fun c r =>
      ⟨fun hs => hw ⟨c, r, Or.inl hs⟩, fun hs => hw ⟨c, r, Or.inr hs⟩⟩
    rcases hr.settled_current hstage with hall | ⟨hunwritten, r, hdue⟩
    · exact Or.inl hall
    · exact Or.inr ⟨r, hdue, Or.inl hunwritten⟩

/-- A reply that is not due writes nothing and changes nothing but the queue. -/
theorem step_taken_of_not_due {s : Session} {h : List Note} (hr : Routed s h) {r : Reply}
    {rest : List Reply} (hqueue : s.replies = r :: rest)
    (hnot : (∃ deadline, s.stage = .pausing deadline) ∨
      (∃ c, s.stage = .serving c) ∧ openCall? r.id (current h) = none) (now : Nat) :
    s.step now .taken = ([], { s with replies := rest }) := by
  rcases hnot with ⟨d, hs⟩ | ⟨⟨c, hs⟩, hopen⟩
  · simp [step, hs, hqueue]
  · have hcall : List.lookup r.id s.inFlight = none := by
      rw [hr.calls c (by simp [hs, Stage.connection?]) r.id, hopen]
    simp [step, hs, take, hqueue, hcall]

/-- Reply routing. In every run of a session in which its numbers do not wrap around,

* every call has a number of its own, and replies leave the queue in the order they came in;
* the replies written to the `k`-th connection are, in order, those due on it, but for the last one
  if its write failed, was given up, or is still under way; and they are written to that connection;
* a reply that is not due, or is taken without a connection, does nothing. -/
theorem written_eq_due (object : ObjectSpec) (retry : Nat) (acts : List Act)
    (hcalls : (numbersOf (observed.run { object := object, retry := retry } acts).2).length
      < UInt32.size) :
    let s := (observed.run { object := object, retry := retry } acts).1
    let h := (observed.run { object := object, retry := retry } acts).2
    ((numbersOf h).Nodup ∧ unqueuedReplies h <+: queuedReplies h) ∧
      (∀ k,
        (due (during k h) = writtenReplies (during k h) ∨
          ∃ r, due (during k h) = writtenReplies (during k h) ++ [r] ∧
            (.unwritten ∈ during k h ∨ k = connections h ∧ s.isWriting = true)) ∧
        ∀ c r, .did (.written c r) ∈ during k h → .did (.connect (some c)) ∈ during k h) ∧
      ∀ now r rest, s.replies = r :: rest →
        (∃ deadline, s.stage = .pausing deadline) ∨
          (∃ c, s.stage = .serving c) ∧ openCall? r.id (during (connections h) h) = none →
        s.step now .taken = ([], { s with replies := rest }) := by
  intro s h
  have hr : Routed s h := routed_run object retry acts
  refine ⟨⟨?_, ?_⟩, fun k => ⟨?_, hr.addressed k⟩, ?_⟩
  · rw [hr.numbers]
    exact nodup_numbersGiven (Nat.le_of_lt hcalls)
  · obtain ⟨lost, hqueue, -⟩ := queued_run object retry acts
    exact ⟨s.replies ++ lost, by rw [← List.append_assoc]; exact hqueue.symm⟩
  · -- Earlier connections are settled; a reply may be on its way out on the current one.
    rcases Nat.lt_trichotomy k (connections h) with hk | rfl | hk
    · rcases hr.settled k hk with hall | ⟨hunwritten, r, hdue⟩
      · exact Or.inl hall
      · exact Or.inr ⟨r, hdue, Or.inl hunwritten⟩
    · rcases settled_or_writing hr with hall | ⟨r, hdue, hwhy⟩
      · exact Or.inl hall
      · exact Or.inr ⟨r, hdue, hwhy.imp_right fun hw => ⟨rfl, hw⟩⟩
    · rw [during_eq_nil hk]
      exact Or.inl rfl
  · exact fun now r rest hqueue hnot => step_taken_of_not_due hr hqueue hnot now

/-- A run over two connections on which the bus uses the same number: the call of the first one is
answered only after the second one is made, then the call of the second one is answered twice. -/
def lateReply : List Act :=
  [.move 0 (.connected 0), .move 0 .registered, .move 0 (.received ⟨7, "demo", "ping", none⟩),
    .move 0 .hungUp, .move 10 .resumed, .move 10 (.connected 1), .move 10 .registered,
    .move 10 (.received ⟨7, "demo", "ping", none⟩), .reply ⟨0, .noData, none⟩,
    .reply ⟨1, .ok, none⟩, .reply ⟨1, .timeout, none⟩, .move 10 .taken, .move 10 .taken,
    .move 10 .written, .move 10 .taken]

theorem written_eq_due_lateReply :
    let h := (observed.run { object := ⟨"demo", ["ping"]⟩, retry := 10 } lateReply).2
    (numbersOf h).length < UInt32.size ∧ (numbersOf h).Nodup ∧
      (due (during 2 h) = writtenReplies (during 2 h) ∨ .unwritten ∈ during 2 h) ∧
      writtenReplies (during 1 h) = [] ∧ writtenReplies (during 2 h) = [⟨7, .ok, none⟩] := by
  intro h
  have hcalls : (numbersOf h).length < UInt32.size := by decide
  obtain ⟨⟨hnodup, -⟩, hwritten, -⟩ := written_eq_due ⟨"demo", ["ping"]⟩ 10 lateReply hcalls
  refine ⟨hcalls, hnodup, ?_, rfl, rfl⟩
  rcases (hwritten 2).1 with hall | ⟨r, -, hunwritten | ⟨-, hwriting⟩⟩
  · exact Or.inl hall
  · exact Or.inr hunwritten
  · cases hwriting

/-- The replies that would be due if a reply used up its number even before the number is given to
a call. -/
def dueOnce : List Note → List Reply
  | [] => []
  | .taken r :: past =>
    dueOnce past ++
      (if r.id ∈ (unqueuedReplies past).map (·.id) then none
        else (openCall? r.id past).map fun bus => { r with id := bus }).toList
  | _ :: past => dueOnce past

/-- A run in which the owner answers a call twice, the first time before the call arrives. -/
def earlyReply : List Act :=
  [.move 0 (.connected 0), .move 0 .registered, .reply ⟨0, .ok, none⟩, .move 0 .taken,
    .move 0 (.received ⟨7, "demo", "ping", none⟩), .reply ⟨0, .ok, none⟩, .move 0 .taken,
    .move 0 .written]

/-- A reply that comes before its number is given out does not use the number up: the call that is
given the number later can still be answered. -/
theorem not_written_eq_dueOnce :
    ¬ ∀ (object : ObjectSpec) (retry : Nat) (acts : List Act),
      let h := (observed.run { object := object, retry := retry } acts).2
      (numbersOf h).length < UInt32.size →
        ∀ k, writtenReplies (during k h) <+: dueOnce (during k h) := by
  intro hall
  have hprefix := hall ⟨"demo", ["ping"]⟩ 10 earlyReply (by decide) 1
  have hwritten : writtenReplies (during 1 (observed.run
      { object := ⟨"demo", ["ping"]⟩, retry := 10 } earlyReply).2) = [⟨7, .ok, none⟩] := rfl
  have hdue : dueOnce (during 1 (observed.run
      { object := ⟨"demo", ["ping"]⟩, retry := 10 } earlyReply).2) = [] := rfl
  rw [hwritten, hdue, List.prefix_nil] at hprefix
  cases hprefix

end ScriptService.Session
