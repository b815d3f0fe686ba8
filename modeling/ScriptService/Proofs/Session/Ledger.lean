import ScriptService.Proofs.Session.Attempts

/-!
# The accounts of a session

Which calls arrived on which connection, what was written to it, and whether it was lost: an account
kept of the facts of a run. Two connections may have the same name, so connections are counted.

Main statements: `Session.sound_ledger`, and the laws of `Session.answersOn` and
`Session.openCalls`.
-/

namespace ScriptService.Session

/-! ## Accounts -/

/-- A call that arrived. -/
structure Arrival where
  /-- Which connection it came on, counted from one. -/
  connection : Nat
  request : Request
  /-- The number that the session gave to it. -/
  id : RequestId
  deriving Inhabited

/-- The call as the owner is told of it. -/
def Arrival.told (a : Arrival) : Request := { a.request with id := a.id }

/-- The accounts of a session. -/
structure Ledger where
  /-- The connections that were made, latest first. -/
  made : List ConnectionId := []
  arrivals : List Arrival := []
  /-- The replies that were written, with the connections that they were written to. -/
  written : List (Nat × Reply) := []
  lost : List Nat := []
  deriving Inhabited

namespace Ledger

/-- The connection that was made last. -/
def latest (l : Ledger) : Nat := l.made.length

def note (l : Ledger) : Fact → Ledger
  | .made c => { l with made := c :: l.made }
  | .received _ r =>
    { l with arrivals := l.arrivals ++ [⟨l.latest, r, UInt32.ofNat l.arrivals.length⟩] }
  | .written _ q => { l with written := l.written ++ [(l.latest, q)] }
  | .lost _ => { l with lost := l.latest :: l.lost }
  | _ => l

/-- The replies that were written to a connection, in order. -/
def writtenTo (l : Ledger) (k : Nat) : List Reply :=
  (l.written.filter fun p => p.1 == k).map (·.2)

/-- A connection that no call came on and nothing was written to. -/
def Unused (l : Ledger) (k : Nat) : Prop :=
  (∀ a ∈ l.arrivals, a.connection ≠ k) ∧ l.writtenTo k = []

end Ledger

/-- The accounts of a history. -/
def ledger : List Fact → Ledger
  | [] => {}
  | f :: past => (ledger past).note f

/-- The replies to the calls of a connection that came of their dispatch, in order, under the
numbers of the bus. -/
def answersOn (k : Nat) (arrivals : List Arrival) (dispatched : List (Request × Dispatch)) :
    List Reply :=
  ((arrivals.zip dispatched).filter fun p => p.1.connection == k).map fun p =>
    p.2.2.toReply p.1.request.id

/-- The calls of a connection that are open, latest first: the number of the session and the number
of the bus. -/
def openCalls (k : Nat) (arrivals : List Arrival) : List (RequestId × RequestId) :=
  ((arrivals.filter fun a => a.connection == k).map fun a => (a.id, a.request.id)).reverse

/-! ## Sound accounts -/

/-- Nothing is noted of a connection before it is made, and calls are numbered in turn. -/
structure Ledger.Sound (l : Ledger) : Prop where
  arrivals : ∀ a ∈ l.arrivals, a.connection ≤ l.latest
  written : ∀ p ∈ l.written, p.1 ≤ l.latest
  numbered : l.arrivals.map (·.id) = numbersGiven l.arrivals.length

theorem Ledger.Sound.note {l : Ledger} (hl : l.Sound) (f : Fact) : (l.note f).Sound := by
  cases f with
  | made c =>
    refine ⟨?_, ?_, hl.numbered⟩
    · exact fun a ha => Nat.le_succ_of_le (hl.arrivals a ha)
    · exact fun p hp => Nat.le_succ_of_le (hl.written p hp)
  | received c r =>
    refine ⟨?_, hl.written, ?_⟩
    · intro a ha
      rcases List.mem_append.1 ha with ha | ha
      · exact hl.arrivals a ha
      · rw [List.mem_singleton.1 ha]
        exact Nat.le_refl _
    · simp [Ledger.note, hl.numbered, numbersGiven_succ]
  | written c q =>
    refine ⟨hl.arrivals, ?_, hl.numbered⟩
    intro p hp
    rcases List.mem_append.1 hp with hp | hp
    · exact hl.written p hp
    · rw [List.mem_singleton.1 hp]
      exact Nat.le_refl _
  | lost c => exact ⟨hl.arrivals, hl.written, hl.numbered⟩
  | _ => exact hl

theorem sound_ledger (h : List Fact) : (ledger h).Sound := by
  induction h with
  | nil => exact ⟨nofun, nofun, rfl⟩
  | cons f h ih => exact ih.note f

/-- A connection that is made is a new one. -/
theorem Ledger.Sound.unused {l : Ledger} (hl : l.Sound) (c : ConnectionId) :
    (l.note (.made c)).Unused (l.note (.made c)).latest := by
  have hlatest : (l.note (.made c)).latest = l.latest + 1 := rfl
  rw [hlatest]
  refine ⟨?_, ?_⟩
  · intro a ha
    exact Nat.ne_of_lt (Nat.lt_succ_of_le (hl.arrivals a ha))
  · have hnone : (l.written.filter fun p => p.1 == l.latest + 1) = [] := by
      rw [List.filter_eq_nil_iff]
      intro p hp heq
      exact absurd (hl.written p hp) (by simp_all)
    show (l.written.filter fun p => p.1 == l.latest + 1).map (·.2) = []
    rw [hnone]
    rfl

/-- The numbers of the calls that arrived last tell them apart. -/
theorem Ledger.Sound.nodup {l : Ledger} (hl : l.Sound) {done todo : List Arrival}
    (harrivals : l.arrivals = done ++ todo) (hroom : todo.length ≤ UInt32.size) :
    (todo.map (·.id)).Nodup := by
  have hdrop : todo.map (·.id) = (numbersGiven l.arrivals.length).drop done.length := by
    rw [← hl.numbered, harrivals, ← List.map_drop, List.drop_left]
  rw [hdrop]
  apply nodup_drop_numbersGiven
  rw [harrivals, List.length_append]
  exact Nat.add_le_add_left hroom _

/-- No arrival is forgotten. -/
theorem length_arrivals_le {past h : List Fact} (hpast : past <:+ h) :
    (ledger past).arrivals.length ≤ (ledger h).arrivals.length := by
  induction h with
  | nil =>
    rw [List.suffix_nil.1 hpast]
  | cons f h ih =>
    rcases List.suffix_cons_iff.1 hpast with rfl | hpast
    · exact Nat.le_refl _
    · have hnote : (ledger h).arrivals.length ≤ (ledger (f :: h)).arrivals.length := by
        cases f with
        | received c r => simp [ledger, Ledger.note]
        | _ => exact Nat.le_refl _
      exact (ih hpast).trans hnote

/-! ## Answers -/

section

variable {k : Nat} {done todo : List Arrival} {ds : List (Request × Dispatch)}

theorem answersOn_append (hlength : done.length = ds.length) (a : Arrival)
    (p : Request × Dispatch) :
    answersOn k (done ++ [a]) (ds ++ [p]) =
      answersOn k done ds ++ if a.connection = k then [p.2.toReply a.request.id] else [] := by
  unfold answersOn
  rw [List.zip_append hlength, List.filter_append, List.map_append]
  by_cases hk : a.connection = k
  · simp [hk]
  · simp [hk]

/-- Calls that are not dispatched yet have no answers. -/
theorem answersOn_append_left (hlength : done.length = ds.length) :
    answersOn k (done ++ todo) ds = answersOn k done ds := by
  unfold answersOn
  have hzip : (done ++ todo).zip (ds ++ []) = done.zip ds ++ todo.zip [] :=
    List.zip_append hlength
  rw [List.append_nil, List.zip_nil_right, List.append_nil] at hzip
  rw [hzip]

theorem answersOn_eq_nil (hnone : ∀ a ∈ done, a.connection ≠ k) : answersOn k done ds = [] := by
  unfold answersOn
  rw [List.map_eq_nil_iff, List.filter_eq_nil_iff]
  intro p hp
  simpa using hnone p.1 (List.of_mem_zip hp).1

end

/-! ## Open calls -/

section

variable {k : Nat} {todo : List Arrival}

theorem openCalls_append (r : Request) (id : RequestId) :
    openCalls k (todo ++ [⟨k, r, id⟩]) = (id, r.id) :: openCalls k todo := by
  simp [openCalls]

theorem openCalls_cons (a : Arrival) :
    openCalls k (a :: todo) =
      openCalls k todo ++ if a.connection = k then [(a.id, a.request.id)] else [] := by
  unfold openCalls
  by_cases ha : a.connection = k
  · simp [ha]
  · simp [ha]

theorem openCalls_eq_nil (hnone : ∀ a ∈ todo, a.connection ≠ k) : openCalls k todo = [] := by
  unfold openCalls
  rw [List.reverse_eq_nil_iff, List.map_eq_nil_iff, List.filter_eq_nil_iff]
  exact fun a ha => by simpa using hnone a ha

theorem id_mem_of_mem_openCalls {p : RequestId × RequestId} (hp : p ∈ openCalls k todo) :
    p.1 ∈ todo.map (·.id) := by
  unfold openCalls at hp
  obtain ⟨a, ha, rfl⟩ := List.mem_map.1 (List.mem_reverse.1 hp)
  exact List.mem_map.2 ⟨a, (List.mem_filter.1 ha).1, rfl⟩

theorem filter_openCalls {id : RequestId} (hid : id ∉ todo.map (·.id)) :
    ((openCalls k todo).filter fun p => p.1 != id) = openCalls k todo := by
  rw [List.filter_eq_self]
  intro p hp
  have hne : p.1 ≠ id := by
    rintro rfl
    exact hid (id_mem_of_mem_openCalls hp)
  simpa using hne

/-- The first call is found if it came on the connection. -/
theorem lookup_openCalls {a : Arrival} (hnodup : ((a :: todo).map (·.id)).Nodup) :
    List.lookup a.id (openCalls k (a :: todo)) =
      if a.connection = k then some a.request.id else none := by
  have hnew : a.id ∉ todo.map (·.id) := (List.nodup_cons.1 hnodup).1
  have hnone : List.lookup a.id (openCalls k todo) = none := by
    rw [List.lookup_eq_none_iff]
    intro p hp
    have hne : a.id ≠ p.1 := by
      intro heq
      exact hnew (heq ▸ id_mem_of_mem_openCalls hp)
    simpa using hne
  rw [openCalls_cons, List.lookup_append, hnone]
  by_cases ha : a.connection = k
  · simp [ha]
  · simp [ha]

theorem filter_openCalls_cons {a : Arrival} (hnodup : ((a :: todo).map (·.id)).Nodup) :
    ((openCalls k (a :: todo)).filter fun p => p.1 != a.id) = openCalls k todo := by
  have hnew : a.id ∉ todo.map (·.id) := (List.nodup_cons.1 hnodup).1
  rw [openCalls_cons, List.filter_append, filter_openCalls hnew]
  by_cases ha : a.connection = k
  · simp [ha]
  · simp [ha]

end

end ScriptService.Session
