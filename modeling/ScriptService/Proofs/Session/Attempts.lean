import ScriptService.Proofs.Session.Answers
import ScriptService.Proofs.Session.Facts

/-!
# Attempts of a session

A session makes one attempt after the other to keep its object on the bus. An attempt fails, or it
leads to a connection that is served until it is lost; only the last one may still be under way, or
be given up by the owner. What the owner is told follows the attempts: that there is a connection,
then the calls that arrive on it, then that it is lost.

Main statement: `Session.orderly_run`.
-/

namespace ScriptService.Session

/-! ## What a history says -/

/-- Whether a fact is part of an attempt. The owner takes events and closes the link, and replies
are written, at any time. -/
def Fact.counts : Fact → Bool
  | .written _ _ => false
  | .heard _ => false
  | .unlinked => false
  | .forced => false
  | _ => true

/-- What happened in the attempts, in order. -/
def proceedings (h : List Fact) : List Fact := (h.filter Fact.counts).reverse

/-- The events that the owner was sent, in order. -/
def sentEvents : List Fact → List BusEvent
  | [] => []
  | .told e :: past => sentEvents past ++ [e]
  | _ :: past => sentEvents past

/-- The events that the owner took, in order. -/
def heardEvents : List Fact → List BusEvent
  | [] => []
  | .heard e :: past => heardEvents past ++ [e]
  | _ :: past => heardEvents past

/-- The connections that were made and are not dropped yet. -/
def openConnections : List Fact → List ConnectionId
  | [] => []
  | .made c :: past => c :: openConnections past
  | .dropped c :: past => (openConnections past).erase c
  | _ :: past => openConnections past

/-- The numbers under which the owner was told of calls, in order. -/
def toldNumbers (h : List Fact) : List RequestId := (waitingCalls (sentEvents h)).map (·.id)

/-! ## Attempts -/

/-- An attempt that is over. The calls that arrived on a connection are given with the numbers of
the session's own. -/
inductive Attempt where
  | unreached
  | refused (c : ConnectionId)
  | served (c : ConnectionId) (calls : List (Request × RequestId))
  deriving Inhabited

/-- The calls that arrive on a connection: each is told to the owner as it arrives, changed only in
its number. -/
def handOver (c : ConnectionId) (calls : List (Request × RequestId)) : List Fact :=
  calls.flatMap fun p => [.received c p.1, .told (.call { p.1 with id := p.2 })]

/-- What happens on a connection while it is served. -/
def service (c : ConnectionId) (calls : List (Request × RequestId)) : List Fact :=
  [.made c, .registered c, .told .connected] ++ handOver c calls

/-- What happens in an attempt. -/
def Attempt.facts : Attempt → List Fact
  | .unreached => [.unreached]
  | .refused c => [.made c, .refused c, .dropped c]
  | .served c calls => service c calls ++ [.lost c, .told .disconnected, .dropped c]

/-- What has happened in the last attempt, which is under way or was given up. -/
inductive Stands (s : Session) : List Fact → Prop where
  /-- Nothing has happened yet. -/
  | waiting (h : s.stage.connection? = none) : Stands s []
  | registering (c : ConnectionId) (h : s.stage = .registering c) : Stands s [.made c]
  | serving (c : ConnectionId) (calls : List (Request × RequestId)) (h : s.stage.ServesOn c) :
      Stands s (service c calls)
  /-- The owner ended the session while the object was being registered. -/
  | withdrawn (c : ConnectionId) (h : s.stage = .ended) : Stands s [.made c, .dropped c]
  /-- The owner closed the link, or ended the session. -/
  | closed (c : ConnectionId) (calls : List (Request × RequestId)) (h : s.stage = .ended) :
      Stands s (service c calls ++ [.dropped c])
  /-- The owner does not listen, so there is nobody to tell that the object is registered. -/
  | unannounced (c : ConnectionId) (h : s.stage = .ended) (hheard : s.heard = false) :
      Stands s [.made c, .registered c, .dropped c]
  /-- The owner does not listen, so there is nobody to tell of a call or of the loss. -/
  | unheard (c : ConnectionId) (calls : List (Request × RequestId)) (f : Fact)
      (hf : (∃ r, f = .received c r) ∨ f = .lost c) (h : s.stage = .ended)
      (hheard : s.heard = false) : Stands s (service c calls ++ [f, .dropped c])

/-- The events of a connection from its beginning to its end. -/
def episode (calls : List Request) : List BusEvent :=
  .connected :: calls.map .call ++ [.disconnected]

/-- What holds of a session and the facts of its run. -/
structure Orderly (s : Session) (h : List Fact) : Prop where
  /-- A run is one attempt after the other; only the last one may not be over. -/
  attempts : ∃ (attempts : List Attempt) (last : List Fact),
    proceedings h = attempts.flatMap Attempt.facts ++ last ∧ Stands s last
  /-- The owner is sent the events of one connection after the other. -/
  shape : ∃ episodes : List (List Request), sentEvents h <+: episodes.flatMap episode
  /-- Calls are numbered in the order in which they arrive. -/
  numbered : toldNumbers h = numbersGiven (toldNumbers h).length
  /-- The owner takes events in the order in which they are sent, and none is lost as long as it
  listens. -/
  heard : heardEvents h <+: sentEvents h ∧
    (s.heard = true → sentEvents h = heardEvents h ++ s.events)
  /-- There is one connection at most: the one that the session holds. -/
  single : openConnections h = s.stage.connection?.toList

/-! ## Histories in two parts -/

theorem proceedings_append (ns h : List Fact) :
    proceedings (ns ++ h) = proceedings h ++ proceedings ns := by
  simp [proceedings]

theorem sentEvents_append (ns h : List Fact) :
    sentEvents (ns ++ h) = sentEvents h ++ sentEvents ns := by
  induction ns with
  | nil => simp [sentEvents]
  | cons n ns ih => cases n <;> simp [sentEvents, ih]

theorem heardEvents_append (ns h : List Fact) :
    heardEvents (ns ++ h) = heardEvents h ++ heardEvents ns := by
  induction ns with
  | nil => simp [heardEvents]
  | cons n ns ih => cases n <;> simp [heardEvents, ih]

theorem toldNumbers_append (ns h : List Fact) :
    toldNumbers (ns ++ h) = toldNumbers h ++ toldNumbers ns := by
  simp [toldNumbers, sentEvents_append, waitingCalls]

/-- What the owner was sent is part of what happened in the attempts. -/
theorem sentEvents_eq_proceedings (h : List Fact) :
    sentEvents h = sentEvents (proceedings h).reverse := by
  unfold proceedings
  rw [List.reverse_reverse]
  induction h with
  | nil => rfl
  | cons n h ih =>
    cases n with
    | told e =>
      show sentEvents h ++ [e] = sentEvents (h.filter Fact.counts) ++ [e]
      rw [ih]
    | _ => exact ih

/-! ## Where an attempt stands -/

section

variable {s t : Session} {last : List Fact}

theorem Stands.of_registering (hs : Stands s last) {c : ConnectionId}
    (h : s.stage = .registering c) : last = [.made c] := by
  cases hs with
  | waiting hnone => simp [h, Stage.connection?] at hnone
  | registering d hd =>
    rw [h] at hd
    cases hd
    rfl
  | serving d calls hd =>
    rw [h] at hd
    cases hd.2
  | _ => simp_all

theorem Stands.of_servesOn (hs : Stands s last) {c : ConnectionId} (h : s.stage.ServesOn c) :
    ∃ calls, last = service c calls := by
  have hover : s.stage ≠ .ended := by
    intro hended
    rw [hended] at h
    cases h.2
  cases hs with
  | waiting hnone =>
    rw [h.1] at hnone
    cases hnone
  | registering d hd =>
    rw [hd] at h
    cases h.2
  | serving d calls hd =>
    obtain rfl : d = c := Option.some.inj (hd.1.symm.trans h.1)
    exact ⟨calls, rfl⟩
  | withdrawn d hd => exact absurd hd hover
  | closed d calls hd => exact absurd hd hover
  | unannounced d hd _ => exact absurd hd hover
  | unheard d calls f _ hd _ => exact absurd hd hover

/-- A session that holds no connection and goes on has begun nothing. -/
theorem Stands.of_waiting (hs : Stands s last) (hnone : s.stage.connection? = none)
    (hover : s.stage ≠ .ended) : last = [] := by
  cases hs with
  | waiting _ => rfl
  | registering d hd => simp [hd, Stage.connection?] at hnone
  | serving d calls hd =>
    rw [hd.1] at hnone
    cases hnone
  | withdrawn d hd => exact absurd hd hover
  | closed d calls hd => exact absurd hd hover
  | unannounced d hd _ => exact absurd hd hover
  | unheard d calls f _ hd _ => exact absurd hd hover

/-- The owner's side of a session, its queues and its numbers do not matter. -/
theorem Stands.same (hs : Stands s last) (hstage : t.stage = s.stage)
    (hheard : s.heard = false → t.heard = false) : Stands t last := by
  cases hs with
  | waiting h => exact .waiting (by rw [hstage]; exact h)
  | registering c h => exact .registering c (hstage.trans h)
  | serving c calls h => exact .serving c calls (by rw [hstage]; exact h)
  | withdrawn c h => exact .withdrawn c (hstage.trans h)
  | closed c calls h => exact .closed c calls (hstage.trans h)
  | unannounced c h hs => exact .unannounced c (hstage.trans h) (hheard hs)
  | unheard c calls f hf h hs => exact .unheard c calls f hf (hstage.trans h) (hheard hs)

end

/-! ## Steps -/

section

variable {s t : Session} {a : Act} {ns h : List Fact}

/-- A history in which all attempts but the last one are over. -/
def Unfolds (s : Session) (h : List Fact) : Prop :=
  ∃ (attempts : List Attempt) (last : List Fact),
    proceedings h = attempts.flatMap Attempt.facts ++ last ∧ Stands s last

/-- The last attempt goes on. -/
theorem Unfolds.extend (hu : Unfolds s h) (ns : List Fact)
    (hstands : ∀ last, Stands s last → Stands t (last ++ proceedings ns)) :
    Unfolds t (ns ++ h) := by
  obtain ⟨attempts, last, heq, hlast⟩ := hu
  refine ⟨attempts, last ++ proceedings ns, ?_, hstands last hlast⟩
  rw [proceedings_append, heq, List.append_assoc]

/-- The last attempt comes to an end, and nothing has happened in the next one. -/
theorem Unfolds.conclude (hu : Unfolds s h) (ns : List Fact)
    (hfacts : ∀ last, Stands s last → ∃ attempt : Attempt, last ++ proceedings ns = attempt.facts)
    (hnone : t.stage.connection? = none) : Unfolds t (ns ++ h) := by
  obtain ⟨attempts, last, heq, hlast⟩ := hu
  obtain ⟨attempt, hattempt⟩ := hfacts last hlast
  refine ⟨attempts ++ [attempt], [], ?_, .waiting hnone⟩
  rw [proceedings_append, heq, List.append_assoc, hattempt]
  simp

/-- What does not count leaves the last attempt as it is. -/
theorem Unfolds.quiet (hu : Unfolds s h) (hns : proceedings ns = [])
    (hstands : ∀ last, Stands s last → Stands t last) : Unfolds t (ns ++ h) := by
  apply hu.extend
  intro last hlast
  rw [hns, List.append_nil]
  exact hstands last hlast

/-- A call that arrives is one more call of the connection. -/
theorem service_append (c : ConnectionId) (calls : List (Request × RequestId)) (r : Request)
    (id : RequestId) :
    service c calls ++ [.received c r, .told (.call { r with id })] =
      service c (calls ++ [(r, id)]) := by
  simp [service, handOver]

theorem Unfolds.tells (hu : Unfolds s h) (htells : Tells s a ns t) : Unfolds t (ns ++ h) := by
  -- A connection that is served stays so while replies are taken and written.
  have hserves : ∀ {c : ConnectionId}, s.stage.ServesOn c → t.stage.ServesOn c →
      proceedings ns = [] → Unfolds t (ns ++ h) := by
    intro c hs ht hns
    apply hu.quiet hns
    intro last hlast
    obtain ⟨calls, rfl⟩ := hlast.of_servesOn hs
    exact .serving c calls ht
  have hsame : t.stage = s.stage → (s.heard = false → t.heard = false) → proceedings ns = [] →
      Unfolds t (ns ++ h) :=
    fun hstage hheard hns => hu.quiet hns fun last hlast => hlast.same hstage hheard
  cases htells with
  | idle => exact hsame rfl id rfl
  | unreached now hs =>
    apply hu.conclude _ _ rfl
    intro last hlast
    rw [hlast.of_waiting (by simp [hs, Stage.connection?]) (by simp [hs])]
    exact ⟨.unreached, rfl⟩
  | made now c hs =>
    apply hu.extend
    intro last hlast
    rw [hlast.of_waiting (by simp [hs, Stage.connection?]) (by simp [hs])]
    exact .registering c rfl
  | registered now c hs _ =>
    apply hu.extend
    intro last hlast
    rw [hlast.of_registering hs]
    exact .serving c [] ⟨rfl, rfl⟩
  | refused now c e hs =>
    apply hu.conclude _ _ rfl
    intro last hlast
    rw [hlast.of_registering hs]
    exact ⟨.refused c, rfl⟩
  | received now c r hs _ =>
    apply hu.extend
    intro last hlast
    obtain ⟨calls, rfl⟩ := hlast.of_servesOn (servesOn_serving hs)
    show Stands (s.forward r) (service c calls ++ [.received c r, .told (.call _)])
    rw [service_append]
    refine .serving c _ ?_
    show s.stage.ServesOn c
    exact servesOn_serving hs
  | passed now c q rest hs _ _ => exact hsame rfl id rfl
  | taken now c q rest bus hs _ _ => exact hserves (servesOn_serving hs) ⟨rfl, rfl⟩ rfl
  | written now c q hs => exact hserves (servesOn_writing hs) ⟨rfl, rfl⟩ rfl
  | stalled now c q hs => exact hserves (servesOn_writing hs) ⟨rfl, rfl⟩ rfl
  | lost now m c hs _ =>
    apply hu.conclude _ _ rfl
    intro last hlast
    obtain ⟨calls, rfl⟩ := hlast.of_servesOn hs
    exact ⟨.served c calls, rfl⟩
  | closed now c hs =>
    apply hu.extend
    intro last hlast
    obtain ⟨calls, rfl⟩ := hlast.of_servesOn (servesOn_serving hs)
    exact .closed c calls rfl
  | unheard now m c f hheard hs =>
    apply hu.extend
    intro last hlast
    rcases hs with ⟨hs, rfl⟩ | ⟨hs, hf⟩
    · rw [hlast.of_registering hs]
      exact .unannounced c rfl hheard
    · obtain ⟨calls, rfl⟩ := hlast.of_servesOn hs
      have hcounts : proceedings [.dropped c, f] = [f, .dropped c] := by
        rcases hf with ⟨r, rfl⟩ | rfl
        · rfl
        · rfl
      rw [hcounts]
      exact .unheard c calls f hf rfl hheard
  | discarded now deadline q rest hs _ => exact hsame rfl id rfl
  | resumed now deadline hs =>
    apply hu.quiet rfl
    intro last hlast
    rw [hlast.of_waiting (by simp [hs, Stage.connection?]) (by simp [hs])]
    exact .waiting rfl
  | ended now deadline hs =>
    apply hu.quiet rfl
    intro last hlast
    rw [hlast.of_waiting (by simp [hs, Stage.connection?]) (by simp [hs])]
    exact .waiting rfl
  | queued q _ => exact hsame rfl id rfl
  | unlinked => exact hsame rfl id rfl
  | ignored => exact hsame rfl (fun _ => rfl) rfl
  | heard e rest _ => exact hsame rfl id rfl
  | withdrawn c hs =>
    have hended : s.abort.2.stage = .ended := by simp [abort, hs]
    apply hu.extend
    intro last hlast
    show Stands s.abort.2 (last ++ [.dropped c])
    by_cases hserve : s.stage.serves = true
    · obtain ⟨calls, rfl⟩ := hlast.of_servesOn ⟨hs, hserve⟩
      exact .closed c calls hended
    · have hregistering : s.stage = .registering c := by
        cases hstage : s.stage with
        | registering d => simpa [hstage, Stage.connection?] using hs
        | _ => simp_all [Stage.connection?, Stage.serves]
      rw [hlast.of_registering hregistering]
      exact .withdrawn c hended
  | aborted hs =>
    have hended : s.abort.2.stage = .ended := by simp [abort, hs]
    have hheard : s.abort.2.heard = s.heard := by simp [abort, hs]
    have hns : proceedings (if s.isOver then [] else [Fact.forced]) = [] := by
      by_cases hover : s.isOver = true
      · simp [hover, proceedings]
      · simp [hover, proceedings, Fact.counts]
    apply hu.quiet hns
    intro last hlast
    by_cases hover : s.stage = .ended
    · exact hlast.same (hended.trans hover.symm) (fun h => hheard.trans h)
    · rw [hlast.of_waiting hs hover]
      exact .waiting (by rw [hended]; rfl)

/-- An act gives a number to a call that it tells of, and to none else. -/
theorem Tells.numbers (htells : Tells s a ns t) :
    (toldNumbers ns = [] ∧ t.nextId = s.nextId) ∨
      (toldNumbers ns = [s.nextId] ∧ t.nextId = s.nextId + 1) := by
  cases htells with
  | received now c r _ _ => exact Or.inr ⟨rfl, rfl⟩
  | unheard now m c f _ hs =>
    rcases hs with ⟨-, rfl⟩ | ⟨-, ⟨r, rfl⟩ | rfl⟩
    · exact Or.inl ⟨rfl, rfl⟩
    · exact Or.inl ⟨rfl, rfl⟩
    · exact Or.inl ⟨rfl, rfl⟩
  | withdrawn c hs => exact Or.inl ⟨rfl, (abort_left s).2.1⟩
  | aborted hs =>
    refine Or.inl ⟨?_, (abort_left s).2.1⟩
    by_cases hover : s.isOver = true
    · simp [hover, toldNumbers, sentEvents, waitingCalls]
    · simp [hover, toldNumbers, sentEvents, waitingCalls]
  | _ => exact Or.inl ⟨rfl, rfl⟩

/-- What an act sends stands behind what waits for the owner, who takes from the front; only an
owner that stops listening loses what waits. -/
theorem Tells.mail (htells : Tells s a ns t) :
    (t = s.ignore ∧ ns = []) ∨
      (s.events ++ sentEvents ns = heardEvents ns ++ t.events ∧ t.heard = s.heard ∧
        (s.heard = false → sentEvents ns = [])) := by
  have hkept : ∀ {t : Session} {ns : List Fact}, sentEvents ns = [] → heardEvents ns = [] →
      t.events = s.events → t.heard = s.heard →
        s.events ++ sentEvents ns = heardEvents ns ++ t.events ∧ t.heard = s.heard ∧
          (s.heard = false → sentEvents ns = []) := by
    intro t ns hsent hheard hevents hsame
    refine ⟨?_, hsame, fun _ => hsent⟩
    rw [hsent, hheard, hevents]
    simp
  cases htells with
  | ignored => exact Or.inl ⟨rfl, rfl⟩
  | registered now c _ hheard => exact Or.inr ⟨rfl, rfl, fun h => by simp [hheard] at h⟩
  | received now c r _ hheard => exact Or.inr ⟨rfl, rfl, fun h => by simp [hheard] at h⟩
  | lost now m c _ hheard => exact Or.inr ⟨rfl, rfl, fun h => by simp [hheard] at h⟩
  | heard e rest hevents =>
    refine Or.inr ⟨?_, rfl, fun _ => rfl⟩
    rw [hevents]
    simp [sentEvents, heardEvents]
  | unheard now m c f _ hs =>
    rcases hs with ⟨-, rfl⟩ | ⟨-, ⟨r, rfl⟩ | rfl⟩
    · exact Or.inr (hkept rfl rfl rfl rfl)
    · exact Or.inr (hkept rfl rfl rfl rfl)
    · exact Or.inr (hkept rfl rfl rfl rfl)
  | withdrawn c hs => exact Or.inr (hkept rfl rfl (abort_events s) (by simp [abort, hs]))
  | aborted hs =>
    have hheard : s.abort.2.heard = s.heard := by simp [abort, hs]
    by_cases hover : s.isOver = true
    · simp only [hover, if_true]
      exact Or.inr (hkept rfl rfl (abort_events s) hheard)
    · simp only [hover]
      exact Or.inr (hkept rfl rfl (abort_events s) hheard)
  | _ => exact Or.inr (hkept rfl rfl rfl rfl)

/-- Only an owner that takes an event hears. -/
theorem heardEvents_facts {s : Session} {a : Act} (ha : a ≠ .hear) :
    heardEvents (s.facts a) = [] := by
  have htells := s.tells a
  generalize s.facts a = ns at htells ⊢
  generalize (s.act a).2 = t at htells
  cases htells with
  | heard e rest _ => exact absurd rfl ha
  | unheard now m c f _ hs =>
    rcases hs with ⟨-, rfl⟩ | ⟨-, ⟨r, rfl⟩ | rfl⟩
    · rfl
    · rfl
    · rfl
  | aborted _ =>
    by_cases hover : s.isOver = true
    · simp [hover, heardEvents]
    · simp [hover, heardEvents]
  | _ => rfl

/-- A connection is open while the session holds it. -/
theorem Tells.single (htells : Tells s a ns t)
    (hsingle : openConnections h = s.stage.connection?.toList) :
    openConnections (ns ++ h) = t.stage.connection?.toList := by
  -- A connection that is dropped was the one that is held.
  have hdropped : ∀ {c : ConnectionId}, s.stage.connection? = some c →
      (openConnections h).erase c = [] := by
    intro c hheld
    rw [hsingle, hheld]
    simp
  cases htells with
  | unreached now hs => simpa [openConnections, hs, Stage.connection?, pause] using hsingle
  | made now c hs =>
    have hnone : openConnections h = [] := by
      simpa [hs, Stage.connection?] using hsingle
    simp [openConnections, hnone, Stage.connection?]
  | registered now c hs _ => simpa [openConnections, hs, Stage.connection?] using hsingle
  | refused now c e hs => exact hdropped (by simp [hs, Stage.connection?])
  | taken now c q rest bus hs _ _ => simpa [hs, Stage.connection?] using hsingle
  | written now c q hs => simpa [openConnections, hs, Stage.connection?] using hsingle
  | stalled now c q hs => simpa [hs, Stage.connection?] using hsingle
  | lost now m c hs _ => exact hdropped hs.1
  | closed now c hs => exact hdropped (by simp [hs, Stage.connection?])
  | unheard now m c f _ hs =>
    rcases hs with ⟨hs, rfl⟩ | ⟨hs, ⟨r, rfl⟩ | rfl⟩
    · exact hdropped (by simp [hs, Stage.connection?])
    · exact hdropped hs.1
    · exact hdropped hs.1
  | resumed now deadline hs => simpa [hs, Stage.connection?] using hsingle
  | ended now deadline hs => simpa [hs, Stage.connection?] using hsingle
  | withdrawn c hs =>
    rw [(abort_left s).1]
    exact hdropped hs
  | aborted hs =>
    rw [(abort_left s).1]
    rw [hs] at hsingle
    by_cases hover : s.isOver = true
    · simpa [hover] using hsingle
    · simpa [hover, openConnections] using hsingle
  | _ => exact hsingle

/-- The invariant of a run. -/
structure Attempting (s : Session) (h : List Fact) : Prop where
  unfolds : Unfolds s h
  next : s.nextId = UInt32.ofNat (toldNumbers h).length
  numbered : toldNumbers h = numbersGiven (toldNumbers h).length
  /-- Events are missed only by an owner that does not listen. -/
  mail : ∃ missed, sentEvents h = heardEvents h ++ s.events ++ missed ∧
    (s.heard = true → missed = [])
  single : openConnections h = s.stage.connection?.toList

theorem attempting_init (object : ObjectSpec) (retry : Nat) :
    Attempting { object := object, retry := retry } [] where
  unfolds := ⟨[], [], rfl, .waiting rfl⟩
  next := rfl
  numbered := rfl
  mail := ⟨[], rfl, fun _ => rfl⟩
  single := rfl

theorem Attempting.tells (hs : Attempting s h) (htells : Tells s a ns t) :
    Attempting t (ns ++ h) where
  unfolds := hs.unfolds.tells htells
  next := by
    rw [toldNumbers_append]
    rcases htells.numbers with ⟨hnone, hsame⟩ | ⟨hone, hnext⟩
    · rw [hnone, hsame, List.append_nil]
      exact hs.next
    · rw [hone, hnext, hs.next]
      simp
  numbered := by
    rw [toldNumbers_append]
    rcases htells.numbers with ⟨hnone, -⟩ | ⟨hone, -⟩
    · rw [hnone, List.append_nil]
      exact hs.numbered
    · rw [hone, hs.next, List.length_append, List.length_singleton, numbersGiven_succ,
        ← hs.numbered]
  mail := by
    obtain ⟨missed, hsent, hmissed⟩ := hs.mail
    rw [sentEvents_append, heardEvents_append]
    rcases htells.mail with ⟨rfl, rfl⟩ | ⟨hevents, hheard, hdeaf⟩
    · refine ⟨s.events ++ missed, ?_, fun h => by cases h⟩
      rw [hsent]
      simp [ignore, sentEvents, heardEvents]
    · refine ⟨missed, ?_, fun h => hmissed (hheard.symm.trans h)⟩
      by_cases hlistens : s.heard = true
      · rw [hsent, hmissed hlistens, List.append_nil, List.append_nil, List.append_assoc, hevents,
          List.append_assoc]
      · rw [Bool.not_eq_true] at hlistens
        have hnone := hdeaf hlistens
        rw [hnone, List.append_nil] at hevents ⊢
        rw [hsent, hevents]
        simp
  single := htells.single hs.single

end

/-! ## What the owner is sent -/

/-- The events of an attempt, if its connection was served. -/
def Attempt.episodes : Attempt → List (List Request)
  | .served _ calls => [calls.map fun p => { p.1 with id := p.2 }]
  | _ => []

theorem sentEvents_reverse_append (l m : List Fact) :
    sentEvents (l ++ m).reverse = sentEvents l.reverse ++ sentEvents m.reverse := by
  rw [List.reverse_append, sentEvents_append]

theorem sentEvents_handOver (c : ConnectionId) (calls : List (Request × RequestId)) :
    sentEvents (handOver c calls).reverse = calls.map fun p => .call { p.1 with id := p.2 } := by
  induction calls with
  | nil => rfl
  | cons p calls ih =>
    have hcons : handOver c (p :: calls) =
        [.received c p.1, .told (.call { p.1 with id := p.2 })] ++ handOver c calls := rfl
    rw [hcons, sentEvents_reverse_append, ih]
    rfl

theorem sentEvents_service (c : ConnectionId) (calls : List (Request × RequestId)) :
    sentEvents (service c calls).reverse =
      .connected :: calls.map fun p => .call { p.1 with id := p.2 } := by
  unfold service
  rw [sentEvents_reverse_append, sentEvents_handOver]
  rfl

theorem sentEvents_attempt (a : Attempt) :
    sentEvents a.facts.reverse = a.episodes.flatMap episode := by
  cases a with
  | unreached => rfl
  | refused c => rfl
  | served c calls =>
    unfold Attempt.facts
    rw [sentEvents_reverse_append, sentEvents_service]
    simp [Attempt.episodes, episode, sentEvents]

theorem sentEvents_attempts (attempts : List Attempt) :
    sentEvents (attempts.flatMap Attempt.facts).reverse =
      (attempts.flatMap Attempt.episodes).flatMap episode := by
  induction attempts with
  | nil => rfl
  | cons a attempts ih =>
    rw [List.flatMap_cons, sentEvents_reverse_append, sentEvents_attempt, ih]
    simp

/-- What was sent of a connection that is not lost is the beginning of an episode. -/
theorem service_prefix (c : ConnectionId) (calls : List (Request × RequestId)) {rest : List Fact}
    (hrest : sentEvents rest.reverse = []) :
    ∃ episodes : List (List Request),
      sentEvents (service c calls ++ rest).reverse <+: episodes.flatMap episode := by
  refine ⟨[calls.map fun p => { p.1 with id := p.2 }], [.disconnected], ?_⟩
  rw [sentEvents_reverse_append, sentEvents_service, hrest]
  simp [episode]

theorem Stands.shape {s : Session} {last : List Fact} (hs : Stands s last) :
    ∃ episodes : List (List Request), sentEvents last.reverse <+: episodes.flatMap episode := by
  cases hs with
  | waiting _ => exact ⟨[], List.prefix_rfl⟩
  | registering c _ => exact ⟨[], List.prefix_rfl⟩
  | serving c calls _ =>
    have hprefix : ∃ episodes : List (List Request),
        sentEvents (service c calls ++ []).reverse <+: episodes.flatMap episode :=
      service_prefix c calls rfl
    rwa [List.append_nil] at hprefix
  | withdrawn c _ => exact ⟨[], List.prefix_rfl⟩
  | closed c calls _ => exact service_prefix c calls rfl
  | unannounced c _ _ => exact ⟨[], List.prefix_rfl⟩
  | unheard c calls f hf _ _ =>
    apply service_prefix c calls
    rcases hf with ⟨r, rfl⟩ | rfl
    · rfl
    · rfl

theorem Unfolds.shape {s : Session} {h : List Fact} (hu : Unfolds s h) :
    ∃ episodes : List (List Request), sentEvents h <+: episodes.flatMap episode := by
  obtain ⟨attempts, last, heq, hlast⟩ := hu
  obtain ⟨more, hmore⟩ := hlast.shape
  refine ⟨attempts.flatMap Attempt.episodes ++ more, ?_⟩
  rw [sentEvents_eq_proceedings, heq, sentEvents_reverse_append, sentEvents_attempts,
    List.flatMap_append]
  exact List.prefix_append_right_inj _ |>.2 hmore

theorem Attempting.orderly {s : Session} {h : List Fact} (hs : Attempting s h) : Orderly s h where
  attempts := hs.unfolds
  shape := hs.unfolds.shape
  numbered := hs.numbered
  heard := by
    obtain ⟨missed, hsent, hmissed⟩ := hs.mail
    refine ⟨⟨s.events ++ missed, ?_⟩, ?_⟩
    · rw [hsent, List.append_assoc]
    · intro hheard
      rw [hsent, hmissed hheard, List.append_nil]
  single := hs.single

/-- Every act keeps the invariant of a run. -/
theorem Attempting.act {s : Session} {h : List Fact} (hs : Attempting s h) (a : Act) :
    Attempting (s.act a).2 (s.facts a ++ h) :=
  hs.tells (s.tells a)

/-- What a session does for an owner that dispatches every call that it takes: what is noted, which
calls are dispatched, and the session after it. -/
inductive Deals (s : Session) : List Fact → List (Request × Dispatch) → Session → Prop where
  | rests : Deals s [] [] s
  | moved (now : Nat) (m : Move) (hheard : s.isOver = false → s.heard = true)
      (hpermits : s.Permits m) : Deals s (s.facts (.move now m)) [] (s.step now m).2
  /-- The session takes too long to end. -/
  | forced (hover : s.isOver = false) : Deals s (s.facts .abort) [] s.abort.2
  /-- The owner takes an event that is no call. -/
  | heard (e : BusEvent) (rest : List BusEvent) (hover : s.isOver = false)
      (hevents : s.events = e :: rest) (hcall : ∀ q, e ≠ .call q) :
      Deals s [.heard e] [] { s with events := rest }
  /-- The owner takes a call, dispatches it and queues the reply. -/
  | answered (q : Request) (rest : List BusEvent) (d : Dispatch) (hover : s.isOver = false)
      (hevents : s.events = .call q :: rest) :
      Deals s [.heard (.call q)] [(q, d)]
        (({ s with events := rest } : Session).reply (d.toReply q.id)).2
  | unlinked : Deals s [.unlinked] [] s.unlink
  | ignored (hover : s.isOver = true) : Deals s [] [] s.ignore

section

variable {s t : Session} {ns h : List Fact} {ds : List (Request × Dispatch)}

/-- What a session does for its owner is a run of its own. -/
theorem Deals.run (hdeals : Deals s ns ds t) : ∃ acts, attempted.run s acts = (t, ns) := by
  -- The owner takes an event.
  have hhear : ∀ {e : BusEvent} {rest : List BusEvent}, s.events = e :: rest →
      attempted.run s [.hear] = ({ s with events := rest }, [.heard e]) := by
    intro e rest hevents
    have hact : (s.act .hear).2 = { s with events := rest } := by
      simp [act, nextEvent, hevents]
    rw [attempted.run_singleton]
    show ((s.act .hear).2, s.facts .hear) = _
    rw [hact, facts_hear hevents]
  cases hdeals with
  | rests => exact ⟨[], rfl⟩
  | moved now m _ _ => exact ⟨[.move now m], attempted.run_singleton s _⟩
  | forced _ => exact ⟨[.abort], attempted.run_singleton s _⟩
  | heard e rest _ hevents _ => exact ⟨[.hear], hhear hevents⟩
  | answered q rest d _ hevents =>
    refine ⟨[.hear] ++ [.reply (d.toReply q.id)], ?_⟩
    rw [attempted.run_append, hhear hevents, attempted.run_singleton]
    show ((Session.reply _ _).2, facts _ (.reply _) ++ _) = _
    rw [facts_reply]
    rfl
  | unlinked =>
    refine ⟨[.unlink], ?_⟩
    rw [attempted.run_singleton]
    show (s.unlink, s.facts .unlink) = _
    rw [facts_unlink]
  | ignored _ =>
    refine ⟨[.ignore], ?_⟩
    rw [attempted.run_singleton]
    show (s.ignore, s.facts .ignore) = _
    rw [facts_ignore]

/-- The calls that are dispatched are those that the owner takes. -/
theorem Deals.dispatched (hdeals : Deals s ns ds t) :
    ds.map (·.1) = waitingCalls (heardEvents ns) := by
  cases hdeals with
  | rests => rfl
  | moved now m _ _ =>
    rw [heardEvents_facts (by simp)]
    rfl
  | forced _ =>
    rw [heardEvents_facts (by simp)]
    rfl
  | heard e rest _ _ hcall =>
    cases e with
    | call q => exact absurd rfl (hcall q)
    | _ => rfl
  | answered q rest d _ _ => rfl
  | unlinked => rfl
  | ignored _ => rfl

theorem Attempting.deals (hs : Attempting s h) (hdeals : Deals s ns ds t) :
    Attempting t (ns ++ h) ∧ t.object = s.object := by
  obtain ⟨acts, hrun⟩ := hdeals.run
  have hstart : (fun (u : Session) past => Attempting u past ∧ u.object = s.object) s h := ⟨hs, rfl⟩
  have hstep : ∀ (u : Session) past a, True → Attempting u past ∧ u.object = s.object →
      Attempting (u.act a).2 (u.facts a ++ past) ∧ (u.act a).2.object = s.object :=
    fun u past a _ hu => ⟨hu.1.act a, (u.object_act a).trans hu.2⟩
  have hacts : ∀ a ∈ acts, True := fun _ _ => trivial
  have hafter := attempted.run_invariant_from hstart hstep hacts
  rw [hrun] at hafter
  exact hafter

end

end ScriptService.Session
