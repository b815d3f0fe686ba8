import ScriptService.Proofs.Session.Routing

/-!
# What happens to a session

The facts of a run: which connections were made and lost, what arrived on them and was written to
them, and what the owner was told. They are read off the moves of the session, and off what an act
adds to the events for the owner.

Main statement: `Session.tells`, which says once what an act can do and what is noted of it.
-/

namespace ScriptService.Session

/-! ## What is noted -/

/-- What is noted of a session that keeps its object on the bus. -/
inductive Fact where
  /-- An attempt to connect failed. -/
  | unreached
  /-- A connection was made. -/
  | made (c : ConnectionId)
  /-- The object was registered. -/
  | registered (c : ConnectionId)
  /-- The object was not registered. -/
  | refused (c : ConnectionId)
  | received (c : ConnectionId) (r : Request)
  | written (c : ConnectionId) (q : Reply)
  /-- A connection that was served is lost: the bus hung up, or reading or writing failed. -/
  | lost (c : ConnectionId)
  | dropped (c : ConnectionId)
  /-- The owner was sent an event. -/
  | told (e : BusEvent)
  /-- The owner took an event. -/
  | heard (e : BusEvent)
  /-- The owner closed the link. -/
  | unlinked
  /-- The session was ended by force. -/
  | forced
  deriving Inhabited

/-- What happens in an act, as far as it is no event of the session. -/
def happening (s : Session) : Act → Option Fact
  | .move _ m =>
    match s.stage, m with
    | .registering c, .registered => some (.registered c)
    | .registering c, .registrationFailed _ => some (.refused c)
    | .serving c, .received r => some (.received c r)
    | .serving c, .receiveFailed _ => some (.lost c)
    | .serving c, .hungUp => some (.lost c)
    | .writing c _, .writeFailed _ => some (.lost c)
    | _, _ => none
  | .hear => s.events.head?.map .heard
  | .unlink => some .unlinked
  | .abort => if s.isOver then none else some .forced
  | _ => none

/-- The events that an act sends to the owner. -/
def sends (s : Session) (a : Act) : List BusEvent := (s.act a).2.events.drop s.events.length

/-- What an event of the session tells of its connections. -/
def Fact.ofEvent? : SessionEvent → Option Fact
  | .connect none => some .unreached
  | .connect (some c) => some (.made c)
  | .written c q => some (.written c q)
  | .dropped c => some (.dropped c)
  | _ => none

/-- The facts of an act, latest first. -/
def facts (s : Session) (a : Act) : List Fact :=
  ((s.act a).1.filterMap Fact.ofEvent?).reverse ++ ((s.sends a).map .told).reverse ++
    (s.happening a).toList

/-- Sessions whose attempts are observed. -/
def attempted : Observed Session Act Fact := ⟨fun s a => (s.act a).2, facts⟩

/-! ## What an act can do -/

/-- The stages at which a connection is served. -/
def Stage.ServesOn (stage : Stage) (c : ConnectionId) : Prop :=
  stage.connection? = some c ∧ stage.serves = true

/-- What an act can do, what is noted of it, and the session after it. -/
inductive Tells (s : Session) : Act → List Fact → Session → Prop where
  | idle (a : Act) : Tells s a [] s
  | unreached (now : Nat) (h : s.stage = .connecting) :
      Tells s (.move now .connectFailed) [.unreached] (s.pause now)
  | made (now : Nat) (c : ConnectionId) (h : s.stage = .connecting) :
      Tells s (.move now (.connected c)) [.made c] { s with stage := .registering c }
  | registered (now : Nat) (c : ConnectionId) (h : s.stage = .registering c)
      (hheard : s.heard = true) :
      Tells s (.move now .registered) [.told .connected, .registered c]
        { s with stage := .serving c, events := s.events ++ [.connected] }
  | refused (now : Nat) (c : ConnectionId) (e : BusError) (h : s.stage = .registering c) :
      Tells s (.move now (.registrationFailed e)) [.dropped c, .refused c] (s.pause now)
  | received (now : Nat) (c : ConnectionId) (r : Request) (h : s.stage = .serving c)
      (hheard : s.heard = true) :
      Tells s (.move now (.received r)) [.told (.call { r with id := s.nextId }), .received c r]
        (s.forward r)
  /-- The reply taken answers no call of the connection. -/
  | passed (now : Nat) (c : ConnectionId) (q : Reply) (rest : List Reply) (h : s.stage = .serving c)
      (hqueue : s.replies = q :: rest) (hcall : List.lookup q.id s.inFlight = none) :
      Tells s (.move now .taken) [] { s with replies := rest }
  | taken (now : Nat) (c : ConnectionId) (q : Reply) (rest : List Reply) (bus : RequestId)
      (h : s.stage = .serving c) (hqueue : s.replies = q :: rest)
      (hcall : List.lookup q.id s.inFlight = some bus) :
      Tells s (.move now .taken) []
        { s with
          replies := rest
          inFlight := s.inFlight.filter fun p => p.1 != q.id
          stage := .writing c { q with id := bus } }
  | written (now : Nat) (c : ConnectionId) (q : Reply) (h : s.stage = .writing c q) :
      Tells s (.move now .written) [.written c q] { s with stage := .serving c }
  | stalled (now : Nat) (c : ConnectionId) (q : Reply) (h : s.stage = .writing c q) :
      Tells s (.move now .writeStalled) [] { s with stage := .stalled c }
  | lost (now : Nat) (m : Move) (c : ConnectionId) (h : s.stage.ServesOn c)
      (hheard : s.heard = true) :
      Tells s (.move now m) [.dropped c, .told .disconnected, .lost c]
        { s with
          inFlight := []
          stage := .pausing (now + s.retry)
          events := s.events ++ [.disconnected] }
  | closed (now : Nat) (c : ConnectionId) (h : s.stage = .serving c) :
      Tells s (.move now .closed) [.dropped c] { s with stage := .ended, inFlight := [] }
  /-- A session that nobody listens to ends when it has something to tell. -/
  | unheard (now : Nat) (m : Move) (c : ConnectionId) (f : Fact) (hheard : s.heard = false)
      (h : s.stage = .registering c ∧ f = .registered c ∨
        s.stage.ServesOn c ∧ ((∃ r, f = .received c r) ∨ f = .lost c)) :
      Tells s (.move now m) [.dropped c, f] { s with stage := .ended, inFlight := [] }
  | discarded (now deadline : Nat) (q : Reply) (rest : List Reply)
      (h : s.stage = .pausing deadline) (hqueue : s.replies = q :: rest) :
      Tells s (.move now .taken) [] { s with replies := rest }
  | resumed (now deadline : Nat) (h : s.stage = .pausing deadline) :
      Tells s (.move now .resumed) [] { s with stage := .connecting }
  | ended (now deadline : Nat) (h : s.stage = .pausing deadline) :
      Tells s (.move now .closed) [] { s with stage := .ended }
  | queued (q : Reply) (h : s.isOver = false) :
      Tells s (.reply q) [] { s with replies := s.replies ++ [q] }
  | unlinked : Tells s .unlink [.unlinked] s.unlink
  | ignored : Tells s .ignore [] s.ignore
  | heard (e : BusEvent) (rest : List BusEvent) (h : s.events = e :: rest) :
      Tells s .hear [.heard e] { s with events := rest }
  /-- The session is ended while it holds a connection. -/
  | withdrawn (c : ConnectionId) (h : s.stage.connection? = some c) :
      Tells s .abort [.dropped c, .forced] s.abort.2
  | aborted (h : s.stage.connection? = none) :
      Tells s .abort (if s.isOver then [] else [.forced]) s.abort.2


theorem servesOn_serving {s : Session} {c : ConnectionId} (h : s.stage = .serving c) :
    s.stage.ServesOn c := by
  rw [h]
  exact ⟨rfl, rfl⟩

theorem servesOn_writing {s : Session} {c : ConnectionId} {q : Reply}
    (h : s.stage = .writing c q) : s.stage.ServesOn c := by
  rw [h]
  exact ⟨rfl, rfl⟩

/-- An act is inverted by what it makes of the session and what is noted of it. -/
theorem Tells.of_eq {s t : Session} {a : Act} {ns : List Fact} (h : Tells s a ns t)
    (hfacts : s.facts a = ns) (hact : (s.act a).2 = t) : Tells s a (s.facts a) (s.act a).2 := by
  rw [hfacts, hact]
  exact h

theorem tells_take (s : Session) (now : Nat) (c : ConnectionId) (h : s.stage = .serving c) :
    Tells s (.move now .taken) (s.facts (.move now .taken)) (s.act (.move now .taken)).2 := by
  cases hq : s.replies with
  | nil =>
    refine (Tells.idle _).of_eq ?_ ?_
    · simp [facts, sends, happening, act, step, take, h, hq]
    · simp [act, step, take, h, hq]
  | cons q rest =>
    cases hc : List.lookup q.id s.inFlight with
    | none =>
      refine (Tells.passed now c q rest h hq hc).of_eq ?_ ?_
      · simp [facts, sends, happening, act, step, take, h, hq, hc]
      · simp [act, step, take, h, hq, hc]
    | some bus =>
      refine (Tells.taken now c q rest bus h hq hc).of_eq ?_ ?_
      · simp [facts, sends, happening, act, step, take, h, hq, hc]
      · simp [act, step, take, h, hq, hc]

/-- A connection that is served is lost, by a move that says so. -/
theorem tells_lose {s : Session} {now : Nat} {m : Move} {c : ConnectionId}
    (h : s.stage.ServesOn c) (hlost : s.happening (.move now m) = some (.lost c))
    {talk : List SessionEvent} (htalk : Talk talk)
    (hstep : s.step now m = (talk ++ [.dropped c], (s.lose now c).2)) :
    Tells s (.move now m) (s.facts (.move now m)) (s.act (.move now m)).2 := by
  have htold : (talk ++ [SessionEvent.dropped c]).filterMap Fact.ofEvent? = [.dropped c] := by
    have hsilent : talk.filterMap Fact.ofEvent? = [] := by
      rw [List.filterMap_eq_nil_iff]
      intro e he
      rcases htalk e he with ⟨d, rfl⟩ | ⟨d, object, rfl⟩
      · rfl
      · rfl
    rw [List.filterMap_append, hsilent]
    rfl
  by_cases hheard : s.heard = true
  · refine (Tells.lost now m c h hheard).of_eq ?_ ?_
    · simp [facts, sends, hlost, act, hstep, htold, lose, pause, hheard]
    · simp [act, hstep, lose, pause, hheard]
  · rw [Bool.not_eq_true] at hheard
    refine (Tells.unheard now m c (.lost c) hheard (Or.inr ⟨h, Or.inr rfl⟩)).of_eq ?_ ?_
    · simp [facts, sends, hlost, act, hstep, htold, lose, hheard]
    · simp [act, hstep, lose, hheard]

theorem tells_registered (s : Session) (now : Nat) (c : ConnectionId)
    (h : s.stage = .registering c) :
    Tells s (.move now .registered) (s.facts (.move now .registered))
      (s.act (.move now .registered)).2 := by
  by_cases hheard : s.heard = true
  · refine (Tells.registered now c h hheard).of_eq ?_ ?_
    · simp [facts, sends, happening, act, step, h, hheard, Fact.ofEvent?, diagnostic]
    · simp [act, step, h, hheard]
  · rw [Bool.not_eq_true] at hheard
    refine (Tells.unheard now _ c (.registered c) hheard (Or.inl ⟨h, rfl⟩)).of_eq ?_ ?_
    · simp [facts, sends, happening, act, step, h, hheard, finish]
      rfl
    · simp [act, step, h, hheard, finish]

theorem tells_received (s : Session) (now : Nat) (c : ConnectionId) (r : Request)
    (h : s.stage = .serving c) :
    Tells s (.move now (.received r)) (s.facts (.move now (.received r)))
      (s.act (.move now (.received r))).2 := by
  by_cases hheard : s.heard = true
  · refine (Tells.received now c r h hheard).of_eq ?_ ?_
    · simp [facts, sends, happening, act, step, h, hheard, forward]
    · simp [act, step, h, hheard]
  · rw [Bool.not_eq_true] at hheard
    refine (Tells.unheard now _ c (.received c r) hheard
      (Or.inr ⟨servesOn_serving h, Or.inl ⟨r, rfl⟩⟩)).of_eq ?_ ?_
    · simp [facts, sends, happening, act, step, h, hheard, Fact.ofEvent?, finish]
    · simp [act, step, h, hheard, finish]

theorem tells_discard (s : Session) (now deadline : Nat) (h : s.stage = .pausing deadline) :
    Tells s (.move now .taken) (s.facts (.move now .taken)) (s.act (.move now .taken)).2 := by
  cases hq : s.replies with
  | nil =>
    have hs : { s with stage := .pausing deadline, replies := [] } = s := by rw [← h, ← hq]
    refine (Tells.idle _).of_eq ?_ ?_
    · simp [facts, sends, happening, act, step, h]
    · simp only [act, step, h, hq, List.tail_nil]
      exact hs
  | cons q rest =>
    refine (Tells.discarded now deadline q rest h hq).of_eq ?_ ?_
    · simp [facts, sends, happening, act, step, h]
    · simp [act, step, h, hq]

theorem tells_move (s : Session) (now : Nat) (m : Move) :
    Tells s (.move now m) (s.facts (.move now m)) (s.act (.move now m)).2 := by
  -- A move that does not fit where the session stands.
  have hidle : s.step now m = ([], s) → s.happening (.move now m) = none →
      Tells s (.move now m) (s.facts (.move now m)) (s.act (.move now m)).2 := by
    intro hstep hnone
    refine (Tells.idle _).of_eq ?_ ?_
    · simp [facts, sends, hnone, act, hstep]
    · simp [act, hstep]
  cases h : s.stage with
  | connecting =>
    cases m with
    | connected c =>
      refine (Tells.made now c h).of_eq ?_ ?_
      · simp [facts, sends, happening, act, step, h, Fact.ofEvent?]
      · simp [act, step, h]
    | connectFailed =>
      refine (Tells.unreached now h).of_eq ?_ ?_
      · simp [facts, sends, happening, act, step, h, Fact.ofEvent?, pause]
      · simp [act, step, h]
    | _ => exact hidle (by simp [step, h]) (by simp [happening, h])
  | registering c =>
    cases m with
    | registered => exact tells_registered s now c h
    | registrationFailed e =>
      refine (Tells.refused now c e h).of_eq ?_ ?_
      · simp [facts, sends, happening, act, step, h, pause]
        rfl
      · simp [act, step, h]
    | _ => exact hidle (by simp [step, h]) (by simp [happening, h])
  | serving c =>
    cases m with
    | received r => exact tells_received s now c r h
    | receiveFailed e =>
      refine tells_lose (servesOn_serving h) (by simp [happening, h])
        (talk_cons_diagnostic .warn "Bus receive failed" [errorDetail e]
          (talk_cons_diagnostic .info "Lost bus connection" [s.objectDetail] talk_nil)) ?_
      simp [step, h, lose]
    | hungUp =>
      refine tells_lose (servesOn_serving h) (by simp [happening, h])
        (talk_cons_diagnostic .info "Lost bus connection" [s.objectDetail] talk_nil) ?_
      simp [step, h, lose]
    | taken => exact tells_take s now c h
    | closed =>
      refine (Tells.closed now c h).of_eq ?_ ?_
      · simp [facts, sends, happening, act, step, h, Fact.ofEvent?, finish]
      · simp [act, step, h, finish]
    | _ => exact hidle (by simp [step, h]) (by simp [happening, h])
  | writing c q =>
    cases m with
    | written =>
      refine (Tells.written now c q h).of_eq ?_ ?_
      · simp [facts, sends, happening, act, step, h, Fact.ofEvent?]
      · simp [act, step, h]
    | writeFailed e =>
      refine tells_lose (servesOn_writing h) (by simp [happening, h])
        (talk_cons_diagnostic .warn "Failed to send reply" [errorDetail e]
          (talk_cons_diagnostic .info "Lost bus connection" [s.objectDetail] talk_nil)) ?_
      simp [step, h, lose]
    | writeStalled =>
      refine (Tells.stalled now c q h).of_eq ?_ ?_
      · simp [facts, sends, happening, act, step, h]
      · simp [act, step, h]
    | _ => exact hidle (by simp [step, h]) (by simp [happening, h])
  | stalled c => exact hidle (by simp [step, h]) (by simp [happening, h])
  | pausing deadline =>
    cases m with
    | taken => exact tells_discard s now deadline h
    | resumed =>
      refine (Tells.resumed now deadline h).of_eq ?_ ?_
      · simp [facts, sends, happening, act, step, h]
      · simp [act, step, h]
    | closed =>
      refine (Tells.ended now deadline h).of_eq ?_ ?_
      · simp [facts, sends, happening, act, step, h]
      · simp [act, step, h]
    | _ => exact hidle (by simp [step, h]) (by simp [happening, h])
  | ended => exact hidle (by simp [step, h]) (by simp [happening, h])

theorem tells_abort (s : Session) : Tells s .abort (s.facts .abort) (s.act .abort).2 := by
  cases hheld : s.stage.connection? with
  | some c =>
    have hover : s.isOver = false := by
      unfold isOver
      cases h : s.stage with
      | ended => simp [h, Stage.connection?] at hheld
      | _ => rfl
    refine (Tells.withdrawn c hheld).of_eq ?_ rfl
    simp [facts, sends, happening, act, abort, hheld, hover, Fact.ofEvent?]
  | none =>
    refine (Tells.aborted hheld).of_eq ?_ rfl
    by_cases hover : s.isOver = true
    · simp [facts, sends, happening, act, abort, hheld, hover]
    · simp [facts, sends, happening, act, abort, hheld, hover]

/-- What an act can do, case by case, with what is noted of it. -/
theorem tells (s : Session) (a : Act) : Tells s a (s.facts a) (s.act a).2 := by
  cases a with
  | move now m => exact tells_move s now m
  | reply q =>
    by_cases hover : s.isOver = true
    · refine (Tells.idle _).of_eq ?_ ?_
      · simp [facts, sends, happening, act, reply, hover]
      · simp [act, reply, hover]
    · rw [Bool.not_eq_true] at hover
      refine (Tells.queued q hover).of_eq ?_ ?_
      · simp [facts, sends, happening, act, reply, hover]
      · simp [act, reply, hover]
  | unlink =>
    refine Tells.unlinked.of_eq ?_ rfl
    simp [facts, sends, happening, act, unlink]
  | ignore =>
    refine Tells.ignored.of_eq ?_ rfl
    simp [facts, sends, happening, act, ignore]
  | abort => exact tells_abort s
  | hear =>
    cases h : s.events with
    | nil =>
      refine (Tells.idle _).of_eq ?_ ?_
      · simp [facts, sends, happening, act, nextEvent, h]
      · simp [act, nextEvent, h]
    | cons e rest =>
      refine (Tells.heard e rest h).of_eq ?_ ?_
      · simp [facts, sends, happening, act, nextEvent, h]
      · simp [act, nextEvent, h]

/-! ## What a session is let do -/

/-- What a session is let do: replies go before calls, and the end of the link before calls too. -/
def Permits (s : Session) : Move → Prop
  | .received _ => s.replies = [] ∧ s.linked = true
  | .closed => s.replies = [] ∧ s.linked = false
  | _ => True

section

variable {s : Session}

theorem step_frame (s : Session) (now : Nat) (m : Move) :
    (s.step now m).2.linked = s.linked ∧ (s.step now m).2.heard = s.heard := by
  have htells := s.tells (.move now m)
  generalize s.facts (.move now m) = ns at htells
  generalize hnext : (s.act (.move now m)).2 = t at htells
  change (s.step now m).2 = t at hnext
  rw [hnext]
  cases htells <;> exact ⟨rfl, rfl⟩

theorem isOver_of_stage {t : Session} (hstage : t.stage = s.stage) : t.isOver = s.isOver := by
  unfold isOver
  rw [hstage]

theorem stage_of_isOver (hover : s.isOver = true) : s.stage = .ended := by
  unfold isOver at hover
  cases hs : s.stage with
  | ended => rfl
  | _ => simp [hs] at hover

/-- A session that is over does not move. -/
theorem step_of_isOver (hover : s.isOver = true) (now : Nat) (m : Move) :
    (s.step now m).2 = s ∧ s.facts (.move now m) = [] := by
  have hs := stage_of_isOver hover
  constructor
  · simp [step, hs]
  · simp [facts, sends, happening, act, step, hs]

/-- A session that is heard goes on while its link is held. -/
theorem isOver_step (hover : s.isOver = false) (hheard : s.heard = true) (hlinked : s.linked = true)
    {m : Move} (hpermits : s.Permits m) (now : Nat) : (s.step now m).2.isOver = false := by
  have hclosed : m ≠ .closed := by
    rintro rfl
    exact absurd (hlinked.symm.trans hpermits.2) (by simp)
  have htells := s.tells (.move now m)
  generalize s.facts (.move now m) = ns at htells
  generalize hnext : (s.act (.move now m)).2 = t at htells
  change (s.step now m).2 = t at hnext
  rw [hnext]
  cases htells with
  | idle => exact hover
  | unheard _ _ c f hdeaf _ => exact absurd (hheard.symm.trans hdeaf) (by simp)
  | closed _ c _ => exact absurd rfl hclosed
  | ended _ deadline _ => exact absurd rfl hclosed
  | received _ c r hs _ => simp [isOver, forward, hs]
  | passed _ c q rest hs _ _ => simp [isOver, hs]
  | discarded _ deadline q rest hs _ => simp [isOver, hs]
  | _ => rfl

theorem facts_hear {e : BusEvent} {rest : List BusEvent} (hevents : s.events = e :: rest) :
    s.facts .hear = [.heard e] := by
  simp [facts, sends, happening, act, nextEvent, hevents]

theorem facts_unlink (s : Session) : s.facts .unlink = [.unlinked] := by
  simp [facts, sends, happening, act, unlink]

theorem facts_ignore (s : Session) : s.facts .ignore = [] := by
  simp [facts, sends, happening, act, ignore]

theorem facts_reply (s : Session) (q : Reply) : s.facts (.reply q) = [] := by
  have htells := s.tells (.reply q)
  generalize s.facts (.reply q) = ns at htells ⊢
  generalize (s.act (.reply q)).2 = t at htells
  cases htells with
  | idle => rfl
  | queued _ _ => rfl

/-- A reply is queued, if the session goes on, and nothing else changes. -/
theorem reply_left (s : Session) (rest : List BusEvent) (q : Reply) :
    let t := (({ s with events := rest } : Session).reply q).2
    t.stage = s.stage ∧ t.linked = s.linked ∧ t.heard = s.heard := by
  unfold reply
  split
  · exact ⟨rfl, rfl, rfl⟩
  · exact ⟨rfl, rfl, rfl⟩

theorem object_act (s : Session) (a : Act) : (s.act a).2.object = s.object :=
  (s.does a).object_eq

end

end ScriptService.Session
