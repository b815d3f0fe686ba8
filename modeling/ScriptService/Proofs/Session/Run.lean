import ScriptService.Bus.Session
import ScriptService.Proofs.History

/-!
# Runs of a session

A session runs through its own moves, which a transport and the clock decide, and through what its
owner does; both come in any order. The history of a run tells what the session did on the bus,
which numbers it gave to calls, and which replies were queued and taken.

Main statement: `Session.does`, which says once what an act can do.
-/

namespace ScriptService.Session

/-- What can happen to a session: a move of its own at a time, or something that its owner does. -/
inductive Act where
  | move (now : Nat) (m : Move)
  | reply (r : Reply)
  | unlink
  | ignore
  | abort
  /-- The owner takes the next event. -/
  | hear
  deriving Inhabited

def act (s : Session) : Act → List SessionEvent × Session
  | .move now m => s.step now m
  | .reply r => ([], (s.reply r).2)
  | .unlink => ([], s.unlink)
  | .ignore => ([], s.ignore)
  | .abort => s.abort
  | .hear => ([], (s.nextEvent.map (·.2)).getD s)

/-- What is noted of a run. -/
inductive Note where
  /-- The session did something on the bus. -/
  | did (e : SessionEvent)
  /-- The call `r` arrived on a connection and was handed to the owner under the number `id`. -/
  | handed (c : ConnectionId) (r : Request) (id : RequestId)
  /-- The owner queued a reply. -/
  | queued (r : Reply)
  /-- A reply was taken from the queue while a connection was served. -/
  | taken (r : Reply)
  /-- A reply was taken from the queue while there was no connection. -/
  | discarded (r : Reply)
  /-- The write that was under way failed or was given up. -/
  | unwritten
  deriving Inhabited

/-- What an act is about to do beside its events. -/
def sees (s : Session) : Act → Option Note
  | .move _ m =>
    match s.stage, m with
    | .serving c, .received r => if s.heard then some (.handed c r s.nextId) else none
    | .serving _, .taken => s.replies.head?.map .taken
    | .pausing _, .taken => s.replies.head?.map .discarded
    | .writing _ _, .writeFailed _ => some .unwritten
    | _, _ => none
  | .reply r => if s.isOver then none else some (.queued r)
  | .abort =>
    match s.stage with
    | .writing _ _ => some .unwritten
    | .stalled _ => some .unwritten
    | _ => none
  | _ => none

/-- The notes of an act, latest first. -/
def notes (s : Session) (a : Act) : List Note :=
  ((s.act a).1.map .did).reverse ++ (s.sees a).toList

/-- Sessions under observation. -/
def observed : Observed Session Act Note := ⟨fun s a => (s.act a).2, notes⟩

/-! ## What an act can do -/

/-- Events that neither open or drop a connection nor write a reply. -/
def Talk (events : List SessionEvent) : Prop :=
  ∀ e ∈ events, (∃ d, e = .diagnostic d) ∨ ∃ c object, e = .addObject c object

/-- What an act can do: the events, what is noted beside them, and the session after it. -/
inductive Does (s : Session) : List SessionEvent → Option Note → Session → Prop where
  | idle : Does s [] none s
  | connected (c : ConnectionId) (h : s.stage = .connecting) :
      Does s [.connect (some c)] none { s with stage := .registering c }
  | unconnected (now : Nat) (h : s.stage = .connecting) : Does s [.connect none] none (s.pause now)
  | registered (c : ConnectionId) (h : s.stage = .registering c) (hheard : s.heard = true)
      {talk : List SessionEvent} (htalk : Talk talk) :
      Does s talk none { s with stage := .serving c, events := s.events ++ [.connected] }
  | refused (c : ConnectionId) (now : Nat) (h : s.stage = .registering c)
      {talk : List SessionEvent} (htalk : Talk talk) :
      Does s (talk ++ [.dropped c]) none (s.pause now)
  | handed (c : ConnectionId) (r : Request) (h : s.stage = .serving c) (hheard : s.heard = true) :
      Does s [] (some (.handed c r s.nextId)) (s.forward r)
  /-- The reply taken answers no call of the connection. -/
  | passed (c : ConnectionId) (r : Reply) (rest : List Reply) (h : s.stage = .serving c)
      (hqueue : s.replies = r :: rest) (hcall : List.lookup r.id s.inFlight = none) :
      Does s [] (some (.taken r)) { s with replies := rest }
  | taken (c : ConnectionId) (r : Reply) (rest : List Reply) (bus : RequestId)
      (h : s.stage = .serving c) (hqueue : s.replies = r :: rest)
      (hcall : List.lookup r.id s.inFlight = some bus) :
      Does s [] (some (.taken r))
        { s with
          replies := rest
          inFlight := s.inFlight.filter fun p => p.1 != r.id
          stage := .writing c { r with id := bus } }
  | written (c : ConnectionId) (r : Reply) (h : s.stage = .writing c r) :
      Does s [.written c r] none { s with stage := .serving c }
  | stalled (c : ConnectionId) (r : Reply) (h : s.stage = .writing c r) :
      Does s [] none { s with stage := .stalled c }
  /-- The connection is lost while none of its replies is being written. -/
  | lost (c : ConnectionId) (now : Nat) (h : s.stage = .serving c)
      {talk : List SessionEvent} (htalk : Talk talk) :
      Does s (talk ++ [.dropped c]) none (s.lose now c).2
  /-- The connection is lost by a write that fails. -/
  | broken (c : ConnectionId) (r : Reply) (now : Nat) (h : s.stage = .writing c r)
      {talk : List SessionEvent} (htalk : Talk talk) :
      Does s (talk ++ [.dropped c]) (some .unwritten) (s.lose now c).2
  /-- The session ends while it holds a connection. -/
  | finished (c : ConnectionId) (h : s.stage = .registering c ∨ s.stage = .serving c)
      {talk : List SessionEvent} (htalk : Talk talk) :
      Does s (talk ++ [.dropped c]) none (s.finish c).2
  | discarded (deadline : Nat) (r : Reply) (rest : List Reply) (h : s.stage = .pausing deadline)
      (hqueue : s.replies = r :: rest) :
      Does s [] (some (.discarded r)) { s with replies := rest }
  | resumed (deadline : Nat) (h : s.stage = .pausing deadline) :
      Does s [] none { s with stage := .connecting }
  | ended (deadline : Nat) (h : s.stage = .pausing deadline) :
      Does s [] none { s with stage := .ended }
  | queued (r : Reply) (h : s.isOver = false) :
      Does s [] (some (.queued r)) { s with replies := s.replies ++ [r] }
  | unlinked : Does s [] none s.unlink
  | ignored : Does s [] none s.ignore
  | heard (e : BusEvent) (rest : List BusEvent) (h : s.events = e :: rest) :
      Does s [] none { s with events := rest }
  | aborted (h : ∀ c r, s.stage ≠ .writing c r ∧ s.stage ≠ .stalled c) :
      Does s s.abort.1 none s.abort.2
  /-- The session is ended while a reply is being written. -/
  | cutOff (c : ConnectionId) (h : (∃ r, s.stage = .writing c r) ∨ s.stage = .stalled c) :
      Does s [.dropped c] (some .unwritten) s.abort.2

theorem talk_nil : Talk [] := by simp [Talk]

theorem talk_cons_diagnostic (level : Level) (message : String)
    (details : List (String × String)) {talk : List SessionEvent} (h : Talk talk) :
    Talk (diagnostic level message details :: talk) := by
  intro e he
  rcases List.mem_cons.1 he with rfl | he
  · exact Or.inl ⟨_, rfl⟩
  · exact h e he

theorem talk_cons_addObject (c : ConnectionId) (object : ObjectSpec) {talk : List SessionEvent}
    (h : Talk talk) : Talk (.addObject c object :: talk) := by
  intro e he
  rcases List.mem_cons.1 he with rfl | he
  · exact Or.inr ⟨_, _, rfl⟩
  · exact h e he

theorem does_take (s : Session) (c : ConnectionId) (h : s.stage = .serving c) :
    Does s [] (s.replies.head?.map .taken) (s.take c) := by
  unfold take
  cases hq : s.replies with
  | nil => exact .idle
  | cons r rest =>
    cases hc : List.lookup r.id s.inFlight with
    | none => simpa [hc] using Does.passed c r rest h hq hc
    | some bus => simpa [hc] using Does.taken c r rest bus h hq hc

theorem does_tail (s : Session) (deadline : Nat) (h : s.stage = .pausing deadline) :
    Does s [] (s.replies.head?.map .discarded) { s with replies := s.replies.tail } := by
  cases hq : s.replies with
  | nil =>
    have hs : { s with replies := ([] : List Reply) } = s := by rw [← hq]
    simpa [hs] using Does.idle
  | cons r rest => simpa using Does.discarded deadline r rest h hq

theorem does_lose (s : Session) (now : Nat) (c : ConnectionId) (h : s.stage = .serving c) :
    Does s (s.lose now c).1 none (s.lose now c).2 :=
  .lost c now h (talk_cons_diagnostic _ _ _ talk_nil)

theorem does_finish (s : Session) (c : ConnectionId)
    (h : s.stage = .registering c ∨ s.stage = .serving c) :
    Does s (s.finish c).1 none (s.finish c).2 :=
  .finished c h talk_nil

theorem does_abort (s : Session) : Does s s.abort.1 (s.sees .abort) s.abort.2 := by
  cases h : s.stage with
  | writing c r => simpa [sees, abort, Stage.connection?, h] using Does.cutOff c (Or.inl ⟨r, h⟩)
  | stalled c => simpa [sees, abort, Stage.connection?, h] using Does.cutOff c (Or.inr h)
  | _ => simpa [sees, h] using Does.aborted (s := s) (by simp [h])

theorem does_registered (s : Session) (c : ConnectionId) (h : s.stage = .registering c)
    (now : Nat) :
    Does s (s.step now .registered).1 none (s.step now .registered).2 := by
  have htalk : Talk [.addObject c s.object,
      diagnostic .info "Connected to bus" [s.objectDetail]] :=
    talk_cons_addObject _ _ (talk_cons_diagnostic _ _ _ talk_nil)
  by_cases hheard : s.heard = true
  · simpa [step, h, hheard] using Does.registered c h hheard htalk
  · simpa [step, h, hheard, finish] using Does.finished c (Or.inl h) htalk

theorem does_receive (s : Session) (c : ConnectionId) (h : s.stage = .serving c) (now : Nat)
    (r : Request) :
    Does s (s.step now (.received r)).1 (s.sees (.move now (.received r)))
      (s.step now (.received r)).2 := by
  by_cases hheard : s.heard = true
  · simpa [step, sees, h, hheard] using Does.handed c r h hheard
  · simpa [step, sees, h, hheard] using does_finish s c (Or.inr h)

theorem does_step (s : Session) (now : Nat) (m : Move) :
    Does s (s.step now m).1 (s.sees (.move now m)) (s.step now m).2 := by
  cases h : s.stage with
  | connecting =>
    cases m with
    | connected c => simpa [step, sees, h] using Does.connected c h
    | connectFailed => simpa [step, sees, h] using Does.unconnected now h
    | _ => simpa [step, sees, h] using Does.idle
  | registering c =>
    cases m with
    | registered => simpa [sees, h] using does_registered s c h now
    | registrationFailed e =>
      simpa [step, sees, h] using Does.refused c now h
        (talk_cons_addObject c s.object (talk_cons_diagnostic .warn "Failed to register object"
          [s.objectDetail, errorDetail e] talk_nil))
    | _ => simpa [step, sees, h] using Does.idle
  | serving c =>
    cases m with
    | received r => exact does_receive s c h now r
    | receiveFailed e =>
      simpa [step, sees, h, lose] using Does.lost c now h
        (talk_cons_diagnostic .warn "Bus receive failed" [errorDetail e]
          (talk_cons_diagnostic _ _ _ talk_nil))
    | hungUp => simpa [step, sees, h] using does_lose s now c h
    | taken => simpa [step, sees, h] using does_take s c h
    | closed => simpa [step, sees, h] using does_finish s c (Or.inr h)
    | _ => simpa [step, sees, h] using Does.idle
  | writing c r =>
    cases m with
    | written => simpa [step, sees, h] using Does.written c r h
    | writeFailed e =>
      simpa [step, sees, h, lose] using Does.broken c r now h
        (talk_cons_diagnostic .warn "Failed to send reply" [errorDetail e]
          (talk_cons_diagnostic _ _ _ talk_nil))
    | writeStalled => simpa [step, sees, h] using Does.stalled c r h
    | _ => simpa [step, sees, h] using Does.idle
  | stalled c => simpa [step, sees, h] using Does.idle
  | pausing deadline =>
    cases m with
    | taken => simpa [step, sees, h] using does_tail s deadline h
    | resumed => simpa [step, sees, h] using Does.resumed deadline h
    | closed => simpa [step, sees, h] using Does.ended deadline h
    | _ => simpa [step, sees, h] using Does.idle
  | ended => simpa [step, sees, h] using Does.idle

/-- What an act can do, case by case. -/
theorem does (s : Session) (a : Act) : Does s (s.act a).1 (s.sees a) (s.act a).2 := by
  cases a with
  | move now m => exact does_step s now m
  | reply r =>
    by_cases h : s.isOver = true
    · simpa [act, sees, reply, h] using Does.idle
    · simp only [Bool.not_eq_true] at h
      simpa [act, sees, reply, h] using Does.queued r h
  | unlink => exact .unlinked
  | ignore => exact .ignored
  | abort => exact does_abort s
  | hear =>
    cases h : s.events with
    | nil => simpa [act, sees, nextEvent, h] using Does.idle
    | cons e rest => simpa [act, sees, nextEvent, h] using Does.heard e rest h

/-! ## What becomes of the connection -/

/-- The stage after a loss holds no connection. -/
theorem lose_left (s : Session) (now : Nat) (c : ConnectionId) :
    (s.lose now c).2.stage.connection? = none ∧ (s.lose now c).2.nextId = s.nextId ∧
      (s.lose now c).2.inFlight = [] ∧ (s.lose now c).2.replies = s.replies := by
  unfold lose pause
  by_cases hheard : s.heard = true
  · simp [hheard, Stage.connection?]
  · simp [hheard, Stage.connection?]

theorem abort_left (s : Session) :
    s.abort.2.stage.connection? = none ∧ s.abort.2.nextId = s.nextId ∧
      s.abort.2.inFlight = [] ∧ s.abort.2.replies = [] := by
  unfold abort
  split
  · simp [Stage.connection?]
  · simp [Stage.connection?]

/-- What becomes of the connection: it is made, or it is dropped, or it stays as it is. -/
theorem Does.connection {s s' : Session} {events : List SessionEvent} {seen : Option Note}
    (h : Does s events seen s') :
    (∃ c, events = [.connect (some c)]) ∨
      (∃ c talk, Talk talk ∧ events = talk ++ [.dropped c] ∧ s.stage.connection? = some c ∧
        s'.stage.connection? = none) ∨
      (s'.stage.connection? = s.stage.connection? ∧ ∀ c, .dropped c ∉ events) := by
  -- Diagnostics and registrations drop nothing.
  have htalks : ∀ {talk : List SessionEvent}, Talk talk → ∀ c, .dropped c ∉ talk := by
    intro talk htalk c hmem
    rcases htalk _ hmem with ⟨d, heq⟩ | ⟨e, object, heq⟩
    · cases heq
    · cases heq
  cases h with
  | connected c hs => exact Or.inl ⟨c, rfl⟩
  | unconnected now hs =>
    exact Or.inr (Or.inr ⟨by simp [pause, hs, Stage.connection?], by simp⟩)
  | registered c hs _ htalk =>
    exact Or.inr (Or.inr ⟨by simp [hs, Stage.connection?], htalks htalk⟩)
  | refused c now hs htalk =>
    exact Or.inr (Or.inl ⟨c, _, htalk, rfl, by simp [hs, Stage.connection?], rfl⟩)
  | lost c now hs htalk =>
    exact Or.inr (Or.inl ⟨c, _, htalk, rfl, by simp [hs, Stage.connection?], (lose_left s now c).1⟩)
  | broken c r now hs htalk =>
    exact Or.inr (Or.inl ⟨c, _, htalk, rfl, by simp [hs, Stage.connection?], (lose_left s now c).1⟩)
  | finished c hs htalk =>
    have hheld : s.stage.connection? = some c := by
      rcases hs with hs | hs
      · simp [hs, Stage.connection?]
      · simp [hs, Stage.connection?]
    exact Or.inr (Or.inl ⟨c, _, htalk, rfl, hheld, rfl⟩)
  | aborted _ =>
    -- A session that is ended by force may hold a connection or not.
    unfold abort
    cases hheld : s.stage.connection? with
    | none => exact Or.inr (Or.inr ⟨rfl, by simp⟩)
    | some c => exact Or.inr (Or.inl ⟨c, [], talk_nil, rfl, rfl, rfl⟩)
  | cutOff c hs =>
    have hheld : s.stage.connection? = some c := by
      rcases hs with ⟨r, hs⟩ | hs
      · simp [hs, Stage.connection?]
      · simp [hs, Stage.connection?]
    exact Or.inr (Or.inl ⟨c, [], talk_nil, rfl, hheld, (abort_left s).1⟩)
  | resumed deadline hs => exact Or.inr (Or.inr ⟨by simp [hs, Stage.connection?], by simp⟩)
  | ended deadline hs => exact Or.inr (Or.inr ⟨by simp [hs, Stage.connection?], by simp⟩)
  | written c r hs => exact Or.inr (Or.inr ⟨by simp [hs, Stage.connection?], by simp⟩)
  | stalled c r hs => exact Or.inr (Or.inr ⟨by simp [hs, Stage.connection?], by simp⟩)
  | taken c r rest bus hs _ _ => exact Or.inr (Or.inr ⟨by simp [hs, Stage.connection?], by simp⟩)
  | _ => exact Or.inr (Or.inr ⟨rfl, by simp⟩)

/-- Only a session that connects makes a connection. -/
theorem connect_not_mem_step {s : Session} (hs : s.stage ≠ .connecting) (now : Nat) (m : Move)
    (c : ConnectionId) : .connect (some c) ∉ (s.step now m).1 := by
  unfold step
  split
  -- Two moves of a session that connects, two whose effect depends on who listens, and the rest.
  case h_1 d hstage => exact absurd hstage hs
  case h_2 hstage => exact absurd hstage hs
  case h_3 d hstage =>
    by_cases hheard : s.heard = true
    · simp [hheard, diagnostic]
    · simp [hheard, diagnostic, finish]
  case h_5 d r hstage =>
    by_cases hheard : s.heard = true
    · simp [hheard]
    · simp [hheard, finish]
  all_goals simp [diagnostic, lose, finish]

/-- A call is handed over when it is received, as long as somebody listens. -/
theorem sees_eq_handed {s : Session} {a : Act} {c : ConnectionId} {r : Request} {id : RequestId}
    (h : s.sees a = some (.handed c r id)) :
    s.stage = .serving c ∧ s.heard = true ∧ ∃ now, a = .move now (.received r) := by
  cases a with
  | move now m =>
    cases hs : s.stage with
    | serving d =>
      cases m with
      | received q =>
        by_cases hheard : s.heard = true
        · have heq : Note.handed d q s.nextId = .handed c r id := by
            simpa [sees, hs, hheard] using h
          cases heq
          exact ⟨rfl, hheard, now, rfl⟩
        · simp [sees, hs, hheard] at h
      | _ => simp [sees, hs] at h
    | writing d q => cases m <;> simp [sees, hs] at h
    | pausing deadline => cases m <;> simp [sees, hs] at h
    | _ => simp [sees, hs] at h
  | reply q => simp [sees] at h
  | abort => cases hs : s.stage <;> simp [sees, hs] at h
  | _ => simp [sees] at h

/-- Only the owner queues replies. -/
theorem sees_eq_queued {s : Session} {a : Act} {q : Reply} (h : s.sees a = some (.queued q)) :
    a = .reply q := by
  cases a with
  | move now m =>
    cases hs : s.stage with
    | serving d =>
      cases m with
      | received r => by_cases hheard : s.heard = true <;> simp [sees, hs, hheard] at h
      | _ => simp [sees, hs] at h
    | writing d q => cases m <;> simp [sees, hs] at h
    | pausing deadline => cases m <;> simp [sees, hs] at h
    | _ => simp [sees, hs] at h
  | reply r =>
    by_cases hover : s.isOver = true
    · simp [sees, hover] at h
    · have heq : r = q := by simpa [sees, hover] using h
      rw [heq]
  | abort => cases hs : s.stage <;> simp [sees, hs] at h
  | _ => simp [sees] at h

/-- The object never changes. -/
theorem Does.object_eq {s s' : Session} {events : List SessionEvent} {seen : Option Note}
    (h : Does s events seen s') : s'.object = s.object := by
  have habort : s.abort.2.object = s.object := by
    unfold abort
    split <;> rfl
  have hlose : ∀ now c, (s.lose now c).2.object = s.object := by
    intro now c
    unfold lose pause
    by_cases hheard : s.heard = true
    · simp [hheard]
    · simp [hheard]
  cases h with
  | lost c now _ _ => exact hlose now c
  | broken c r now _ _ => exact hlose now c
  | aborted _ => exact habort
  | cutOff c _ => exact habort
  | _ => rfl

end ScriptService.Session
