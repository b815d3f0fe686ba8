import ScriptService.Proofs.Host.Acts
import ScriptService.Proofs.Host.Loop
import ScriptService.Proofs.Host.Phases
import ScriptService.Proofs.Session.Answers
import ScriptService.Proofs.Session.Facts

/-!
# What a host does with its client

A host leaves its client alone, but for four things: it publishes its service when it enters the
loop, it takes an event to dispatch, it replies to a call, and it closes the link when it begins to
release everything.

Main statements: `Host.nextTurn_client`, `Host.answerCall_client` and `HostRun.proceeds`.
-/

namespace ScriptService

namespace Client

variable {client : Client}

theorem beside_session (client : Client) (m : MemoryBus.Act) :
    (client.beside m).session = client.session := by
  unfold Client.beside
  split
  · split
    · rfl
    · rfl
  · rfl

theorem nextEvent_eq_some {e : BusEvent} {next : Client}
    (hnext : client.nextEvent = some (e, next)) :
    ∃ s rest, client.session = some s ∧ s.events = e :: rest ∧
      next = { client with session := some { s with events := rest } } := by
  unfold nextEvent at hnext
  cases hs : client.session with
  | none => simp [hs] at hnext
  | some s =>
    cases hevents : s.events with
    | nil => simp [hs, Session.nextEvent, hevents] at hnext
    | cons e' rest =>
      simp only [hs, Session.nextEvent, hevents, Option.bind_eq_bind, Option.bind_some,
        Option.pure_def, Option.some.injEq, Prod.mk.injEq] at hnext
      rcases hnext with ⟨rfl, rfl⟩
      exact ⟨s, rest, rfl, hevents, rfl⟩

theorem reply_closing (client : Client) (q : Reply) :
    (client.reply q).2.closing = client.closing := by
  unfold Client.reply
  split
  · rfl
  · rfl

theorem reply_session {client : Client} {s : Session} (hs : client.session = some s) (q : Reply) :
    (client.reply q).2.session = some (s.reply q).2 := by
  unfold Client.reply
  simp [hs]

theorem beside_closing (client : Client) (m : MemoryBus.Act) :
    (client.beside m).closing = client.closing := by
  unfold Client.beside
  split
  · split
    · rfl
    · rfl
  · rfl

/-! ## Moves -/

/-- What the next step of a client is to its session. -/
def moves (client : Client) (now : Nat) : List Session.Act :=
  match client.session with
  | none => []
  | some s =>
    match nextMove? client.transport now s with
    | some (m, _) => [.move now m]
    | none => if !s.isOver && client.closing.any (· ≤ now) then [.abort] else []

theorem nextMove?_permits {t t' : Transport} {now : Nat} {s : Session} {m : Session.Move}
    (h : nextMove? t now s = some (m, t')) : s.Permits m := by
  unfold nextMove? at h
  cases hs : s.stage with
  | connecting =>
    simp only [hs] at h
    split at h
    all_goals
      cases h
      trivial
  | registering c =>
    simp only [hs] at h
    split at h
    all_goals
      cases h
      trivial
  | serving c =>
    simp only [hs] at h
    split at h
    · cases h
      trivial
    · rename_i hreplies
      have hempty : s.replies = [] := by simpa using hreplies
      split at h
      · rename_i hlinked
        cases h
        exact ⟨hempty, by simpa using hlinked⟩
      · rename_i hlinked
        split at h
        · cases h
          exact ⟨hempty, by simpa using hlinked⟩
        · cases h
          trivial
        · cases h
          trivial
        · cases h
  | writing c q =>
    simp only [hs] at h
    split at h
    all_goals
      cases h
      trivial
  | pausing deadline =>
    simp only [hs] at h
    split at h
    · cases h
      trivial
    · split at h
      · cases h
        trivial
      · rename_i hreplies
        split at h
        · rename_i hlinked
          cases h
          exact ⟨by simpa using hreplies, by simpa using hlinked⟩
        · cases h
  | stalled c => simp [hs] at h
  | ended => simp [hs] at h

/-- What a step makes of the session of a client. -/
inductive Works (client : Client) (now : Nat) : List Session.Act → Client → Prop where
  | rests : Works client now [] client
  | moved (s : Session) (m : Session.Move) (next : Client) (hsession : client.session = some s)
      (hpermits : s.Permits m) (hnext : next.session = some (s.step now m).2)
      (hclosing : next.closing = client.closing) :
      Works client now [.move now m] next
  /-- The session takes too long to end. -/
  | forced (s : Session) (next : Client) (hsession : client.session = some s)
      (hover : s.isOver = false) (hclosing : client.closing ≠ none)
      (hnext : next.session = some s.abort.2) : Works client now [.abort] next

theorem works (client : Client) (now : Nat) :
    Works client now (client.moves now) ((client.step now).getD client) := by
  unfold moves Client.step
  cases hs : client.session with
  | none => exact .rests
  | some s =>
    cases hmove : nextMove? client.transport now s with
    | some p =>
      obtain ⟨m, t⟩ := p
      simp only [hmove, Option.getD_some]
      exact .moved s m _ hs (nextMove?_permits hmove) rfl rfl
    | none =>
      simp only [hmove]
      by_cases hdue : (!s.isOver && client.closing.any (· ≤ now)) = true
      · rw [if_pos hdue, if_pos hdue, Option.getD_some]
        rw [Bool.and_eq_true] at hdue
        have hover : s.isOver = false := by simpa using hdue.1
        have hclosing : client.closing ≠ none := by
          intro hnone
          rw [hnone] at hdue
          cases hdue.2
        refine .forced s _ hs hover hclosing ?_
        unfold abandon abort
        simp [hs, hover, record]
      · rw [if_neg hdue, if_neg hdue]
        exact .rests

end Client

namespace Host

/-! ## Turns -/

theorem report_client (h : Host) (site : String) (e : ScriptError) :
    (h.report site e).client = h.client := by
  cases e <;> rfl

theorem call_client {h next : Host} {f : Callback} {args held : List Value}
    {result : Except ScriptError Value} (hcall : h.call f args held = (result, next)) :
    next.client = h.client := by
  have hrfl : (h.call f args held).2.client = h.client := rfl
  rwa [hcall] at hrfl

theorem Calls.client {h next : Host} {site : String} {f : Callback} {args held : List Value}
    (hcalls : Calls h site f args held next) : next.client = h.client := by
  cases hcalls with
  | returned v _ hcall => exact call_client hcall
  | failed e next hcall => rw [report_client, call_client hcall]

theorem Fires.client {h next : Host} {id : Nat} (hfires : Fires h id next) :
    next.client = h.client := by
  cases hfires with
  | unlinked _ => rfl
  | rearmed t v delay next _ hcall _ =>
    have hsame := call_client hcall
    exact hsame
  | finished t v next _ hcall _ =>
    have hsame := call_client hcall
    exact hsame
  | failed t e next _ hcall =>
    have hsame := call_client hcall
    rw [report_client]
    exact hsame

theorem Ends.client {h next : Host} {pid status : Int} (hends : Ends h pid status next) :
    next.client = h.client := by
  cases hends with
  | unknown => rfl
  | known c children next _ hcalls => exact hcalls.client

theorem Hooks.client {h next : Host} (hhooks : Hooks h next) : next.client = h.client := by
  cases hhooks with
  | none _ => rfl
  | hook f next _ hcalls => exact hcalls.client

/-- Only a call makes the host use its client. -/
theorem dispatch_client (h : Host) {e : LoopEvent} (he : ∀ r, e ≠ .bus (.call r)) :
    (h.dispatch e).client = h.client := by
  cases e with
  | timer id => exact (h.fires id).client
  | childEnded pid status => exact (h.ends pid status).client
  | bus e =>
    cases e with
    | connected => exact h.hooks.client
    | disconnected => rfl
    | call r => exact absurd rfl (he r)

theorem noteSent_client (h : Host) (sent : Bool) (id : RequestId) :
    (h.noteSent sent id).client = h.client := by
  unfold noteSent
  split
  · rfl
  · rfl

/-- The loop takes at most one event from the session, and then dispatches it. -/
theorem nextTurn_client (h : Host) :
    (∃ e, h.nextTurn.1 = .dispatch (.bus e) ∧ h.client.nextEvent = some (e, h.nextTurn.2.client)) ∨
      ((∀ e, h.nextTurn.1 ≠ .dispatch (.bus e)) ∧ h.nextTurn.2.client = h.client) := by
  have hlisten : h.listen.client = h.client := by
    unfold listen
    split
    · rfl
    · rfl
  have hturns := h.turns
  generalize h.nextTurn.1 = turn at hturns
  generalize h.nextTurn.2 = next at hturns
  cases hturns with
  | stopped _ => exact Or.inr ⟨by simp, hlisten⟩
  | ended pid status ready _ _ => exact Or.inr ⟨by simp, hlisten⟩
  | due id timers _ _ _ => exact Or.inr ⟨by simp, hlisten⟩
  | looked timers _ _ _ _ _ hlook =>
    cases hlook with
    | terminated _ => exact Or.inr ⟨by simp, hlisten⟩
    | collected _ => exact Or.inr ⟨by simp, hlisten⟩
    | heard e client _ hnext =>
      refine Or.inl ⟨e, rfl, ?_⟩
      rw [← hlisten]
      exact hnext
    | idle => exact Or.inr ⟨by simp, hlisten⟩

/-- Without a service, a call is not answered. -/
theorem answerCall_unserved {h : Host} (hservice : h.resources.service = none) (r : Request) :
    h.answerCall r = h := by
  have hanswers := h.answers r
  generalize h.answerCall r = after at hanswers ⊢
  cases hanswers with
  | unserved _ => rfl
  | served d _ _ _ _ hserved => exact absurd (hserved.symm.trans hservice) (by simp)

/-- A call is answered by one reply, with what came of its dispatch. -/
theorem answerCall_client {h : Host} {d : ServiceDeclaration}
    (hservice : h.resources.service = some d) (r : Request) :
    (h.answerCall r).client =
      (h.client.reply ((Dispatch.answer Resources.natives d r h.machine).1.toReply r.id)).2 := by
  have hanswers := h.answers r
  generalize h.answerCall r = after at hanswers ⊢
  cases hanswers with
  | unserved hnone => exact absurd (hnone.symm.trans hservice) (by simp)
  | served d' dispatch machine sent client hserved hanswer hreply =>
    cases Option.some.inj (hserved.symm.trans hservice)
    have hreplied : (h.client.reply (dispatch.toReply r.id)).2 = client := by
      rw [show h.client.reply (dispatch.toReply r.id) = (sent, client) from hreply]
    rw [hanswer, hreplied]
    cases dispatch.error with
    | none => exact noteSent_client _ sent r.id
    | some e => exact (report_client _ _ e).trans (noteSent_client _ sent r.id)

/-! ## Phases -/

theorem Loads.client {h next : Host} {file : ScriptFile} {result : Except HostError Unit}
    (hloads : Loads h file result next) : next.client = h.client := by
  cases hloads <;> rfl

theorem activateLog_client (h : Host) : h.activateLog.client = h.client := by
  unfold activateLog
  split
  · rfl
  · split
    · rfl
    · rfl

theorem Executes.client {h next : Host} {result : Except HostError (Option Int32)}
    (hexecutes : Executes h result next) : next.client = h.client := by
  have hran : ∀ {out : Except ScriptError Value} {ran : Host},
      h.withArguments.perform (Interpreter.runTop Resources.natives) = (out, ran) →
        ran.client = h.client := by
    intro out ran hrun
    have hrfl : (h.withArguments.perform (Interpreter.runTop Resources.natives)).2.client =
        h.client := rfl
    rwa [hrun] at hrfl
  cases hexecutes with
  | refused _ => rfl
  | returned v ran _ hrun =>
    have hsame := hran hrun
    rw [activateLog_client]
    exact hsame
  | exited code ran _ hrun =>
    have hsame := hran hrun
    exact hsame
  | uncompiled ran _ hrun =>
    have hsame := hran hrun
    exact hsame
  | raised text ran _ hrun =>
    have hsame := hran hrun
    exact hsame

theorem Starts.client {h next : Host} {result : Except HostError (Option Int32)}
    (hstarts : Starts h result next) : next.client = h.client := by
  cases hstarts with
  | refused _ => rfl
  | missing _ _ => rfl
  | notCallable _ _ => rfl
  | returned f v ran _ _ hcall =>
    have hsame := call_client hcall
    exact hsame
  | exited f code ran _ _ hcall =>
    have hsame := call_client hcall
    exact hsame
  | raised f e ran _ _ hcall _ =>
    have hsame := call_client hcall
    exact hsame

theorem ShutsDown.client {h next : Host} {result : Except HostError Int32}
    (hshuts : ShutsDown h result next) : next.client = h.client := by
  cases hshuts with
  | refused _ => rfl
  | done _ _ hstops =>
    cases hstops with
    | crashed _ => rfl
    | missing _ _ => rfl
    | notCallable _ _ => rfl
    | returned f v ran _ _ hcall => exact call_client hcall
    | exited f code ran _ _ hcall =>
      have hsame := call_client hcall
      exact hsame
    | raised f e ran _ _ hcall _ =>
      have hsame := call_client hcall
      exact hsame

end Host

namespace HostRun

/-- What the next stage of a run makes of its client. -/
inductive Proceeds (r : HostRun) : HostRun → Prop where
  /-- The run begins to release everything, and closes the link. -/
  | concludes (g : Host) (status : Int)
      (hopen : (∃ file, r.stage = .launching file) ∨
        r.stage = .looping ∧ r.host.phase ≠ .running)
      (hclient : g.client = r.host.client) : Proceeds r (conclude g status)
  /-- The loop is entered, and the service published that the script declares. -/
  | enters (file : ScriptFile) (g : Host) (hstage : r.stage = .launching file)
      (hclient : g.client = r.host.client) :
      Proceeds r ⟨{ g.activateService with phase := .running }, .looping⟩
  | finishes (status : Int) (hstage : r.stage = .closing status)
      (hcan : r.host.canFinish = true) : Proceeds r ⟨r.host.finishRelease, .finished status⟩

section

variable {r : HostRun} {file : ScriptFile} {g : Host}

/-- An error is reported on the way out. -/
theorem proceeds_fail (hstage : r.stage = .launching file) (hclient : g.client = r.host.client)
    (e : HostError) : Proceeds r (fail g e) :=
  .concludes (g.inWorld fun w => w.writeError e.report) _ (Or.inl ⟨file, hstage⟩) hclient

theorem proceeds_launch (hstage : r.stage = .launching file) :
    Proceeds r (launch r.host file) := by
  unfold launch
  rcases hload : r.host.load file with ⟨result, loaded⟩
  have hloads := (r.host.loads file).client
  rw [hload] at hloads
  change loaded.client = r.host.client at hloads
  cases result with
  | error e => exact proceeds_fail hstage hloads e
  | ok _ =>
    simp only
    rcases hexecute : loaded.execute with ⟨result, ran⟩
    have hexecutes := loaded.executes.client.trans hloads
    rw [hexecute] at hexecutes
    cases result with
    | error e => exact proceeds_fail hstage hexecutes e
    | ok status =>
      cases status with
      | some status => exact .concludes ran _ (Or.inl ⟨file, hstage⟩) hexecutes
      | none =>
        simp only
        rcases hstart : ran.start with ⟨result, started⟩
        have hstarts := ran.starts.client.trans hexecutes
        rw [hstart] at hstarts
        cases result with
        | error e => exact proceeds_fail hstage hstarts e
        | ok status =>
          cases status with
          | some status => exact .concludes started _ (Or.inl ⟨file, hstage⟩) hstarts
          | none =>
            have henters := started.enters
            simp only
            rcases henter : started.enter with ⟨result, entered⟩
            rw [henter] at henters
            change Host.Enters started result entered at henters
            cases henters with
            | refused _ => exact proceeds_fail hstage hstarts _
            | entered _ => exact .enters file started hstage hstarts

/-- A run goes on to its next stage in one of three ways. -/
theorem proceeds {next : HostRun} (hstep : r.step = some next) : Proceeds r next := by
  unfold step at hstep
  cases hstage : r.stage with
  | launching file =>
    simp only [hstage, Option.some.injEq] at hstep
    subst hstep
    exact proceeds_launch hstage
  | looping =>
    simp only [hstage] at hstep
    split at hstep
    · cases hstep
    · rename_i hphase
      have hopen : (∃ file, r.stage = .launching file) ∨
          r.stage = .looping ∧ r.host.phase ≠ .running := Or.inr ⟨hstage, hphase⟩
      have hshuts := r.host.shutsDown.client
      rcases hshutdown : r.host.shutdown with ⟨result, g⟩
      rw [hshutdown] at hshuts hstep
      cases result with
      | ok status =>
        cases hstep
        exact .concludes g _ hopen hshuts
      | error e =>
        cases hstep
        exact .concludes (g.inWorld fun w => w.writeError e.report) _ hopen hshuts
  | closing status =>
    simp only [hstage] at hstep
    split at hstep
    · rename_i hcan
      cases hstep
      exact .finishes status hstage hcan
    · cases hstep
  | finished status =>
    simp only [hstage] at hstep
    cases hstep

end

end HostRun
end ScriptService
