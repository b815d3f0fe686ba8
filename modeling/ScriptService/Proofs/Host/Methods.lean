import ScriptService.Proofs.Host.Attendance
import ScriptService.Proofs.Host.Entries
import ScriptService.Proofs.Host.Indistinct
import ScriptService.Proofs.Service.Dispatch

/-!
# Answers to calls

Every call that the event loop hands on is answered by one reply with the number of the call. A
fault or an exit in a method is reported, and an exit asks the loop to stop; nothing else comes of
it: what is dispatched later is answered as if the method had returned. So the replies to a sequence
of calls are those of the dispatches, each on what the one before left of the script.

Main statement: `HostRun.methods_answered`.
-/

namespace ScriptService

/-! ## Dispatches in sequence -/

namespace Dispatch

/-- The replies to a sequence of calls, each dispatched on what the one before left. -/
def answerAll {σ : Type} (natives : Natives σ) (d : ServiceDeclaration) :
    List Request → Machine σ → List Reply × Machine σ
  | [], m => ([], m)
  | q :: rest, m =>
    let (dispatch, m) := answer natives d q m
    let (replies, m) := answerAll natives d rest m
    (dispatch.toReply q.id :: replies, m)

/-- Each call has one reply, with its number. -/
theorem ids_answerAll {σ : Type} (natives : Natives σ) (d : ServiceDeclaration)
    (calls : List Request) (m : Machine σ) :
    (answerAll natives d calls m).1.map (·.id) = calls.map (·.id) := by
  induction calls generalizing m with
  | nil => rfl
  | cons q rest ih => exact congrArg (q.id :: ·) (ih _)

theorem answerAll_related (d : ServiceDeclaration) (calls : List Request)
    {m n : Machine Resources} (hmn : Machine.Related Resources.Indistinct m n) :
    (answerAll Resources.natives d calls m).1 = (answerAll Resources.natives d calls n).1 := by
  induction calls generalizing m n with
  | nil => rfl
  | cons q rest ih =>
    obtain ⟨dispatch, m', n', hm, hn, hnext⟩ := Host.answer_related d q hmn
    simp only [answerAll, hm, hn, ih hnext]

end Dispatch

namespace Host

variable {h : Host} {d : ServiceDeclaration}

/-! ## One call -/

/-- The reply to a call: "not found" if the call names another object. -/
def replyTo (h : Host) (d : ServiceDeclaration) (q : Request) : Reply :=
  if q.object = d.object then
    let dispatch := (Dispatch.run Resources.natives d q.method q.data h.machine).1
    ⟨q.id, dispatch.status, dispatch.reply⟩
  else ⟨q.id, .notFound, none⟩

theorem toReply_answer (h : Host) (d : ServiceDeclaration) (q : Request) :
    (Dispatch.answer Resources.natives d q h.machine).1.toReply q.id = h.replyTo d q := by
  unfold Dispatch.answer replyTo
  split
  · rfl
  · rfl

/-- A session that is at work takes the reply. -/
theorem answerCall_replies {s : Session} (hservice : h.resources.service = some d)
    (hs : h.client.session = some s) (hover : s.isOver = false) (q : Request) :
    (h.answerCall q).client.session =
      some { s with replies := s.replies ++ [h.replyTo d q] } := by
  rw [answerCall_client hservice, toReply_answer, Client.reply_session hs, Session.reply, hover]
  rfl

/-- The replies to a sequence of calls are those of the dispatches: that the host takes note of
faults and exits in between makes no difference. -/
theorem answerCalls_replies {s : Session} (hservice : h.resources.service = some d)
    (hs : h.client.session = some s) (hover : s.isOver = false) (calls : List Request) :
    (calls.foldl answerCall h).client.session = some { s with
      replies := s.replies ++ (Dispatch.answerAll Resources.natives d calls h.machine).1 } := by
  induction calls generalizing h s with
  | nil => simpa [Dispatch.answerAll] using hs
  | cons q rest ih =>
    have hkept := (h.answers q).steady.service.trans hservice
    have hfirst := answerCall_replies hservice hs hover q
    -- What the host adds to the machine, a later dispatch does not see.
    have hmachine : Machine.Related Resources.Indistinct (h.answerCall q).machine
        (Dispatch.answer Resources.natives d q h.machine).2 :=
      (answerCall_indistinct hservice q).machine
    rw [List.foldl_cons, ih hkept hfirst hover, Dispatch.answerAll_related d rest hmachine,
      List.append_assoc, ← toReply_answer]
    rfl

theorem report_stopping (h : Host) (site : String) (e : ScriptError) :
    (h.report site e).resources.stopping = true ↔
      h.resources.stopping = true ∨ ∃ code, e = .exit code := by
  cases e with
  | exit code => exact iff_of_true rfl (Or.inr ⟨code, rfl⟩)
  | compile =>
    show h.resources.stopping = true ↔ _
    simp
  | exception text =>
    show h.resources.stopping = true ↔ _
    simp

/-- A call stops the loop if its method asked for that, or ended with an exit. -/
theorem answerCall_stopping (hservice : h.resources.service = some d) (q : Request) :
    (h.answerCall q).resources.stopping = true ↔
      (Dispatch.answer Resources.natives d q h.machine).2.host.stopping = true ∨
        ∃ code, (Dispatch.answer Resources.natives d q h.machine).1.error = some (.exit code) := by
  have hanswers := h.answers q
  generalize h.answerCall q = g at hanswers
  cases hanswers with
  | unserved hnone => exact absurd (hnone.symm.trans hservice) (by simp)
  | served d' dispatch machine sent client hserved hanswer hreply =>
    cases Option.some.inj (hserved.symm.trans hservice)
    have hsent : (noteSent { h with machine, client } sent q.id).resources.stopping =
        machine.host.stopping := (noteSent_alike _ sent q.id).stopping
    rw [hanswer]
    cases dispatch.error with
    | none => simp [Option.elim, hsent]
    | some e => simp [Option.elim, report_stopping, hsent]

/-- A host that takes a call from its session at work. -/
theorem nextTurn_call {next : Host} {q : Request}
    (hturn : h.nextTurn = (.dispatch (.bus (.call q)), next)) :
    ∃ s rest, h.client.session = some s ∧
      next.client.session = some { s with events := rest } ∧
        next.resources.service = h.resources.service := by
  have hclient := h.nextTurn_client
  have hkeeps := h.steady_nextTurn.service
  rw [hturn] at hclient hkeeps
  rcases hclient with ⟨e, he, hnext⟩ | ⟨hother, -⟩
  · obtain ⟨s, rest, hs, -, hsession⟩ := Client.nextEvent_eq_some hnext
    change next.client = _ at hsession
    exact ⟨s, rest, hs, by rw [hsession], hkeeps⟩
  · exact absurd rfl (hother (.call q))

end Host

namespace HostRun

/-- While the event loop runs, a call that it takes is answered by one reply, and by the service
that the global scope declares. -/
theorem Hosted.replies {r : HostRun} (hr : Hosted r) (hserved : r.host.Served)
    (hphase : r.host.phase = .running) {q : Request} {next : Host}
    (hturn : r.host.nextTurn = (.dispatch (.bus (.call q)), next)) :
    ∃ v d s, r.host.script.global? ServiceDeclaration.global = some v ∧
      ServiceDeclaration.ofValue? v = .ok d ∧ next.resources.service = some d ∧
      next.client.session = some s ∧ s.isOver = false ∧
      r.host.turn.2.client.session = some { s with replies := s.replies ++ [next.replyTo d q] } := by
  obtain ⟨s, rest, hs, hsession, hkeeps⟩ := Host.nextTurn_call hturn
  -- The session is at work as long as the loop runs.
  obtain ⟨⟨d, hd⟩, -, -, hover⟩ := (hr.looping (hr.staged.running hphase)).2 s hs
  have hservice := hkeeps.trans hd
  have hactive := hserved.symm.trans hd
  rw [Host.activeService?, if_pos (Or.inl hphase), Option.bind_eq_some_iff] at hactive
  obtain ⟨v, hglobal, hread⟩ := hactive
  have hdeclared : ServiceDeclaration.ofValue? v = .ok d := by
    cases hvalue : ServiceDeclaration.ofValue? v with
    | error e => rw [hvalue] at hread; cases hread
    | ok found =>
      rw [hvalue] at hread
      cases hread
      rfl
  refine ⟨v, d, _, hglobal, hdeclared, hservice, hsession, hover, ?_⟩
  rw [Host.turn_eq, hturn]
  exact Host.answerCall_replies hservice hsession hover q

/-- Calls are dispatched by law: the function that the declaration binds to the method is run once,
and the answer is what came of it. In every run, each call that the event loop takes is answered by
one reply with its number, which says "not found" if the call names another object. A sequence of
calls is answered by what the dispatches give, one after the other; however a method ends, whatever
is dispatched after it queues the same replies as if the method had returned, and the loop is
stopped only by an exit or by a method that asks for it. -/
theorem methods_answered :
    (∀ (v : Value) (d : ServiceDeclaration), ServiceDeclaration.ofValue? v = .ok d →
      ∀ {σ : Type} (natives : Natives σ) (method : String) (data : Option Table) (m : Machine σ),
        Dispatch.Lawful natives d (v.boundTo? method) method data m) ∧
    (∀ (config : HostConfig) (transport : Transport) (world : World) (file : ScriptFile)
      (acts : List Act), let r := (course.run (fresh config transport world file) acts).1
      r.host.phase = .running →
        ∀ q next, r.host.nextTurn = (.dispatch (.bus (.call q)), next) →
          ∃ v d s, r.host.script.global? ServiceDeclaration.global = some v ∧
            ServiceDeclaration.ofValue? v = .ok d ∧ next.resources.service = some d ∧
            next.client.session = some s ∧ s.isOver = false ∧
            r.host.turn.2.client.session =
              some { s with replies := s.replies ++ [next.replyTo d q] }) ∧
    ∀ (h : Host) (d : ServiceDeclaration), h.resources.service = some d →
      (∀ (s : Session), h.client.session = some s → s.isOver = false → ∀ calls : List Request,
        let replies := (Dispatch.answerAll Resources.natives d calls h.machine).1
        replies.map (·.id) = calls.map (·.id) ∧
          (calls.foldl Host.answerCall h).client.session =
            some { s with replies := s.replies ++ replies }) ∧
      ∀ q : Request,
        (∀ later : List LoopEvent, (later.foldl Host.dispatch (h.answerCall q)).client =
          (later.foldl Host.dispatch (h.answerQuietly d q)).client) ∧
        ((h.answerCall q).resources.stopping = true ↔
          (Dispatch.answer Resources.natives d q h.machine).2.host.stopping = true ∨
            ∃ code, (Dispatch.answer Resources.natives d q h.machine).1.error =
              some (.exit code)) := by
  refine ⟨?_, ?_, ?_⟩
  · intro v d hd σ natives method data m
    exact Dispatch.lawful hd natives method data m
  · intro config transport world file acts r hphase q next hturn
    have hhosted := (attending_run config transport world file acts).hosted
    -- A run goes on in the same way, whatever is noted of it.
    have hact : attendance.act = course.act := rfl
    rw [Observed.run_fst_eq hact] at hhosted
    exact hhosted.replies (declared_run config transport world file acts) hphase hturn
  · intro h d hservice
    constructor
    · intro s hs hover calls
      exact ⟨Dispatch.ids_answerAll Resources.natives d calls h.machine,
        Host.answerCalls_replies hservice hs hover calls⟩
    · intro q
      refine ⟨?_, Host.answerCall_stopping hservice q⟩
      intro later
      exact ((Host.answerCall_indistinct hservice q).dispatchAll later).client

/-- A script with a method that throws, and one that returns a table. -/
def boomScript : Program where
  globals := [("ubus", .map
    [("methods", .map [("boom", .map [("cb", .function "fail" [])]),
        ("ping", .map [("cb", .function "pong" [])])]),
      ("object", .constant (.string "demo"))])]
  functions := [⟨"start", 0, [[]]⟩, ⟨"fail", 0, [[.throw (.constant (.string "boom"))]]⟩,
    ⟨"pong", 0, [[.give (.table [("n", .callCount)])]]⟩]

/-- The acts until the event loop has a call of the throwing method to dispatch. -/
def boomActs : List Act :=
  [.proceed, .move, .move, .beside (.call "alice" "demo" "boom" none), .move, .turn]

/-- What the event loop finds to do is a call of the throwing method. -/
def boomWaits (r : HostRun) : Bool :=
  match r.host.nextTurn.1 with
  | .dispatch (.bus (.call q)) => q.method == "boom"
  | _ => false

/-- A run comes to dispatch a call of the throwing method: it queues one reply, as it does for a
call that comes after it. A declaration without methods answers with "method not found". -/
theorem methods_answered_boom :
    let r := (course.run (fresh {} (.memory {}) {} (.program boomScript)) boomActs).1
    ∃ (q : Request) (next : Host) (d : ServiceDeclaration) (s : Session),
      r.host.nextTurn = (.dispatch (.bus (.call q)), next) ∧ q.method = "boom" ∧
      r.host.turn.2.client.session = some { s with replies := s.replies ++ [next.replyTo d q] } ∧
      ([q, ⟨1, "demo", "ping", none⟩].foldl Host.answerCall next).client.session =
        some { s with
          replies := s.replies ++ (Dispatch.answerAll Resources.natives d
            [q, ⟨1, "demo", "ping", none⟩] next.machine).1 } ∧
      (Dispatch.run Resources.natives ⟨"demo", [], none⟩ "boom" none next.machine).1.status =
        .methodNotFound := by
  obtain ⟨hlawful, hreplies, hsequence⟩ := methods_answered
  have htaken := hreplies {} (.memory {}) {} (.program boomScript) boomActs
  -- From here on, only what is checked of the run counts.
  generalize hrun : (course.run (fresh {} (.memory {}) {} (.program boomScript)) boomActs).1 = r
  rw [hrun] at htaken
  have hphase : r.host.phase = .running := by
    rw [← hrun]
    decide +kernel
  have hcall : boomWaits r = true := by
    rw [← hrun]
    decide +kernel
  have hnone : ServiceDeclaration.ofValue?
      (.map [("methods", .map []), ("object", .string "demo")]) = .ok ⟨"demo", [], none⟩ := rfl
  clear hrun
  unfold boomWaits at hcall
  rcases hturn : r.host.nextTurn with ⟨turn, next⟩
  rw [hturn] at hcall
  split at hcall
  · rename_i q heq
    change turn = _ at heq
    subst heq
    have hmethod : q.method = "boom" := by simpa using hcall
    obtain ⟨v, d, s, -, -, hservice, hs, hover, hreplied⟩ := htaken hphase q next hturn
    refine ⟨q, next, d, s, hturn, hmethod, hreplied, ?_, ?_⟩
    · exact ((hsequence next d hservice).1 s hs hover _).2
    · exact (hlawful _ _ hnone Resources.natives "boom" none next.machine).notFound.2 rfl
  · cases hcall

end HostRun
end ScriptService
