import ScriptService.Proofs.Children.Signals
import ScriptService.Proofs.World.Clock
import ScriptService.Proofs.World.Processes

/-!
# The calls that stop children

Children are stopped by calls into the system: each is asked to end, looked at, forced to end or
waited for. This module holds the calls, in order and with their answers, and what each kind of them
does to several children.

Main statements: `ChildList.signalAll_spec`, `ChildList.stillAlive_spec`, `ChildList.killAll_gone`
and `ChildList.Makes.reports`.
-/

namespace ScriptService

/-- A call into the system that is made to stop children, with its answer. -/
inductive StopCall where
  /-- A termination signal, and whether a process took it. -/
  | ask (pid : Int) (taken : Bool)
  /-- A wait that does not block. -/
  | look (pid : Int) (answer : WaitAnswer)
  | pause
  /-- A signal that cannot be ignored. -/
  | force (pid : Int)
  /-- A wait until a child ends. -/
  | await (pid : Int) (answer : WaitAnswer)
  deriving DecidableEq

deriving instance DecidableEq for Stamped

namespace StopCall

/-- The number whose process a call kills or waits for. -/
def touched? : StopCall → Option Int
  | look pid _ => some pid
  | force pid => some pid
  | await pid _ => some pid
  | _ => none

/-- The number that a call sends a signal to that cannot be ignored. -/
def forced? : StopCall → Option Int
  | force pid => some pid
  | _ => none

/-- Whether a call reports the end of a child. -/
def reports (pid : Int) : StopCall → Bool
  | look p (.ended _) => p == pid
  | await p (.ended _) => p == pid
  | _ => false

end StopCall

namespace World

/-- The world after a child was forced to end. -/
def force (w : World) (pid : Int) : World :=
  ((w.warn "Child ignored SIGTERM, killing" [ChildList.pidDetail pid]).kill pid Kernel.sigKill).2

/-- The world at the time when a wait for the end of a child comes back. -/
def awaited (w : World) (pid : Int) : World := { w with clock := w.kernel.waitUntil w.clock pid }

/-- Whether a call has the answer that the system gives. -/
def Answers (w : World) : StopCall → Prop
  | .ask pid taken => taken = (w.kill pid Kernel.sigTerm).1.isOk
  | .look pid answer => answer = (w.poll pid).1
  | .pause => True
  | .force _ => True
  | .await pid answer => answer = ((w.awaited pid).poll pid).1

/-- The world after a call. -/
def after (w : World) : StopCall → World
  | .ask pid _ => (w.kill pid Kernel.sigTerm).2
  | .look pid _ => (w.poll pid).2
  | .pause => w.sleep ChildList.pollInterval
  | .force pid => w.force pid
  | .await pid _ => w.wait pid

end World

namespace ChildList

/-- What a list of calls makes of a world: each is made in turn, at the time of the clock, and has
the answer that the system gives. -/
inductive Makes : World → List (Stamped StopCall) → World → Prop where
  | nil (w : World) : Makes w [] w
  | cons {w v : World} {c : StopCall} {calls : List (Stamped StopCall)} (hc : w.Answers c)
    (h : Makes (w.after c) calls v) : Makes w (⟨w.clock, c⟩ :: calls) v

theorem Makes.append {w v u : World} {calls later : List (Stamped StopCall)} (h : Makes w calls v)
    (hlater : Makes v later u) : Makes w (calls ++ later) u := by
  induction h with
  | nil => exact hlater
  | cons hc _ ih => exact .cons hc (ih hlater)

/-! ## The calls -/

/-- The calls by which children are asked to end. -/
def askCalls (w : World) : List Int → List (Stamped StopCall)
  | [] => []
  | pid :: rest =>
    ⟨w.clock, .ask pid (w.kill pid Kernel.sigTerm).1.isOk⟩ ::
      askCalls (w.kill pid Kernel.sigTerm).2 rest

/-- The calls of one look at children. -/
def lookCalls (w : World) : List Int → List (Stamped StopCall)
  | [] => []
  | pid :: rest => ⟨w.clock, .look pid (w.poll pid).1⟩ :: lookCalls (w.poll pid).2 rest

/-- The calls by which children are awaited until a deadline. -/
def waitCalls (deadline : Nat) : Nat → World → List Int → List (Stamped StopCall)
  | 0, w, pids => lookCalls w pids
  | fuel + 1, w, pids =>
    let (running, v) := stillAlive w pids
    lookCalls w pids ++
      if running.isEmpty ∨ deadline ≤ v.clock then []
      else ⟨v.clock, .pause⟩ :: waitCalls deadline fuel (v.sleep pollInterval) running

/-- The calls by which children are forced to end. -/
def forceCalls (w : World) : List Int → List (Stamped StopCall)
  | [] => []
  | pid :: rest =>
    let v := w.force pid
    ⟨w.clock, .force pid⟩ :: ⟨v.clock, .await pid ((v.awaited pid).poll pid).1⟩ ::
      forceCalls (v.wait pid) rest

/-- All calls by which children are stopped. -/
def stopCalls (list : ChildList) (grace : Nat) (w : World) : List (Stamped StopCall) :=
  let (running, v) := signalAll w list.pids
  let (left, u) := awaitEnds (v.clock + grace) (grace / pollInterval + 1) v running
  askCalls w list.pids ++ waitCalls (v.clock + grace) (grace / pollInterval + 1) v running ++
    forceCalls u left

/-- The children found alive since the last pause, after one more call. -/
def noteAlive (found : List Int) (c : Stamped StopCall) : List Int :=
  match c.event with
  | .look pid .stillAlive => found ++ [pid]
  | .pause => []
  | _ => found

/-- The children that the last look found alive. -/
def aliveAtLastLook (calls : List (Stamped StopCall)) : List Int := calls.foldl noteAlive []

/-! ## Asking -/

section

variable {w : World} {pids : List Int} {pid q : Int} {p : Process}

theorem signalAll_cons (w : World) (pid : Int) (rest : List Int) :
    signalAll w (pid :: rest) =
      (if (w.kill pid Kernel.sigTerm).1.isOk then
        pid :: (signalAll (w.kill pid Kernel.sigTerm).2 rest).1
      else (signalAll (w.kill pid Kernel.sigTerm).2 rest).1,
      (signalAll (w.kill pid Kernel.sigTerm).2 rest).2) := by
  rw [signalAll]
  simp only
  split <;> rename_i hresult <;> rw [hresult] <;> rfl

theorem makes_askCalls (w : World) (pids : List Int) :
    Makes w (askCalls w pids) (signalAll w pids).2 := by
  induction pids generalizing w with
  | nil => exact .nil w
  | cons pid rest ih =>
    rw [signalAll_cons]
    exact .cons rfl (ih _)

/-- What asking several children to end does: each signal is taken if there is a process, and
changes no other one. -/
theorem signalAll_spec (hnodup : pids.Nodup) :
    (signalAll w pids).1 = pids.filter w.kernel.hasProcess ∧
      askCalls w pids = pids.map (fun pid => ⟨w.clock, .ask pid (w.kernel.hasProcess pid)⟩) ∧
        w.kernel.ChangedAll (signalAll w pids).2.kernel pids (Process.asked w.clock) := by
  induction pids generalizing w with
  | nil => exact ⟨rfl, rfl, .nil w.kernel _⟩
  | cons pid rest ih =>
    obtain ⟨hnew, hrest⟩ := List.nodup_cons.1 hnodup
    obtain ⟨htaken, hchanged⟩ := Kernel.find?_kill_sigTerm w.kernel w.clock pid
    obtain ⟨hrunning, hcalls, hfound⟩ := ih (w := (w.kill pid Kernel.sigTerm).2) hrest
    have htaken' : (w.kill pid Kernel.sigTerm).1.isOk = w.kernel.hasProcess pid := htaken
    -- The rest are asked as if the first child had not been asked.
    have hothers : ∀ q ∈ rest, (w.kill pid Kernel.sigTerm).2.kernel.hasProcess q =
        w.kernel.hasProcess q := by
      intro q hq
      have hne : q ≠ pid := fun heq => hnew (heq ▸ hq)
      exact congrArg (Option.any Process.isThere) (hchanged.of_ne hne)
    refine ⟨?_, ?_, ?_⟩
    · rw [signalAll_cons, htaken', hrunning, List.filter_congr hothers, List.filter_cons]
    · rw [askCalls, hcalls, htaken', List.map_cons]
      refine congrArg _ (List.map_congr_left fun q hq => ?_)
      rw [hothers q hq]
      rfl
    · rw [signalAll_cons]
      exact hchanged.cons hnew hfound

/-! ## Looking -/

theorem stillAlive_cons (w : World) (pid : Int) (rest : List Int) :
    stillAlive w (pid :: rest) =
      (if (w.poll pid).1 = .stillAlive then pid :: (stillAlive (w.poll pid).2 rest).1
      else (stillAlive (w.poll pid).2 rest).1, (stillAlive (w.poll pid).2 rest).2) := by
  rw [stillAlive]
  simp only
  split
  · rename_i halive
    rw [if_pos halive]
  · rename_i hother
    rw [if_neg hother]

theorem poll_fst (w : World) (pid : Int) : (w.poll pid).1 =
    ((w.kernel.find? pid).map (Process.answer w.clock)).getD (.failed .noChild) :=
  (Kernel.find?_poll w.kernel w.clock pid).1

theorem makes_lookCalls (w : World) (pids : List Int) :
    Makes w (lookCalls w pids) (stillAlive w pids).2 := by
  induction pids generalizing w with
  | nil => exact .nil w
  | cons pid rest ih =>
    rw [stillAlive_cons]
    exact .cons rfl (ih _)

/-- What one look at several children does: each is found alive or not by itself, and the ends of
those that have ended are taken. -/
theorem stillAlive_spec (hnodup : pids.Nodup) :
    (stillAlive w pids).1 = pids.filter (fun pid => decide ((w.poll pid).1 = .stillAlive)) ∧
      lookCalls w pids = pids.map (fun pid => ⟨w.clock, .look pid (w.poll pid).1⟩) ∧
        w.kernel.ChangedAll (stillAlive w pids).2.kernel pids (Process.looked w.clock) := by
  induction pids generalizing w with
  | nil => exact ⟨rfl, rfl, .nil w.kernel _⟩
  | cons pid rest ih =>
    obtain ⟨hnew, hrest⟩ := List.nodup_cons.1 hnodup
    obtain ⟨-, hchanged⟩ := Kernel.find?_poll w.kernel w.clock pid
    obtain ⟨hrunning, hcalls, hfound⟩ := ih (w := (w.poll pid).2) hrest
    -- The rest are looked at as if the first child had not been looked at.
    have hothers : ∀ q ∈ rest, ((w.poll pid).2.poll q).1 = (w.poll q).1 := by
      intro q hq
      have hne : q ≠ pid := fun heq => hnew (heq ▸ hq)
      rw [poll_fst, poll_fst]
      show (((w.kernel.poll w.clock pid).2.find? q).map (Process.answer w.clock)).getD _ = _
      rw [hchanged.of_ne hne]
    refine ⟨?_, ?_, ?_⟩
    · rw [stillAlive_cons, hrunning, List.filter_cons]
      rw [List.filter_congr fun q hq => by rw [hothers q hq]]
      simp only [decide_eq_true_eq]
    · rw [lookCalls, hcalls, List.map_cons]
      refine congrArg _ (List.map_congr_left fun q hq => ?_)
      rw [hothers q hq]
      rfl
    · rw [stillAlive_cons]
      exact hchanged.cons hnew hfound

/-- A wait finds a child alive if it is found and is alive. -/
theorem poll_eq_stillAlive_iff :
    (w.poll pid).1 = .stillAlive ↔
      ∃ p, w.kernel.find? pid = some p ∧ p.answer w.clock = .stillAlive := by
  rw [poll_fst]
  cases w.kernel.find? pid with
  | none => simp
  | some p => simp

/-- A child that a look finds alive is alive after the look. -/
theorem running_of_mem_stillAlive (hnodup : pids.Nodup) (h : pid ∈ (stillAlive w pids).1) :
    ∃ p, (stillAlive w pids).2.kernel.find? pid = some p ∧ p.IsRunning := by
  obtain ⟨hrunning, -, hfound⟩ := stillAlive_spec (w := w) hnodup
  rw [hrunning, List.mem_filter, decide_eq_true_eq] at h
  obtain ⟨p, hp, halive⟩ := poll_eq_stillAlive_iff.1 h.2
  refine ⟨p, ?_, Process.isRunning_of_answer halive⟩
  rw [hfound.of_mem h.1 hp, Process.looked_of_stillAlive halive]

/-- A look either finds a child alive or takes its end. -/
theorem settled_of_stillAlive (hnodup : pids.Nodup) (hmem : pid ∈ pids)
    (hp : w.kernel.find? pid = some p) (hwaitable : p.IsWaitable) :
    pid ∈ (stillAlive w pids).1 ∨
      pid ∉ (stillAlive w pids).1 ∧
        ∃ q, (stillAlive w pids).2.kernel.find? pid = some q ∧ q.state = .gone := by
  obtain ⟨hrunning, -, hfound⟩ := stillAlive_spec (w := w) hnodup
  have hiff : pid ∈ (stillAlive w pids).1 ↔ p.answer w.clock = .stillAlive := by
    rw [hrunning, List.mem_filter, decide_eq_true_eq, poll_eq_stillAlive_iff, hp]
    simp [hmem]
  rcases hwaitable.answer w.clock with halive | ⟨how, hended⟩
  · exact .inl (hiff.2 halive)
  · refine .inr ⟨fun h => ?_, p.looked w.clock, hfound.of_mem hmem hp,
      Process.looked_gone_iff.2 (.inr ⟨how, hended⟩)⟩
    rw [hiff, hended] at h
    cases h

end

/-! ## Forcing -/

section

variable {w : World} {pids : List Int} {pid : Int} {p : Process}

theorem makes_forceCalls (w : World) (pids : List Int) :
    Makes w (forceCalls w pids) (killAll w pids) := by
  induction pids generalizing w with
  | nil => exact .nil w
  | cons pid rest ih => exact .cons trivial (.cons rfl (ih _))

/-- When the wait for a forced child comes back. -/
def endTime (w : World) (pid : Int) : Nat := (w.force pid).kernel.waitUntil w.clock pid

theorem find?_force (w : World) (pid q : Int) : (w.force pid).kernel.find? q =
    (w.kernel.find? q).map fun p => if q = pid then p.forced w.clock else p :=
  Kernel.find?_kill_sigKill w.kernel w.clock pid q

theorem find?_forceWait (w : World) (pid q : Int) : ((w.force pid).wait pid).kernel.find? q =
    (w.kernel.find? q).map fun p =>
      if q = pid then (p.forced w.clock).looked (endTime w pid) else p := by
  have hwait := (Kernel.find?_poll (w.force pid).kernel (endTime w pid) pid).2 q
  refine hwait.trans ?_
  rw [find?_force, Option.map_map]
  refine congrArg (Option.map · (w.kernel.find? q)) (funext fun p => ?_)
  by_cases hq : q = pid
  · simp [hq]
  · simp [hq]

/-- A running child that is forced to end ends, and the wait for it reports that. -/
theorem ended_of_force (hp : w.kernel.find? pid = some p) (hrunning : p.IsRunning) :
    ∃ how, (((w.force pid).awaited pid).poll pid).1 = .ended how ∧
      (p.forced w.clock).answer (endTime w pid) = .ended how := by
  have hforced : (w.force pid).kernel.find? pid = some (p.forced w.clock) := by
    rw [find?_force, hp, Option.map_some, if_pos rfl]
  obtain ⟨how, hended⟩ := Kernel.answer_waitUntil hforced hrunning w.clock
  refine ⟨how, ?_, hended⟩
  rw [poll_fst]
  show (((w.force pid).kernel.find? pid).map (Process.answer (endTime w pid))).getD _ = _
  rw [hforced]
  exact hended

theorem killAll_cons (w : World) (pid : Int) (rest : List Int) :
    killAll w (pid :: rest) = killAll ((w.force pid).wait pid) rest := rfl

/-- A child that runs still does when another one was forced to end. -/
theorem running_forceWait {q : Int} (hne : q ≠ pid)
    (h : ∃ p, w.kernel.find? q = some p ∧ p.IsRunning) :
    ∃ p, ((w.force pid).wait pid).kernel.find? q = some p ∧ p.IsRunning := by
  rw [find?_forceWait]
  simpa [hne] using h

/-- Other processes stay as they are. -/
theorem killAll_untouched {q : Int} (hq : q ∉ pids) :
    (killAll w pids).kernel.find? q = w.kernel.find? q := by
  induction pids generalizing w with
  | nil => rfl
  | cons pid rest ih =>
    obtain ⟨hne, hrest⟩ := not_or.1 (mt List.mem_cons.2 hq)
    rw [killAll_cons, ih hrest, find?_forceWait]
    simp [hne]

/-- Forcing running children to end leaves all of them gone. -/
theorem killAll_gone (hnodup : pids.Nodup)
    (hrunning : ∀ pid ∈ pids, ∃ p, w.kernel.find? pid = some p ∧ p.IsRunning) :
    ∀ pid ∈ pids, ∃ q, (killAll w pids).kernel.find? pid = some q ∧ q.state = .gone := by
  induction pids generalizing w with
  | nil => exact nofun
  | cons pid rest ih =>
    obtain ⟨hnew, hrest⟩ := List.nodup_cons.1 hnodup
    intro q hq
    rcases List.mem_cons.1 hq with rfl | hq
    · -- It is gone when the wait for it comes back, and is not among the rest.
      obtain ⟨p, hp, hp'⟩ := hrunning q List.mem_cons_self
      obtain ⟨how, -, hended⟩ := ended_of_force hp hp'
      refine ⟨(p.forced w.clock).looked (endTime w q), ?_,
        Process.looked_gone_iff.2 (.inr ⟨how, hended⟩)⟩
      rw [killAll_cons, killAll_untouched hnew, find?_forceWait, hp, Option.map_some, if_pos rfl]
    · refine ih hrest (fun r hr => running_forceWait ?_ (hrunning r (.tail pid hr))) q hq
      rintro rfl
      exact hnew hr

/-- Each of them is forced to end once, and the wait for it reports its end. -/
theorem forceCalls_awaited (hnodup : pids.Nodup)
    (hrunning : ∀ pid ∈ pids, ∃ p, w.kernel.find? pid = some p ∧ p.IsRunning) :
    ∀ c ∈ forceCalls w pids, ∃ pid ∈ pids,
      c.event = .force pid ∨ ∃ how, c.event = .await pid (.ended how) := by
  induction pids generalizing w with
  | nil => exact nofun
  | cons pid rest ih =>
    obtain ⟨hnew, hrest⟩ := List.nodup_cons.1 hnodup
    intro c hc
    rw [forceCalls, List.mem_cons, List.mem_cons] at hc
    rcases hc with rfl | rfl | hc
    · exact ⟨pid, List.mem_cons_self, .inl rfl⟩
    · obtain ⟨p, hp, hp'⟩ := hrunning pid List.mem_cons_self
      obtain ⟨how, hended, -⟩ := ended_of_force hp hp'
      refine ⟨pid, List.mem_cons_self, .inr ⟨how, ?_⟩⟩
      show StopCall.await pid (((w.force pid).awaited pid).poll pid).1 = _
      rw [hended]
    · have hothers : ∀ r ∈ rest, r ≠ pid := by
        rintro r hr rfl
        exact hnew hr
      obtain ⟨q, hq, hevent⟩ := ih hrest
        (fun r hr => running_forceWait (hothers r hr) (hrunning r (.tail pid hr))) c hc
      exact ⟨q, .tail pid hq, hevent⟩

theorem le_time_forceCalls : ∀ c ∈ forceCalls w pids, w.clock ≤ c.time := by
  induction pids generalizing w with
  | nil => exact nofun
  | cons pid rest ih =>
    intro c hc
    rw [forceCalls, List.mem_cons, List.mem_cons] at hc
    rcases hc with rfl | rfl | hc
    · exact Nat.le_refl _
    · exact Nat.le_refl _
    · refine Nat.le_trans ?_ (ih c hc)
      exact clock_le_killAll w [pid]

theorem forced_forceCalls (w : World) (pids : List Int) :
    (forceCalls w pids).filterMap (·.event.forced?) = pids := by
  induction pids generalizing w with
  | nil => rfl
  | cons pid rest ih => exact congrArg (pid :: ·) (ih _)

theorem foldl_forceCalls (w : World) (pids found : List Int) :
    (forceCalls w pids).foldl noteAlive found = found := by
  induction pids generalizing w with
  | nil => rfl
  | cons pid rest ih => exact ih _

end

/-! ## Reports -/

/-- How often the end of a process was reported: once if it is gone. -/
def goneCount (p : Process) : Nat := if p.state = .gone then 1 else 0

theorem goneCount_congr {p q : Process} (h : q.state = .gone ↔ p.state = .gone) :
    goneCount q = goneCount p := by
  unfold goneCount
  simp only [h]

/-- A wait reports the end of a process just when it leaves it gone. -/
theorem goneCount_looked (now : Nat) (p : Process) (pid : Int) : goneCount (p.looked now) =
    goneCount p + ((StopCall.look pid (p.answer now)).reports pid).toNat := by
  cases hanswer : p.answer now with
  | stillAlive => simp [Process.looked, hanswer, StopCall.reports]
  | ended how =>
    have hgone : p.state ≠ .gone := by
      intro hgone
      rw [Process.answer_of_gone hgone] at hanswer
      cases hanswer
    simp [Process.looked, hanswer, StopCall.reports, goneCount, hgone]
  | failed e => simp [Process.looked, hanswer, StopCall.reports]

theorem reports_await (pid q : Int) (answer : WaitAnswer) :
    (StopCall.await q answer).reports pid = (StopCall.look q answer).reports pid := by
  cases answer <;> rfl

theorem reports_look_of_ne {pid q : Int} (hne : q ≠ pid) (answer : WaitAnswer) :
    (StopCall.look q answer).reports pid = false := by
  cases answer with
  | ended how => exact beq_eq_false_iff_ne.2 hne
  | _ => rfl

/-- One call reports the end of a process just when it leaves it gone. -/
theorem reports_step {w : World} {c : StopCall} {pid : Int} {p : Process} (hc : w.Answers c)
    (hp : w.kernel.find? pid = some p) :
    ∃ q, (w.after c).kernel.find? pid = some q ∧
      goneCount q = goneCount p + (c.reports pid).toNat := by
  -- Signals take no end; a wait takes the end of the child it is for, at the time it comes back.
  have hlooked : ∀ {u : World} {r : Int} {p : Process} {answer : WaitAnswer},
      u.kernel.find? pid = some p → answer = (u.poll r).1 →
        ∃ q, (u.poll r).2.kernel.find? pid = some q ∧
          goneCount q = goneCount p + ((StopCall.look r answer).reports pid).toNat := by
    intro u r p answer hp hanswer
    have hfound := (Kernel.find?_poll u.kernel u.clock r).2 pid
    rw [hp, Option.map_some] at hfound
    refine ⟨_, hfound, ?_⟩
    by_cases hpid : pid = r
    · subst hpid
      rw [if_pos rfl, hanswer, poll_fst, hp]
      exact goneCount_looked u.clock p pid
    · rw [if_neg hpid, reports_look_of_ne (Ne.symm hpid)]
      rfl
  cases c with
  | ask r taken =>
    have hfound := (Kernel.find?_kill_sigTerm w.kernel w.clock r).2 pid
    rw [hp, Option.map_some] at hfound
    refine ⟨_, hfound, ?_⟩
    split
    · exact goneCount_congr Process.asked_gone_iff
    · rfl
  | look r answer => exact hlooked hp hc
  | pause => exact ⟨p, hp, rfl⟩
  | force r =>
    refine ⟨_, (find?_force w r pid).trans (by rw [hp, Option.map_some]), ?_⟩
    split
    · exact goneCount_congr Process.forced_gone_iff
    · rfl
  | await r answer =>
    rw [reports_await]
    exact hlooked (u := w.awaited r) hp hc

/-- However a process is signalled and waited for, its end is reported at most once, and exactly
once if it is gone in the end. -/
theorem Makes.reports {w v : World} {calls : List (Stamped StopCall)} {pid : Int} {p : Process}
    (h : Makes w calls v) (hp : w.kernel.find? pid = some p) :
    ∃ q, v.kernel.find? pid = some q ∧
      goneCount q = goneCount p + calls.countP fun c => c.event.reports pid := by
  induction h generalizing p with
  | nil w => exact ⟨p, hp, rfl⟩
  | @cons w v c calls hc _ ih =>
    obtain ⟨p', hp', hone⟩ := reports_step hc hp
    obtain ⟨q, hq, hrest⟩ := ih hp'
    refine ⟨q, hq, ?_⟩
    rw [hrest, hone, List.countP_cons]
    cases c.reports pid with
    | false => simp
    | true =>
      simp only [Bool.toNat_true, if_true]
      omega

end ChildList
end ScriptService
