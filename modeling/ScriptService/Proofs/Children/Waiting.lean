import ScriptService.Proofs.Children.StopCalls

/-!
# Waiting for children to end

Children that were asked to end are looked at, with pauses, until none of them is alive or a
deadline has passed. Those that are left are alive, the others are gone.

Main statements: `ChildList.waits_awaitEnds`, `ChildList.Waits.settled` and
`ChildList.Waits.lastLook`.
-/

namespace ScriptService

namespace ChildList

/-- The loop that looks at children until none is alive or the deadline has passed. -/
inductive Waits (deadline : Nat) :
    World → List Int → List (Stamped StopCall) → List Int → World → Prop where
  | stop {w : World} {pids : List Int}
    (h : (stillAlive w pids).1 = [] ∨ deadline ≤ w.clock) :
    Waits deadline w pids (lookCalls w pids) (stillAlive w pids).1 (stillAlive w pids).2
  | again {w v : World} {pids left : List Int} {calls : List (Stamped StopCall)}
    (halive : (stillAlive w pids).1 ≠ []) (hearly : w.clock < deadline)
    (h : Waits deadline ((stillAlive w pids).2.sleep pollInterval) (stillAlive w pids).1 calls
      left v) :
    Waits deadline w pids (lookCalls w pids ++ ⟨w.clock, .pause⟩ :: calls) left v

section

variable {deadline fuel : Nat} {w v : World} {pids left : List Int}
  {calls : List (Stamped StopCall)} {pid : Int} {p : Process}

/-- With fuel for all looks until the deadline, children are awaited as the loop says. -/
theorem waits_awaitEnds (hfuel : deadline ≤ w.clock + fuel * pollInterval) :
    Waits deadline w pids (waitCalls deadline fuel w pids) (awaitEnds deadline fuel w pids).1
      (awaitEnds deadline fuel w pids).2 := by
  induction fuel generalizing w pids with
  | zero => exact .stop (.inr (by omega))
  | succ fuel ih =>
    have hclock := clock_stillAlive w pids
    unfold waitCalls awaitEnds
    simp only [List.isEmpty_iff, hclock]
    split
    · rename_i hstop
      rw [List.append_nil]
      exact .stop hstop
    · rename_i hgo
      rw [not_or, Nat.not_le] at hgo
      refine .again hgo.1 hgo.2 (ih ?_)
      show deadline ≤ (stillAlive w pids).2.clock + pollInterval + fuel * pollInterval
      rw [hclock]
      rw [Nat.add_mul] at hfuel
      omega

/-- The loop ends in one way only, whatever fuel it is given beyond what it needs. -/
theorem Waits.awaitEnds_eq (h : Waits deadline w pids calls left v)
    (hfuel : deadline ≤ w.clock + fuel * pollInterval) :
    awaitEnds deadline fuel w pids = (left, v) := by
  induction h generalizing fuel with
  | @stop w pids hstop =>
    have hclock := clock_stillAlive w pids
    cases fuel with
    | zero => rfl
    | succ fuel =>
      unfold awaitEnds
      simp only [List.isEmpty_iff, hclock, if_pos hstop]
  | @again w v pids left calls halive hearly h ih =>
    have hclock := clock_stillAlive w pids
    -- Each look but the last comes before the deadline, so there is fuel for one more.
    cases fuel with
    | zero => omega
    | succ fuel =>
      unfold awaitEnds
      have hgo : ¬((stillAlive w pids).1 = [] ∨ deadline ≤ w.clock) := by
        rw [not_or, Nat.not_le]
        exact ⟨halive, hearly⟩
      simp only [List.isEmpty_iff, hclock, if_neg hgo]
      refine ih ?_
      show deadline ≤ (stillAlive w pids).2.clock + pollInterval + fuel * pollInterval
      rw [hclock]
      rw [Nat.add_mul] at hfuel
      omega

theorem Waits.makes (h : Waits deadline w pids calls left v) : Makes w calls v := by
  induction h with
  | stop _ => exact makes_lookCalls _ _
  | @again w v pids left calls _ _ _ ih =>
    refine (makes_lookCalls w pids).append ?_
    rw [← clock_stillAlive w pids]
    exact .cons trivial ih

theorem Waits.sublist (h : Waits deadline w pids calls left v) : left.Sublist pids := by
  induction h with
  | stop _ => exact stillAlive_sublist _ _
  | again _ _ _ ih => exact ih.trans (stillAlive_sublist _ _)

/-- Children are left alive only once the deadline has passed. -/
theorem Waits.patient (h : Waits deadline w pids calls left v) : left = [] ∨ deadline ≤ v.clock := by
  induction h with
  | @stop w pids hstop => rwa [clock_stillAlive]
  | again _ _ _ ih => exact ih

/-- The children that are left are alive. -/
theorem Waits.running (h : Waits deadline w pids calls left v) (hnodup : pids.Nodup) :
    ∀ pid ∈ left, ∃ p, v.kernel.find? pid = some p ∧ p.IsRunning := by
  induction h with
  | stop _ => exact fun pid hpid => running_of_mem_stillAlive hnodup hpid
  | again _ _ _ ih => exact ih (hnodup.sublist (stillAlive_sublist _ _))

/-- Other processes stay as they are. -/
theorem Waits.untouched (h : Waits deadline w pids calls left v) (hnodup : pids.Nodup) {q : Int}
    (hq : q ∉ pids) : v.kernel.find? q = w.kernel.find? q := by
  have hlook : ∀ {w : World} {pids : List Int}, pids.Nodup → q ∉ pids →
      (stillAlive w pids).2.kernel.find? q = w.kernel.find? q := by
    intro w pids hnodup hq
    exact (stillAlive_spec hnodup).2.2.of_not_mem hq
  induction h with
  | stop _ => exact hlook hnodup hq
  | @again w v pids left calls _ _ _ ih =>
    have hsub := stillAlive_sublist w pids
    exact (ih (hnodup.sublist hsub) fun hmem => hq (hsub.mem hmem)).trans (hlook hnodup hq)

/-- A child whose end a wait reports is left alive or is gone. -/
theorem Waits.settled (h : Waits deadline w pids calls left v) (hnodup : pids.Nodup)
    (hmem : pid ∈ pids) (hp : w.kernel.find? pid = some p) (hwaitable : p.IsWaitable) :
    pid ∈ left ∨ ∃ q, v.kernel.find? pid = some q ∧ q.state = .gone := by
  induction h generalizing p with
  | stop _ => exact (settled_of_stillAlive hnodup hmem hp hwaitable).imp_right And.right
  | @again w v pids left calls _ _ hrest ih =>
    have hrunning := hnodup.sublist (stillAlive_sublist w pids)
    -- A look either finds the child alive or takes its end, after which it is not looked at again.
    rcases settled_of_stillAlive hnodup hmem hp hwaitable with halive | ⟨hnone, q, hq, hgone⟩
    · obtain ⟨q, hq, hq'⟩ := running_of_mem_stillAlive hnodup halive
      exact ih hrunning halive hq hq'.isWaitable
    · exact .inr ⟨q, (hrest.untouched hrunning hnone).trans hq, hgone⟩

theorem mem_lookCalls {c : Stamped StopCall} (hnodup : pids.Nodup) (h : c ∈ lookCalls w pids) :
    ∃ pid ∈ pids, c.event = .look pid (w.poll pid).1 := by
  rw [(stillAlive_spec hnodup).2.1] at h
  obtain ⟨pid, hpid, rfl⟩ := List.mem_map.1 h
  exact ⟨pid, hpid, rfl⟩

/-- Waiting takes looks at the children and pauses, nothing else. -/
theorem Waits.events (h : Waits deadline w pids calls left v) (hnodup : pids.Nodup) :
    ∀ c ∈ calls, c.event = .pause ∨ ∃ pid ∈ pids, ∃ answer, c.event = .look pid answer := by
  induction h with
  | stop _ =>
    intro c hc
    obtain ⟨pid, hpid, hevent⟩ := mem_lookCalls hnodup hc
    exact .inr ⟨pid, hpid, _, hevent⟩
  | @again w v pids left calls _ _ _ ih =>
    have hsub := stillAlive_sublist w pids
    intro c hc
    rcases List.mem_append.1 hc with hc | hc
    · obtain ⟨pid, hpid, hevent⟩ := mem_lookCalls hnodup hc
      exact .inr ⟨pid, hpid, _, hevent⟩
    · rcases List.mem_cons.1 hc with rfl | hc
      · exact .inl rfl
      · refine (ih (hnodup.sublist hsub) c hc).imp_right ?_
        rintro ⟨pid, hpid, hanswer⟩
        exact ⟨pid, hsub.mem hpid, hanswer⟩

/-- No child is looked at that is not there any more. -/
theorem Waits.found (h : Waits deadline w pids calls left v) (hnodup : pids.Nodup)
    (hthere : ∀ pid ∈ pids, ∃ p, w.kernel.find? pid = some p ∧ p.state ≠ .gone ∧ p.state ≠ .lost) :
    ∀ c ∈ calls, ∀ pid answer, c.event = .look pid answer → answer ≠ .failed .noChild := by
  have hlook : ∀ {w : World} {pids : List Int}, pids.Nodup →
      (∀ pid ∈ pids, ∃ p, w.kernel.find? pid = some p ∧ p.state ≠ .gone ∧ p.state ≠ .lost) →
        ∀ c ∈ lookCalls w pids, ∀ pid answer, c.event = .look pid answer →
          answer ≠ .failed .noChild := by
    intro w pids hnodup hthere c hc pid answer hevent
    obtain ⟨q, hq, hevent'⟩ := mem_lookCalls hnodup hc
    cases hevent.symm.trans hevent'
    obtain ⟨p, hp, hgone, hlost⟩ := hthere pid hq
    rw [poll_fst, hp]
    exact Process.answer_ne_noChild hgone hlost
  induction h with
  | stop _ => exact hlook hnodup hthere
  | @again w v pids left calls _ _ _ ih =>
    intro c hc
    rcases List.mem_append.1 hc with hc | hc
    · exact hlook hnodup hthere c hc
    · rcases List.mem_cons.1 hc with rfl | hc
      · exact nofun
      · refine ih (hnodup.sublist (stillAlive_sublist w pids)) ?_ c hc
        intro pid hpid
        obtain ⟨p, hp, hrunning⟩ := running_of_mem_stillAlive hnodup hpid
        exact ⟨p, hp, hrunning.isWaitable.1, hrunning.isWaitable.2.1⟩

theorem foldl_lookCalls (w : World) (pids found : List Int) :
    (lookCalls w pids).foldl noteAlive found = found ++ (stillAlive w pids).1 := by
  induction pids generalizing w found with
  | nil => exact (List.append_nil found).symm
  | cons pid rest ih =>
    rw [lookCalls, List.foldl_cons, ih, stillAlive_cons]
    cases hanswer : (w.poll pid).1 with
    | stillAlive => simp [noteAlive]
    | ended how => simp [noteAlive]
    | failed e => simp [noteAlive]

theorem foldl_askCalls (w : World) (pids found : List Int) :
    (askCalls w pids).foldl noteAlive found = found := by
  induction pids generalizing w with
  | nil => rfl
  | cons pid rest ih => exact ih _

/-- The children that are left are those that the last look found alive. -/
theorem Waits.lastLook (h : Waits deadline w pids calls left v) :
    aliveAtLastLook calls = left := by
  induction h with
  | stop _ => exact foldl_lookCalls _ _ _
  | again _ _ _ ih =>
    rw [aliveAtLastLook, List.foldl_append, List.foldl_cons]
    exact ih

/-- The last pause begins before the deadline. -/
theorem Waits.paused (h : Waits deadline w pids calls left v) (hnodup : pids.Nodup)
    (hclock : w.clock < deadline + pollInterval) :
    w.clock + pollInterval * (calls.countP fun c => c.event = .pause) <
      deadline + pollInterval := by
  have hlook : ∀ {w : World} {pids : List Int}, pids.Nodup →
      ((lookCalls w pids).countP fun c => c.event = .pause) = 0 := by
    intro w pids hnodup
    rw [List.countP_eq_zero]
    intro c hc
    obtain ⟨pid, -, hevent⟩ := mem_lookCalls hnodup hc
    simp [hevent]
  induction h with
  | stop _ =>
    rw [hlook hnodup]
    exact hclock
  | @again w v pids left calls _ hearly _ ih =>
    have hnext : ((stillAlive w pids).2.sleep pollInterval).clock = w.clock + pollInterval := by
      show (stillAlive w pids).2.clock + pollInterval = _
      rw [clock_stillAlive]
    have hrest := ih (hnodup.sublist (stillAlive_sublist w pids)) (by omega)
    rw [List.countP_append, hlook hnodup, List.countP_cons]
    simp only [decide_true, if_true, Nat.mul_add, Nat.zero_add, Nat.mul_one]
    omega

end

end ChildList
end ScriptService
