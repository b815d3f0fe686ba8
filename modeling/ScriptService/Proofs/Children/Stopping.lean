import ScriptService.Host.Resources
import ScriptService.Proofs.Children.Waiting

/-!
# Stopping children

When all children are stopped, each is asked to end first; then those that took the signal are
looked at until none is left or the grace period is over; and those that are left are forced to end
and waited for. Whatever the children do, the end of each is reported once.

Main statement: `ChildList.stopped_terminateAll`.
-/

namespace ScriptService

namespace ChildList

/-- The lists that come of watching children and of taking them. -/
inductive Tracked : ChildList → Prop where
  | empty : Tracked []
  | track {list : ChildList} (c : Child) (h : Tracked list) : Tracked (track list c)
  | take {list : ChildList} (pid : Int) (h : Tracked list) : Tracked (take list pid).2

/-- No number is watched twice. -/
theorem Tracked.nodup {list : ChildList} (h : Tracked list) : list.pids.Nodup := by
  induction h with
  | empty => exact List.nodup_nil
  | @track list c h ih =>
    have hkept : (list.filter fun d => d.pid != c.pid).Sublist list := List.filter_sublist
    rw [pids, ChildList.track, List.map_append, List.nodup_append]
    refine ⟨ih.sublist (hkept.map _), List.nodup_singleton c.pid, ?_⟩
    intro pid hpid q hq
    obtain ⟨d, hd, rfl⟩ := List.mem_map.1 hpid
    rw [List.map_singleton, List.mem_singleton] at hq
    rw [hq]
    exact bne_iff_ne.1 (List.mem_filter.1 hd).2
  | @take list pid h ih => exact ih.sublist (List.eraseP_sublist.map _)

/-! ## The law -/

/-- How children are stopped: by which calls, and what is left. -/
structure Stopped (list : ChildList) (grace : Nat) (w : World) (calls : List (Stamped StopCall))
    (v : World) : Prop where
  makes : Makes w calls v
  /-- First each child is asked to end, once; the signal is taken if there is a process. -/
  asked : ∃ later,
    calls = (list.pids.map fun pid => ⟨w.clock, .ask pid (w.kernel.hasProcess pid)⟩) ++ later ∧
      ∀ c ∈ later, ∀ pid taken, c.event ≠ .ask pid taken
  /-- The pauses do not go on beyond the grace period. -/
  paused : pollInterval * (calls.countP fun c => c.event = .pause) < grace + pollInterval
  /-- Nobody is forced to end before the grace period is over. -/
  patient : ∀ c ∈ calls, ∀ pid, c.event = .force pid → w.clock + grace ≤ c.time
  /-- Those are forced to end that the last look found alive. -/
  forced : calls.filterMap (·.event.forced?) = aliveAtLastLook calls
  /-- No wait for the end of a child comes back without it. -/
  awaited : ∀ c ∈ calls, ∀ pid answer, c.event = .await pid answer → ∃ how, answer = .ended how
  /-- No child is looked at that is not there any more. -/
  found : ∀ c ∈ calls, ∀ pid answer, c.event = .look pid answer → answer ≠ .failed .noChild
  /-- Only children are waited for and forced, and only those that there are. -/
  spared : ∀ c ∈ calls, ∀ pid, c.event.touched? = some pid →
    pid ∈ list.pids ∧ w.kernel.hasProcess pid = true
  /-- The end of each child that there was is reported once, and the child is gone. -/
  reaped : ∀ pid ∈ list.pids, ∀ p, w.kernel.find? pid = some p → p.isThere = true → ¬p.IsStuck →
    (calls.countP fun c => c.event.reports pid) = 1 ∧
      ∃ q, v.kernel.find? pid = some q ∧ q.state = .gone
  /-- Other processes stay as they are. -/
  untouched : ∀ q, q ∉ list.pids → v.kernel.find? q = w.kernel.find? q

section

variable {list : ChildList} {grace : Nat} {w v : World} {calls : List (Stamped StopCall)}
  {left : List Int} {pid : Int} {p : Process}

variable (hlist : list.pids.Nodup)
include hlist

theorem mem_signalAll_iff :
    pid ∈ (signalAll w list.pids).1 ↔ pid ∈ list.pids ∧ w.kernel.hasProcess pid = true := by
  rw [(signalAll_spec hlist).1, List.mem_filter]

/-- A child that takes the signal is found afterwards. -/
theorem found_of_mem_signalAll (h : pid ∈ (signalAll w list.pids).1) :
    ∃ p, (signalAll w list.pids).2.kernel.find? pid = some p ∧ p.state ≠ .gone ∧
      p.state ≠ .lost := by
  obtain ⟨hmem, hthere⟩ := (mem_signalAll_iff hlist).1 h
  obtain ⟨p, hp, hthere⟩ := (Option.any_eq_true _ _).1 hthere
  have hfound := (signalAll_spec hlist).2.2.of_mem hmem hp
  rw [← Process.isThere_asked w.clock] at hthere
  obtain ⟨hgone, hlost, -⟩ := of_decide_eq_true hthere
  exact ⟨_, hfound, hgone, hlost⟩

-- The children that took the signal are awaited, until `left` are left.
variable (hwaits :
  Waits (w.clock + grace) (signalAll w list.pids).2 (signalAll w list.pids).1 calls left v)
include hwaits

/-- However long the children that took the signal are awaited, in the end they are gone. -/
theorem gone_of_waits (hmem : pid ∈ list.pids) (hp : w.kernel.find? pid = some p)
    (hthere : p.isThere = true) (hstuck : ¬p.IsStuck) :
    ∃ q, (killAll v left).kernel.find? pid = some q ∧ q.state = .gone := by
  have hasked := hlist.sublist (signalAll_sublist w list.pids)
  have hleft := hasked.sublist hwaits.sublist
  have hrunning := hwaits.running hasked
  have htook : pid ∈ (signalAll w list.pids).1 :=
    (mem_signalAll_iff hlist).2 ⟨hmem, (Option.any_eq_true _ _).2 ⟨p, hp, hthere⟩⟩
  have hfound := (signalAll_spec hlist).2.2.of_mem hmem hp
  by_cases halive : pid ∈ left
  · exact killAll_gone hleft hrunning pid halive
  · -- It is not left, so a look has taken its end, and nobody is forced but those that are left.
    have hsettled := hwaits.settled hasked htook hfound (Process.isWaitable_asked hthere hstuck)
    obtain ⟨q, hq, hgone⟩ := hsettled.resolve_left halive
    exact ⟨q, (killAll_untouched halive).trans hq, hgone⟩

/-- What a call is by which children are stopped once they were asked: it looks at one that took the
signal or pauses, or forces one that is left or reports its end. -/
theorem later_of_mem {c : Stamped StopCall} (hc : c ∈ calls ++ forceCalls v left) :
    (c ∈ calls ∧ (c.event = .pause ∨
      ∃ pid ∈ (signalAll w list.pids).1, ∃ answer, c.event = .look pid answer)) ∨
    (c ∈ forceCalls v left ∧ ∃ pid ∈ left,
      c.event = .force pid ∨ ∃ how, c.event = .await pid (.ended how)) := by
  have hasked := hlist.sublist (signalAll_sublist w list.pids)
  rcases List.mem_append.1 hc with hc | hc
  · exact .inl ⟨hc, hwaits.events hasked c hc⟩
  · exact .inr ⟨hc, forceCalls_awaited (hasked.sublist hwaits.sublist) (hwaits.running hasked) c hc⟩

/-- What a call is by which children are stopped: it asks a child, or comes later. -/
theorem cases_of_mem {c : Stamped StopCall}
    (hc : c ∈ askCalls w list.pids ++ (calls ++ forceCalls v left)) :
    (∃ pid taken, c.event = .ask pid taken) ∨
      (c ∈ calls ∧ (c.event = .pause ∨
        ∃ pid ∈ (signalAll w list.pids).1, ∃ answer, c.event = .look pid answer)) ∨
      (c ∈ forceCalls v left ∧ ∃ pid ∈ left,
        c.event = .force pid ∨ ∃ how, c.event = .await pid (.ended how)) := by
  rcases List.mem_append.1 hc with hc | hc
  · rw [(signalAll_spec hlist).2.1] at hc
    obtain ⟨pid, -, rfl⟩ := List.mem_map.1 hc
    exact .inl ⟨_, _, rfl⟩
  · exact .inr (later_of_mem hlist hwaits hc)

/-- No child is asked again later. -/
theorem asked_of_waits :
    ∀ c ∈ calls ++ forceCalls v left, ∀ pid taken, c.event ≠ .ask pid taken := by
  intro c hc pid taken hevent
  rcases later_of_mem hlist hwaits hc with ⟨-, h | ⟨q, -, answer, h⟩⟩ | ⟨-, q, -, h | ⟨how, h⟩⟩
  · cases hevent.symm.trans h
  · cases hevent.symm.trans h
  · cases hevent.symm.trans h
  · cases hevent.symm.trans h

theorem paused_of_waits :
    pollInterval * ((askCalls w list.pids ++ (calls ++ forceCalls v left)).countP
      fun c => c.event = .pause) < grace + pollInterval := by
  have hclock := clock_signalAll w list.pids
  have hasked := hlist.sublist (signalAll_sublist w list.pids)
  have hinterval : 0 < pollInterval := by decide
  have hasks : ((askCalls w list.pids).countP fun c => c.event = .pause) = 0 := by
    rw [(signalAll_spec hlist).2.1, List.countP_map, List.countP_eq_zero]
    exact fun pid _ => by simp
  have hforces : ((forceCalls v left).countP fun c => c.event = .pause) = 0 := by
    rw [List.countP_eq_zero]
    intro c hc
    obtain ⟨q, -, h | ⟨how, h⟩⟩ := forceCalls_awaited (hasked.sublist hwaits.sublist)
      (hwaits.running hasked) c hc
    · simp [h]
    · simp [h]
  have hpaused := hwaits.paused hasked (by omega)
  rw [List.countP_append, List.countP_append, hasks, hforces, Nat.zero_add, Nat.add_zero]
  omega

/-- Those that are left when the waiting is over are those that are forced to end. -/
theorem forced_of_waits :
    (askCalls w list.pids ++ (calls ++ forceCalls v left)).filterMap (·.event.forced?) =
      aliveAtLastLook (askCalls w list.pids ++ (calls ++ forceCalls v left)) := by
  have hasked := hlist.sublist (signalAll_sublist w list.pids)
  have hasks : (askCalls w list.pids).filterMap (·.event.forced?) = [] := by
    rw [(signalAll_spec hlist).2.1, List.filterMap_map]
    exact List.filterMap_eq_nil_iff.2 fun pid _ => rfl
  have hwaited : calls.filterMap (·.event.forced?) = [] := by
    rw [List.filterMap_eq_nil_iff]
    intro c hc
    rcases hwaits.events hasked c hc with h | ⟨q, -, answer, h⟩
    · rw [h]
      rfl
    · rw [h]
      rfl
  calc (askCalls w list.pids ++ (calls ++ forceCalls v left)).filterMap (·.event.forced?)
    _ = left := by
      rw [List.filterMap_append, List.filterMap_append, hasks, hwaited, forced_forceCalls]
      rfl
    _ = aliveAtLastLook calls := hwaits.lastLook.symm
    _ = aliveAtLastLook (askCalls w list.pids ++ (calls ++ forceCalls v left)) := by
      rw [aliveAtLastLook, aliveAtLastLook, List.foldl_append, List.foldl_append, foldl_askCalls,
        foldl_forceCalls]

theorem touched_of_waits {c : Stamped StopCall}
    (hc : c ∈ askCalls w list.pids ++ (calls ++ forceCalls v left))
    (htouched : c.event.touched? = some pid) : pid ∈ (signalAll w list.pids).1 := by
  rcases cases_of_mem hlist hwaits hc with ⟨q, taken, h⟩ | ⟨-, h | ⟨q, hq, answer, h⟩⟩ |
    ⟨-, q, hq, h | ⟨how, h⟩⟩
  · rw [h] at htouched
    cases htouched
  · rw [h] at htouched
    cases htouched
  · rw [h] at htouched
    cases htouched
    exact hq
  · rw [h] at htouched
    cases htouched
    exact hwaits.sublist.mem hq
  · rw [h] at htouched
    cases htouched
    exact hwaits.sublist.mem hq

theorem stopped_of_waits :
    Stopped list grace w (askCalls w list.pids ++ (calls ++ forceCalls v left))
      (killAll v left) := by
  have hasked := hlist.sublist (signalAll_sublist w list.pids)
  have hmakes := (makes_askCalls w list.pids).append
    (hwaits.makes.append (makes_forceCalls v left))
  have hcases : ∀ c ∈ askCalls w list.pids ++ (calls ++ forceCalls v left), _ :=
    fun c hc => cases_of_mem hlist hwaits hc
  refine ⟨hmakes, ?asked, paused_of_waits hlist hwaits, ?patient, forced_of_waits hlist hwaits,
    ?awaited, ?found, ?spared, ?reaped, ?untouched⟩
  case asked =>
    exact ⟨calls ++ forceCalls v left, by rw [(signalAll_spec hlist).2.1],
      asked_of_waits hlist hwaits⟩
  case patient =>
    intro c hc pid hevent
    rcases hcases c hc with ⟨q, taken, h⟩ | ⟨-, h | ⟨q, -, answer, h⟩⟩ | ⟨hc, q, hq, -⟩
    · cases hevent.symm.trans h
    · cases hevent.symm.trans h
    · cases hevent.symm.trans h
    · exact (hwaits.patient.resolve_left (List.ne_nil_of_mem hq)).trans (le_time_forceCalls c hc)
  case awaited =>
    intro c hc pid answer hevent
    rcases hcases c hc with ⟨q, taken, h⟩ | ⟨-, h | ⟨q, -, answer', h⟩⟩ | ⟨-, q, -, h | ⟨how, h⟩⟩
    · cases hevent.symm.trans h
    · cases hevent.symm.trans h
    · cases hevent.symm.trans h
    · cases hevent.symm.trans h
    · cases hevent.symm.trans h
      exact ⟨how, rfl⟩
  case found =>
    intro c hc pid answer hevent
    rcases hcases c hc with ⟨q, taken, h⟩ | ⟨hc, -⟩ | ⟨-, q, -, h | ⟨how, h⟩⟩
    · cases hevent.symm.trans h
    · exact hwaits.found hasked (fun pid => found_of_mem_signalAll hlist) c hc pid answer hevent
    · cases hevent.symm.trans h
    · cases hevent.symm.trans h
  case spared =>
    intro c hc pid htouched
    exact (mem_signalAll_iff hlist).1 (touched_of_waits hlist hwaits hc htouched)
  case reaped =>
    intro pid hmem p hp hthere hstuck
    obtain ⟨q, hq, hgone⟩ := gone_of_waits hlist hwaits hmem hp hthere hstuck
    refine ⟨?_, q, hq, hgone⟩
    -- The end was not reported at first, and is reported at last.
    obtain ⟨q', hq', hcount⟩ := hmakes.reports hp
    cases hq.symm.trans hq'
    have hstart : p.state ≠ .gone := (of_decide_eq_true hthere).1
    rw [goneCount, goneCount, if_pos hgone, if_neg hstart, Nat.zero_add] at hcount
    exact hcount.symm
  case untouched =>
    intro q hq
    have hrunning : q ∉ (signalAll w list.pids).1 :=
      fun h => hq ((signalAll_sublist w list.pids).mem h)
    rw [killAll_untouched fun h => hrunning (hwaits.sublist.mem h),
      hwaits.untouched hasked hrunning, (signalAll_spec hlist).2.2.of_not_mem hq]

end

/-- However the children of a list react, stopping them asks each of them to end, gives them the
grace period, forces those to end that are left, and leaves none behind of those that there were.
More fuel would make no difference, and the children stay listed. -/
theorem stopped_terminateAll {list : ChildList} (hlist : Tracked list) (grace : Nat) (w : World) :
    Stopped list grace w (stopCalls list grace w) (terminateAll list grace w) ∧
      (∀ (v : World) (pids : List Int) (fuel : Nat), grace / pollInterval < fuel →
        awaitEnds (v.clock + grace) fuel v pids =
          awaitEnds (v.clock + grace) (grace / pollInterval + 1) v pids) ∧
        ∀ r : Resources, (r.inWorld (terminateAll list grace)).children = r.children := by
  have hfuel : ∀ (v : World) (fuel : Nat), grace / pollInterval < fuel →
      v.clock + grace ≤ v.clock + fuel * pollInterval := by
    intro v fuel hlt
    unfold pollInterval at hlt ⊢
    omega
  refine ⟨?_, ?_, fun r => rfl⟩
  · have hwaits : Waits _ _ (signalAll w list.pids).1 _ _ _ :=
      waits_awaitEnds (hfuel (signalAll w list.pids).2 _ (Nat.lt_succ_self _))
    rw [clock_signalAll] at hwaits
    have hstopped := stopped_of_waits hlist.nodup hwaits
    unfold stopCalls terminateAll
    simp only [clock_signalAll, List.append_assoc]
    exact hstopped
  · intro v pids fuel hlt
    exact (waits_awaitEnds (hfuel v _ (Nat.lt_succ_self _))).awaitEnds_eq (hfuel v fuel hlt)

/-- Five children are stopped within 10 ms: one ends at once, one ignores the signal, one ends after
7 ms, one has ended before, and one is not there any more. -/
theorem stopped_terminateAll_family :
    let child := fun (pid : Int) => Child.mk pid ⟨"done", []⟩ none
    let list : ChildList := [child 1001, child 1002, child 1003, child 1004, child 1005]
    let processes : List Process :=
      [⟨0, 1001, .running, .dies⟩, ⟨1, 1002, .running, .ignores⟩, ⟨2, 1003, .running, .diesAfter 7⟩,
        ⟨3, 1004, .exited 3, .dies⟩, ⟨4, 1005, .running, .unreachable⟩]
    let w : World := { kernel := { processes } }
    let calls : List (Stamped StopCall) :=
      [⟨0, .ask 1001 true⟩, ⟨0, .ask 1002 true⟩, ⟨0, .ask 1003 true⟩, ⟨0, .ask 1004 true⟩,
        ⟨0, .ask 1005 false⟩,
        ⟨0, .look 1001 (.ended (.signaled 15))⟩, ⟨0, .look 1002 .stillAlive⟩,
        ⟨0, .look 1003 .stillAlive⟩, ⟨0, .look 1004 (.ended (.exited 3))⟩, ⟨0, .pause⟩,
        ⟨5, .look 1002 .stillAlive⟩, ⟨5, .look 1003 .stillAlive⟩, ⟨5, .pause⟩,
        ⟨10, .look 1002 .stillAlive⟩, ⟨10, .look 1003 (.ended (.signaled 15))⟩,
        ⟨10, .force 1002⟩, ⟨10, .await 1002 (.ended (.signaled 9))⟩]
    Tracked list ∧ stopCalls list 10 w = calls ∧
      Stopped list 10 w calls (terminateAll list 10 w) := by
  intro child list processes w calls
  have hlist : Tracked list :=
    ((((Tracked.empty.track (child 1001)).track (child 1002)).track (child 1003)).track
      (child 1004)).track (child 1005)
  have hcalls : stopCalls list 10 w = calls := by decide +kernel
  exact ⟨hlist, hcalls, hcalls ▸ (stopped_terminateAll hlist 10 w).1⟩

end ChildList
end ScriptService
