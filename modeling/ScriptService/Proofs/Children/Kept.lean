import ScriptService.Proofs.Children.Law
import ScriptService.Proofs.History

/-!
# The list of children and its history

The list of watched children and the processes of the system are in step with a history: the list
holds exactly the children that the history says are watched, and the process of each of them is
where the history says it is. What a host does to children keeps them in step, one lemma for each
operation. A sweep over the list does so only if no status is pending when it starts: a child whose
status is pending is gone, and a second sweep would find its end unknown.

Main statement: `ChildList.invariant_orderly`, from `ChildList.Kept.start`, `ChildList.Kept.change`,
`ChildList.Kept.reap` and `ChildList.Kept.call`.
-/

namespace ScriptService

/-! ## What is noted of processes -/

namespace ChildState

/-- What is noted when a process comes to a state. -/
def notes (pid : Int) : ChildState → List ChildList.Note
  | .running => []
  | .ending _ => [.ended pid (.signaled Kernel.sigTerm)]
  | .exited code => [.ended pid (.exited code)]
  | .signaled signal => [.ended pid (.signaled signal)]
  | .lost => [.lost pid]
  | .interrupted => []
  | .gone => [.lost pid]

end ChildState

namespace Kernel

/-- What is noted when a child is forked, and watched with a function. -/
def forkNotes (k : Kernel) (callback : Callback) (attached : Option Value) : List ChildList.Note :=
  k.nextPlan.start.notes k.nextPid ++ [.started k.nextPid callback attached]

/-- What is noted when a running child changes its state. -/
def changeNotes (k : Kernel) (index : Nat) (state : ChildState) : List ChildList.Note :=
  match k.processes.find? fun p => p.index == index with
  | some p => if p.state = .running then state.notes p.pid else []
  | none => []

end Kernel

namespace ChildList

/-- What is noted of the ends that a sweep collects. -/
def sweepNotes (ends : List (Int × Int)) : List Note :=
  ends.reverse.map fun p => .collected p.1 p.2

theorem sweepNotes_append (ends more : List (Int × Int)) :
    sweepNotes (ends ++ more) = sweepNotes more ++ sweepNotes ends := by
  simp [sweepNotes]

theorem sweepNotes_cons (p : Int × Int) (ends : List (Int × Int)) :
    sweepNotes (p :: ends) = sweepNotes ends ++ [.collected p.1 p.2] := by
  simp [sweepNotes]

theorem pending_sweepNotes (ends : List (Int × Int)) (h : List Note) :
    pending (sweepNotes ends ++ h) = pending h ++ ends := by
  induction ends generalizing h with
  | nil => exact (List.append_nil _).symm
  | cons p ends ih =>
    rw [sweepNotes_cons, List.append_assoc]
    exact (ih (.collected p.1 p.2 :: h)).trans (List.append_assoc _ _ _)

theorem released_notMem_sweepNotes (ends : List (Int × Int)) : .released ∉ sweepNotes ends := by
  simp [sweepNotes]

/-! ## Entries in step -/

section

variable {list : ChildList} {h past : List Note} {pid : Int}

/-- A list holds the children that a history says are watched, each of them once. -/
structure Listed (list : ChildList) (h : List Note) : Prop where
  entries : ∀ pid,
    (list.find? fun c => c.pid == pid).map (fun c => (c.callback, c.attached)) = watched? pid h
  nodup : list.pids.Nodup

theorem Listed.mem_pids_iff (hl : Listed list h) : pid ∈ list.pids ↔ watched? pid h ≠ none := by
  rw [← hl.entries pid, Ne, Option.map_eq_none_iff, List.find?_eq_none]
  constructor
  · intro hmem hnone
    rcases List.mem_map.1 hmem with ⟨c, hc, rfl⟩
    exact hnone c hc (by simp)
  · intro hsome
    by_contra hmem
    refine hsome ?_
    intro c hc hpid
    exact hmem (List.mem_map.2 ⟨c, hc, by simpa using hpid⟩)

/-- A child that waits for its call is in the list. -/
theorem Listed.find?_of_watched (hl : Listed list h) {callback : Callback}
    {attached : Option Value} (hwatched : watched? pid h = some (callback, attached)) :
    (list.find? fun c => c.pid == pid) = some ⟨pid, callback, attached⟩ := by
  rw [← hl.entries pid] at hwatched
  rcases Option.map_eq_some_iff.1 hwatched with ⟨c, hfound, heq⟩
  have hpid : c.pid = pid := by simpa using List.find?_some hfound
  cases heq
  rw [hfound, ← hpid]

theorem Listed.same (hl : Listed list past) (hsame : ∀ q, watched? q h = watched? q past) :
    Listed list h :=
  ⟨fun q => (hl.entries q).trans (hsame q).symm, hl.nodup⟩

theorem find?_track (c : Child) (list : ChildList) (q : Int) :
    ((track list c).find? fun d => d.pid == q) =
      if c.pid = q then some c else list.find? fun d => d.pid == q := by
  rw [track, List.find?_append, find?_filter_key (·.pid) list c.pid q]
  by_cases hq : c.pid = q
  · simp [hq]
  · simp [hq]

/-- A child is watched from its start on. An entry of the same number is replaced. -/
theorem Listed.start (hl : Listed list h) (pid : Int) (callback : Callback)
    (attached : Option Value) :
    Listed (track list ⟨pid, callback, attached⟩) (.started pid callback attached :: h) := by
  refine ⟨?_, ?_⟩
  · intro q
    rw [find?_track, watched?]
    by_cases hq : pid = q
    · rw [if_pos hq, if_pos hq]
      rfl
    · rw [if_neg hq, if_neg hq]
      exact hl.entries q
  · have hpids : (track list ⟨pid, callback, attached⟩).pids =
        ChildList.pids (list.filter fun c => c.pid != pid) ++ [pid] := by
      simp [track, pids]
    rw [hpids, List.nodup_append]
    refine ⟨hl.nodup.sublist (List.filter_sublist.map _), List.nodup_singleton pid, ?_⟩
    rintro a ha b hb rfl
    rcases List.mem_map.1 ha with ⟨c, hc, hcpid⟩
    have hne : c.pid ≠ pid := by simpa using (List.mem_filter.1 hc).2
    exact hne (hcpid.trans (List.mem_singleton.1 hb))

/-- A child that is taken out of the list is watched no more. -/
theorem Listed.call (hl : Listed list h) {callback : Callback} {attached : Option Value}
    (hwatched : watched? pid h = some (callback, attached)) (status : Int) (args : List Value) :
    take list pid = (some ⟨pid, callback, attached⟩, list.filter fun d => d.pid != pid) ∧
      Listed (list.filter fun d => d.pid != pid) (.called pid status callback args :: h) := by
  refine ⟨?_, ?_, ?_⟩
  · rw [take, hl.find?_of_watched hwatched, eraseP_key_eq hl.nodup]
  · intro q
    rw [find?_filter_key (·.pid) list pid q, watched?]
    by_cases hq : pid = q
    · rw [if_pos hq, if_pos hq]
      rfl
    · rw [if_neg hq, if_neg hq]
      exact hl.entries q
  · exact hl.nodup.sublist (List.filter_sublist.map _)

end

/-! ## Processes in step -/

/-- Where the process of a watched child is, as far as a history says it. -/
inductive Standing (pid : Int) (h : List Note) : ChildState → Prop where
  | alive {state : ChildState} (hstate : state = .running ∨ state = .interrupted)
      (hend : fate? pid h = none) : Standing pid h state
  | ended {state : ChildState} {how : ChildEnd} (hstate : state.notes pid = [.ended pid how])
      (hend : fate? pid h = some how) (hnew : pid ∉ pendingPids h) : Standing pid h state
  | collected (hpending : pid ∈ pendingPids h) : Standing pid h .gone

/-- The watched children and the processes of the system are in step with a history. -/
structure Kept (list : ChildList) (processes : List Process) (h : List Note) : Prop where
  /-- The list holds the children that are watched. -/
  entries : ∀ pid,
    (list.find? fun c => c.pid == pid).map (fun c => (c.callback, c.attached)) = watched? pid h
  nodup : list.pids.Nodup
  /-- Every watched child has a process. -/
  exist : ∀ pid, watched? pid h ≠ none → ∃ p ∈ processes, p.pid = pid
  /-- The process of a watched child is where the history says it is. -/
  standing : ∀ p ∈ processes, watched? p.pid h ≠ none → Standing p.pid h p.state

variable {list : ChildList} {processes : List Process} {h : List Note} {pid : Int}

/-- What a history says of a child stays true with a note that says nothing of it. -/
theorem Standing.extend {n : Note} {state : ChildState} (hs : Standing pid h state)
    (hend : fate? pid (n :: h) = fate? pid h)
    (hpending : pid ∈ pendingPids (n :: h) ↔ pid ∈ pendingPids h) :
    Standing pid (n :: h) state := by
  cases hs with
  | alive hstate hnone => exact .alive hstate (hend.trans hnone)
  | ended hstate hsome hnew =>
    exact .ended hstate (hend.trans hsome) fun hmem => hnew (hpending.1 hmem)
  | collected hmem => exact .collected (hpending.2 hmem)

theorem kept_init (processes : List Process) : Kept [] processes [] where
  entries := fun _ => rfl
  nodup := List.nodup_nil
  exist := fun _ hwatched => absurd rfl hwatched
  standing := fun _ _ hwatched => absurd rfl hwatched

/-- When no child is watched any more, processes may do what they will. -/
theorem kept_released (processes : List Process) (h : List Note) :
    Kept [] processes (.released :: h) where
  entries := fun _ => rfl
  nodup := List.nodup_nil
  exist := fun _ hwatched => absurd rfl hwatched
  standing := fun _ _ hwatched => absurd rfl hwatched

theorem Kept.listed (hk : Kept list processes h) : Listed list h := ⟨hk.entries, hk.nodup⟩

theorem Kept.mem_pids_iff (hk : Kept list processes h) :
    pid ∈ list.pids ↔ watched? pid h ≠ none :=
  hk.listed.mem_pids_iff

/-- The process of a number comes to a state. Nothing changes for the other watched children, and
what the history says now of this one is true. -/
theorem Kept.become {past : List Note} (hk : Kept list processes past) (state : ChildState)
    (hwatched : ∀ q, watched? q h = watched? q past)
    (hothers : ∀ q s, q ≠ pid → Standing q past s → Standing q h s)
    (hown : watched? pid past ≠ none → Standing pid h state) :
    Kept list (processes.map fun p => if p.pid = pid then { p with state } else p) h where
  entries := fun q => (hk.entries q).trans (hwatched q).symm
  nodup := hk.nodup
  exist := by
    intro q hq
    rcases hk.exist q (hwatched q ▸ hq) with ⟨p, hp, rfl⟩
    refine ⟨_, List.mem_map.2 ⟨p, hp, rfl⟩, ?_⟩
    split
    · rfl
    · rfl
  standing := by
    intro q hq hqwatched
    rw [hwatched] at hqwatched
    rcases List.mem_map.1 hq with ⟨p, hp, rfl⟩
    by_cases hpid : p.pid = pid
    · subst hpid
      rw [if_pos rfl] at hqwatched ⊢
      exact hown hqwatched
    · rw [if_neg hpid] at hqwatched ⊢
      exact hothers p.pid p.state hpid (hk.standing p hp hqwatched)

/-! ## New states -/

theorem watched?_notes (state : ChildState) (q pid : Int) (h : List Note) :
    watched? q (state.notes pid ++ h) = watched? q h := by
  cases state with
  | _ => rfl

theorem pending_notes (state : ChildState) (pid : Int) (h : List Note) :
    pending (state.notes pid ++ h) = pending h := by
  cases state with
  | _ => rfl

theorem fate?_notes_of_ne (state : ChildState) {q pid : Int} (hne : q ≠ pid) (h : List Note) :
    fate? q (state.notes pid ++ h) = fate? q h := by
  have hended : ∀ how, fate? q (.ended pid how :: h) = fate? q h := by
    intro how
    rw [fate?, if_neg (Ne.symm hne)]
  cases state with
  | ending time => exact hended _
  | exited code => exact hended _
  | signaled signal => exact hended _
  | _ => rfl

theorem Standing.notes_of_ne {s : ChildState} {q : Int} (hs : Standing q h s) (state : ChildState)
    (hne : q ≠ pid) : Standing q (state.notes pid ++ h) s := by
  have hend := fate?_notes_of_ne state hne h
  have hpending : pendingPids (state.notes pid ++ h) = pendingPids h := by
    rw [pendingPids, pending_notes, pendingPids]
  cases hs with
  | alive hstate hnone => exact .alive hstate (hend.trans hnone)
  | ended hstate hsome hnew => exact .ended hstate (hend.trans hsome) (hpending ▸ hnew)
  | collected hmem => exact .collected (hpending ▸ hmem)

/-- A watched child that was alive stands where its new state says. Nobody else has waited for it.
-/
theorem standing_notes {state : ChildState} (hu : Undisturbed (state.notes pid ++ h))
    (hwatched : watched? pid h ≠ none) (hend : fate? pid h = none) (hnew : pid ∉ pendingPids h) :
    Standing pid (state.notes pid ++ h) state := by
  have hended : ∀ how, fate? pid (.ended pid how :: h) = some how := fun how => by
    rw [fate?, if_pos rfl]
  cases state with
  | running => exact .alive (Or.inl rfl) hend
  | interrupted => exact .alive (Or.inr rfl) hend
  | ending time => exact .ended rfl (hended _) hnew
  | exited code => exact .ended rfl (hended _) hnew
  | signaled signal => exact .ended rfl (hended _) hnew
  | lost => exact absurd hu.1 hwatched
  | gone => exact absurd hu.1 hwatched

theorem lawful_notes {state : ChildState} (hl : Lawful h) (hu : Undisturbed (state.notes pid ++ h))
    (hrunning : watched? pid h ≠ none → fate? pid h = none) : Lawful (state.notes pid ++ h) := by
  cases state with
  | running => exact hl
  | interrupted => exact hl
  | ending time => exact hl.finish pid _ hu.1 hrunning
  | exited code => exact hl.finish pid _ hu.1 hrunning
  | signaled signal => exact hl.finish pid _ hu.1 hrunning
  | lost => exact hl.lose pid hu.1
  | gone => exact hl.lose pid hu.1

/-- A child of which no end is known does not wait for its call. -/
theorem Lawful.not_pending (hl : Lawful h) (hend : fate? pid h = none) : pid ∉ pendingPids h := by
  intro hmem
  rcases List.mem_map.1 hmem with ⟨p, hp, rfl⟩
  rcases hl.status_of_pending hp with ⟨how, hsome, -⟩
  rw [hend] at hsome
  cases hsome

theorem released_notMem_notes (state : ChildState) (pid : Int) : .released ∉ state.notes pid := by
  cases state with
  | _ => simp [ChildState.notes]

theorem pending_changeNotes (k : Kernel) (index : Nat) (state : ChildState) (h : List Note) :
    pending (k.changeNotes index state ++ h) = pending h := by
  unfold Kernel.changeNotes
  split
  · split
    · exact pending_notes state _ h
    · rfl
  · rfl

theorem released_notMem_changeNotes (k : Kernel) (index : Nat) (state : ChildState) :
    .released ∉ k.changeNotes index state := by
  unfold Kernel.changeNotes
  split
  · split
    · exact released_notMem_notes state _
    · exact List.not_mem_nil
  · exact List.not_mem_nil

/-- A running process changes its state. -/
theorem Kept.change {k : Kernel} (hk : Kept list k.processes h) (hl : Lawful h) (index : Nat)
    (state : ChildState) (hu : Undisturbed (k.changeNotes index state ++ h)) :
    Kept list (k.change index state).2.processes (k.changeNotes index state ++ h) ∧
      Lawful (k.changeNotes index state ++ h) := by
  unfold Kernel.changeNotes at hu ⊢
  unfold Kernel.change
  cases hfound : k.processes.find? fun p => p.index == index with
  | none => exact ⟨hk, hl⟩
  | some p =>
    simp only [hfound] at hu ⊢
    by_cases hrunning : p.state = .running
    · rw [if_pos hrunning] at hu ⊢
      rw [if_pos hrunning]
      -- No end is known of a watched child whose process runs.
      have hend : watched? p.pid h ≠ none → fate? p.pid h = none := by
        intro hwatched
        have hstands := hk.standing p (List.mem_of_find?_eq_some hfound) hwatched
        rw [hrunning] at hstands
        cases hstands with
        | alive _ hend => exact hend
        | ended hstate _ _ => cases hstate
      refine ⟨hk.become state (fun q => watched?_notes state q p.pid h) ?_ ?_,
        lawful_notes hl hu hend⟩
      · intro q s hne hs
        exact hs.notes_of_ne state hne
      · intro hwatched
        exact standing_notes hu hwatched (hend hwatched) (hl.not_pending (hend hwatched))
    · rw [if_neg hrunning, if_neg hrunning]
      exact ⟨hk, hl⟩

/-! ## Starting -/

/-- A child is forked, and watched from now on. -/
theorem Kept.start {k : Kernel} (hk : Kept list k.processes h) (hl : Lawful h)
    (hforks : k.nextPlan.forks = true) (callback : Callback) (attached : Option Value)
    (hu : Undisturbed (k.forkNotes callback attached ++ h)) :
    Kept (track list ⟨k.nextPid, callback, attached⟩) k.fork.2.processes
        (k.forkNotes callback attached ++ h) ∧
      Lawful (k.forkNotes callback attached ++ h) := by
  unfold Kernel.forkNotes at hu ⊢
  rw [List.append_assoc, List.singleton_append] at hu ⊢
  generalize hpid : (k.nextPid : Int) = pid at hu ⊢
  have hprocesses : k.fork.2.processes =
      (k.processes.filter fun p => p.pid != pid) ++ [k.nextProcess] := by
    rw [Kernel.fork, if_pos hforks, hpid]
  have hown : k.nextProcess.pid = pid := hpid
  -- The number is new, so nothing is known of the child yet.
  have hnew : watched? pid h = none := hu.of_append.1
  have hstarted : Lawful (.started pid callback attached :: h) := hl.start pid _ _ hnew
  have hwatched : watched? pid (.started pid callback attached :: h) ≠ none := by
    rw [watched?, if_pos rfl]
    simp
  have hend : fate? pid (.started pid callback attached :: h) = none := by
    rw [fate?, if_pos rfl]
  have hothers : ∀ q, q ≠ pid → watched? q (.started pid callback attached :: h) = watched? q h := by
    intro q hne
    rw [watched?, if_neg (Ne.symm hne)]
  have hlisted := (hk.listed.start pid callback attached).same
    fun q => watched?_notes k.nextPlan.start q pid _
  refine ⟨⟨hlisted.entries, hlisted.nodup, ?_, ?_⟩, lawful_notes hstarted hu fun _ => hend⟩
  · intro q hq
    rw [hprocesses]
    by_cases hqpid : q = pid
    · subst hqpid
      exact ⟨k.nextProcess, by simp, hown⟩
    · rw [watched?_notes, hothers q hqpid] at hq
      rcases hk.exist q hq with ⟨p, hp, rfl⟩
      exact ⟨p, List.mem_append_left _ (List.mem_filter.2 ⟨hp, by simpa using hqpid⟩), rfl⟩
  · intro p hp hpwatched
    rw [hprocesses] at hp
    rw [watched?_notes] at hpwatched
    rcases List.mem_append.1 hp with hp | hp
    · rcases List.mem_filter.1 hp with ⟨hold, hne⟩
      have hne : p.pid ≠ pid := by simpa using hne
      rw [hothers p.pid hne] at hpwatched
      refine Standing.notes_of_ne ?_ _ hne
      refine (hk.standing p hold hpwatched).extend ?_ Iff.rfl
      rw [fate?, if_neg (Ne.symm hne)]
    · cases List.mem_singleton.1 hp
      rw [hown]
      exact standing_notes hu hwatched hend (hstarted.not_pending hend)

/-! ## Collecting ends -/

section

variable {k : Kernel} {w : World}

/-- What a watched child answers to a wait, if its status is not pending: it lives, or it ended as
the history says. -/
theorem Kept.poll_cases (hk : Kept list k.processes h) (hwatched : watched? pid h ≠ none)
    (hnew : pid ∉ pendingPids h) (now : Nat) :
    (∃ answer, k.poll now pid = (answer, k) ∧
        (answer = .stillAlive ∨ answer = .failed .interrupted)) ∨
      ∃ how, k.poll now pid = (.ended how, k.setState pid .gone) ∧ fate? pid h = some how := by
  unfold Kernel.poll
  cases hfound : k.find? pid with
  | none =>
    rcases hk.exist pid hwatched with ⟨p, hp, hpid⟩
    have hnone := List.find?_eq_none.1 hfound p hp
    simp [hpid] at hnone
  | some p =>
    have hpid : p.pid = pid := by simpa using List.find?_some hfound
    have hstands : Standing pid h p.state := by
      have hp := hk.standing p (List.mem_of_find?_eq_some hfound)
      rw [hpid] at hp
      exact hp hwatched
    simp only
    generalize p.state = state at hstands
    cases hstands with
    | alive hstate hend =>
      rcases hstate with rfl | rfl
      · exact Or.inl ⟨.stillAlive, rfl, Or.inl rfl⟩
      · exact Or.inl ⟨.failed .interrupted, rfl, Or.inr rfl⟩
    | ended hstate hend =>
      cases state with
      | ending time =>
        cases hstate
        by_cases hdue : time ≤ now
        · exact Or.inr ⟨_, by simp [hdue], hend⟩
        · exact Or.inl ⟨.stillAlive, by simp [hdue], Or.inl rfl⟩
      | exited code =>
        cases hstate
        exact Or.inr ⟨_, rfl, hend⟩
      | signaled signal =>
        cases hstate
        exact Or.inr ⟨_, rfl, hend⟩
      | _ => cases hstate
    | collected hpending => exact absurd hpending hnew

/-- What is collected of a watched child whose status is not pending. -/
theorem Kept.collect_cases (hk : Kept list w.kernel.processes h) (hwatched : watched? pid h ≠ none)
    (hnew : pid ∉ pendingPids h) :
    ((ChildList.collect w pid).1 = none ∧ (ChildList.collect w pid).2.kernel = w.kernel) ∨
      ∃ how, (ChildList.collect w pid).1 = some (pid, status how) ∧
        (ChildList.collect w pid).2.kernel = w.kernel.setState pid .gone ∧
          fate? pid h = some how := by
  unfold ChildList.collect World.poll
  rcases hk.poll_cases hwatched hnew w.clock with ⟨answer, hpoll, hanswer⟩ | ⟨how, hpoll, hend⟩
  · left
    rw [hpoll]
    rcases hanswer with rfl | rfl
    · exact ⟨rfl, rfl⟩
    · exact ⟨rfl, rfl⟩
  · right
    rw [hpoll]
    exact ⟨how, rfl, rfl, hend⟩

/-- A child whose status is collected is gone. -/
theorem Kept.collect (hk : Kept list k.processes h) (pid stat : Int) :
    Kept list (k.setState pid .gone).processes (.collected pid stat :: h) := by
  refine hk.become .gone (fun _ => rfl) ?_ ?_
  · intro q s hne hs
    refine hs.extend rfl ?_
    rw [pendingPids_collected, List.mem_append, List.mem_singleton]
    simp [hne]
  · intro _
    exact .collected (by rw [pendingPids_collected]; simp)

/-- A sweep over watched children of which no status is pending collects each end once. -/
theorem Kept.reapAll {todo : List Int} (hk : Kept list w.kernel.processes h) (hl : Lawful h)
    (hnodup : todo.Nodup) (hwatched : ∀ pid ∈ todo, watched? pid h ≠ none)
    (hnew : ∀ pid ∈ todo, pid ∉ pendingPids h) :
    Kept list (ChildList.reapAll w todo).2.kernel.processes
        (sweepNotes (ChildList.reapAll w todo).1 ++ h) ∧
      Lawful (sweepNotes (ChildList.reapAll w todo).1 ++ h) := by
  induction todo generalizing w h with
  | nil => exact ⟨hk, hl⟩
  | cons pid rest ih =>
    rw [List.nodup_cons] at hnodup
    have hpid := hwatched pid List.mem_cons_self
    have hfresh := hnew pid List.mem_cons_self
    unfold ChildList.reapAll
    simp only
    rw [sweepNotes_append, List.append_assoc]
    -- The poll finds the child alive and changes nothing, or takes its status.
    rcases hk.collect_cases hpid hfresh with ⟨hnone, hsame⟩ | ⟨how, hsome, hgone, hend⟩
    · rw [hnone]
      rw [← hsame] at hk
      exact ih hk hl hnodup.2 (fun q hq => hwatched q (List.mem_cons_of_mem pid hq))
        fun q hq => hnew q (List.mem_cons_of_mem pid hq)
    · rw [hsome]
      have hcollected := hl.collect hpid hend hfresh
      have hkept := hk.collect pid (status how)
      rw [← hgone] at hkept
      have hothers : ∀ q ∈ rest, q ∉ pendingPids (.collected pid (status how) :: h) := by
        intro q hq hmem
        rw [pendingPids_collected] at hmem
        rcases List.mem_append.1 hmem with hmem | hmem
        · exact hnew q (List.mem_cons_of_mem pid hq) hmem
        · exact hnodup.1 (List.mem_singleton.1 hmem ▸ hq)
      exact ih hkept hcollected hnodup.2
        (fun q hq => hwatched q (List.mem_cons_of_mem pid hq)) hothers

/-- A sweep over all watched children, when no status is pending. -/
theorem Kept.reap (hk : Kept list w.kernel.processes h) (hl : Lawful h) (hnone : pending h = []) :
    Kept list (ChildList.reap list w).2.kernel.processes
        (sweepNotes (ChildList.reap list w).1 ++ h) ∧
      Lawful (sweepNotes (ChildList.reap list w).1 ++ h) :=
  hk.reapAll hl hk.nodup (fun pid hpid => hk.mem_pids_iff.1 hpid)
    fun pid _ => by simp [pendingPids, hnone]

end

/-! ## Calls -/

/-- The first status that is pending is passed on, and its child is watched no more. -/
theorem Kept.call (hk : Kept list processes h) (hl : Lawful h) {stat : Int}
    {rest : List (Int × Int)} (hpending : pending h = (pid, stat) :: rest) :
    ∃ c, take list pid = (some c, list.filter fun d => d.pid != pid) ∧
      watched? pid h = some (c.callback, c.attached) ∧
        Kept (list.filter fun d => d.pid != pid) processes
            (.called pid stat c.callback (arguments stat c.attached) :: h) ∧
          Lawful (.called pid stat c.callback (arguments stat c.attached) :: h) := by
  have hmem : (pid, stat) ∈ pending h := by
    rw [hpending]
    exact List.mem_cons_self
  rcases Option.ne_none_iff_exists'.1 (hl.watched_of_pending hmem) with ⟨⟨f, a⟩, hwatched⟩
  have hothers : ∀ q, q ≠ pid →
      watched? q (.called pid stat f (arguments stat a) :: h) = watched? q h := by
    intro q hne
    rw [watched?, if_neg (Ne.symm hne)]
  rcases hk.listed.call hwatched stat (arguments stat a) with ⟨htake, hlisted⟩
  refine ⟨⟨pid, f, a⟩, htake, hwatched, ⟨hlisted.entries, hlisted.nodup, ?_, ?_⟩,
    hl.call hpending hwatched⟩
  · intro q hq
    by_cases hqpid : q = pid
    · subst hqpid
      exact absurd (by rw [watched?, if_pos rfl]) hq
    · rw [hothers q hqpid] at hq
      exact hk.exist q hq
  · intro p hp hpwatched
    have hne : p.pid ≠ pid := by
      intro hpid
      exact hpwatched (by rw [watched?, if_pos hpid.symm])
    rw [hothers p.pid hne] at hpwatched
    -- The call takes the first pending status, and that of no other child.
    refine (hk.standing p hp hpwatched).extend rfl ?_
    have hpids : pendingPids h =
        pid :: pendingPids (.called pid stat f (arguments stat a) :: h) := by
      rw [pendingPids, pendingPids, pending, hpending]
      rfl
    rw [hpids, List.mem_cons]
    simp [hne]

/-! ## What all that happens to children keeps -/

/-- A relation between a list of children, the processes of the system and a history that all that
happens to children keeps, as long as the history is fine. -/
structure Invariant (fine : List Note → Prop)
    (inv : ChildList → List Process → List Note → Prop) : Prop where
  of_append : ∀ (ns : List Note) {h : List Note}, fine (ns ++ h) → fine h
  init : ∀ processes : List Process, inv [] processes []
  start : ∀ {list : ChildList} {k : Kernel} {h : List Note}, inv list k.processes h →
    k.nextPlan.forks = true → ∀ (f : Callback) (attached : Option Value),
      fine (k.forkNotes f attached ++ h) →
        inv (track list ⟨k.nextPid, f, attached⟩) k.fork.2.processes (k.forkNotes f attached ++ h)
  change : ∀ {list : ChildList} {k : Kernel} {h : List Note}, inv list k.processes h →
    ∀ (index : Nat) (state : ChildState), fine (k.changeNotes index state ++ h) →
      inv list (k.change index state).2.processes (k.changeNotes index state ++ h)
  /-- A sweep is made when no status is pending. -/
  reap : ∀ {list : ChildList} {w : World} {h : List Note}, inv list w.kernel.processes h →
    pending h = [] →
      inv list (ChildList.reap list w).2.kernel.processes
        (sweepNotes (ChildList.reap list w).1 ++ h)
  /-- The first status that is pending is passed on, and its child is in the list until then. -/
  call : ∀ {list : ChildList} {processes : List Process} {h : List Note} {pid status : Int}
    {rest : List (Int × Int)}, inv list processes h → pending h = (pid, status) :: rest →
      ∃ c, take list pid = (some c, list.filter fun d => d.pid != pid) ∧
        inv (list.filter fun d => d.pid != pid) processes
          (.called pid status c.callback (arguments status c.attached) :: h)
  release : ∀ {list : ChildList} {processes : List Process} {h : List Note},
    inv list processes h → ∀ others : List Process, inv [] others (.released :: h)

/-- The children are in step with a lawful history. -/
structure Orderly (list : ChildList) (processes : List Process) (h : List Note) : Prop where
  kept : Kept list processes h
  lawful : Lawful h

/-- Children that are undisturbed stay in step with a lawful history. -/
theorem invariant_orderly : Invariant Undisturbed Orderly where
  of_append _ _ hu := hu.of_append
  init processes := ⟨kept_init processes, .init⟩
  start hi hforks f attached hu :=
    let ⟨hkept, hlawful⟩ := hi.kept.start hi.lawful hforks f attached hu
    ⟨hkept, hlawful⟩
  change hi index state hu :=
    let ⟨hkept, hlawful⟩ := hi.kept.change hi.lawful index state hu
    ⟨hkept, hlawful⟩
  reap hi hnone :=
    let ⟨hkept, hlawful⟩ := hi.kept.reap hi.lawful hnone
    ⟨hkept, hlawful⟩
  call hi hpending :=
    let ⟨c, htake, _, hkept, hlawful⟩ := hi.kept.call hi.lawful hpending
    ⟨c, htake, hkept, hlawful⟩
  release hi others := ⟨kept_released others _, hi.lawful.release⟩

end ChildList
end ScriptService
