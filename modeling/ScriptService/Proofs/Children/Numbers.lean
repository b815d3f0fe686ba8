import ScriptService.Proofs.Children.Kept

/-!
# Numbers that are given again

Once the status of a child was collected, the system is free to give its number to another child,
although the status still waits to be passed on and the child is still in the list. What holds then
is weaker than the law of undisturbed children: the list holds the child that got the number last,
and a status goes to whoever has the number when it is passed on. It goes to the child that it was
collected from if no child got the number in between.

Main statements: `ChildList.Possible.called` and `ChildList.invariant_numbered`.
-/

namespace ScriptService
namespace ChildList

variable {h : List Note} {pid : Int}

/-! ## Where a status comes from -/

/-- A status was collected from a watched child, which had a function and an attached value, and is
still to be passed on. -/
structure Collected (pid status : Int) (own : Callback × Option Value) (between before : List Note)
    (h : List Note) : Prop where
  split : h = between ++ .collected pid status :: before
  watched : watched? pid before = some own
  /-- Nothing was collected from the number since. -/
  last : ∀ other, .collected pid other ∉ between
  /-- Nothing was passed on to the number since. -/
  waiting : ∀ other callback args, .called pid other callback args ∉ between

/-- A note of something else leaves a status to be passed on. -/
theorem Collected.cons {status : Int} {own : Callback × Option Value} {between before : List Note}
    (hc : Collected pid status own between before h) {n : Note}
    (hlast : ∀ other, n ≠ .collected pid other)
    (hwaiting : ∀ other callback args, n ≠ .called pid other callback args) :
    Collected pid status own (n :: between) before (n :: h) where
  split := congrArg (n :: ·) hc.split
  watched := hc.watched
  last := by
    intro other hmem
    rcases List.mem_cons.1 hmem with heq | hmem
    · exact hlast other heq.symm
    · exact hc.last other hmem
  waiting := by
    intro other callback args hmem
    rcases List.mem_cons.1 hmem with heq | hmem
    · exact hwaiting other callback args heq.symm
    · exact hc.waiting other callback args hmem

/-- A status that waits to be passed on was collected from a child that was watched then. The child
is still watched, unless its number was given again. -/
theorem Possible.source (hpossible : Possible h) {status : Int} (hp : (pid, status) ∈ pending h) :
    ∃ own between before, Collected pid status own between before h ∧
      ((∀ callback attached, .started pid callback attached ∉ between) →
        watched? pid h = some own) := by
  induction hpossible with
  | init => cases hp
  | start _ p callback attached ih =>
    obtain ⟨own, between, before, hc, hown⟩ := ih hp
    refine ⟨own, _, before, hc.cons (by simp) (by simp), ?_⟩
    intro hnew
    have hne : p ≠ pid := by
      rintro rfl
      exact hnew callback attached List.mem_cons_self
    rw [watched?, if_neg hne]
    exact hown fun f v hmem => hnew f v (List.mem_cons_of_mem _ hmem)
  | finish _ p how ih =>
    obtain ⟨own, between, before, hc, hown⟩ := ih hp
    refine ⟨own, _, before, hc.cons (by simp) (by simp), fun hnew => ?_⟩
    exact hown fun f v hmem => hnew f v (List.mem_cons_of_mem _ hmem)
  | lose _ p ih =>
    obtain ⟨own, between, before, hc, hown⟩ := ih hp
    refine ⟨own, _, before, hc.cons (by simp) (by simp), fun hnew => ?_⟩
    exact hown fun f v hmem => hnew f v (List.mem_cons_of_mem _ hmem)
  | @collect past _ p stat hwatched hnew ih =>
    rcases List.mem_append.1 hp with hp | hp
    · -- The number of a status that waits is not asked for another one.
      have hne : p ≠ pid := by
        rintro rfl
        exact hnew (List.mem_map.2 ⟨_, hp, rfl⟩)
      obtain ⟨own, between, before, hc, hown⟩ := ih hp
      refine ⟨own, _, before, hc.cons (by simp [hne]) (by simp), fun hstarted => ?_⟩
      exact hown fun f v hmem => hstarted f v (List.mem_cons_of_mem _ hmem)
    · cases List.mem_singleton.1 hp
      obtain ⟨own, hown⟩ := Option.ne_none_iff_exists'.1 hwatched
      exact ⟨own, [], past, ⟨rfl, hown, fun _ => List.not_mem_nil, fun _ _ _ => List.not_mem_nil⟩,
        fun _ => hown⟩
  | call hpossible hpending hwatched ih =>
    rw [pending, hpending] at hp
    have hne := hpossible.ne_of_mem_rest hpending hp
    obtain ⟨own, between, before, hc, hown⟩ := ih (by rw [hpending]; exact List.mem_cons_of_mem _ hp)
    refine ⟨own, _, before, hc.cons (by simp) (by simp [hne]), fun hnew => ?_⟩
    rw [watched?, if_neg hne]
    exact hown fun f v hmem => hnew f v (List.mem_cons_of_mem _ hmem)
  | release _ ih => cases hp

/-- A call passes on a status that was collected from a watched child and was not passed on yet. The
function called is that of the child, with the value attached to it, unless the number of the child
was given again in between. -/
theorem Possible.called {later past : List Note} {status : Int} {f : Callback} {args : List Value}
    (hpossible : Possible (later ++ .called pid status f args :: past)) :
    ∃ callback attached between before,
      Collected pid status (callback, attached) between before past ∧
        ((∀ g v, .started pid g v ∉ between) → f = callback ∧ args = arguments status attached) := by
  cases hpossible.of_append with
  | @call _ hpast _ _ rest _ own hpending hwatched =>
    have hmem : (pid, status) ∈ pending past := by
      rw [hpending]
      exact List.mem_cons_self
    obtain ⟨⟨callback, attached⟩, between, before, hc, hown⟩ := hpast.source hmem
    refine ⟨callback, attached, between, before, hc, ?_⟩
    intro hnew
    cases hwatched.symm.trans (hown hnew)
    exact ⟨rfl, rfl⟩

/-! ## What the system says of processes -/

theorem Possible.notes (hpossible : Possible h) (state : ChildState) :
    Possible (state.notes pid ++ h) := by
  cases state with
  | running => exact hpossible
  | interrupted => exact hpossible
  | ending time => exact hpossible.finish pid _
  | exited code => exact hpossible.finish pid _
  | signaled signal => exact hpossible.finish pid _
  | lost => exact hpossible.lose pid
  | gone => exact hpossible.lose pid

theorem Possible.changeNotes (hpossible : Possible h) (k : Kernel) (index : Nat)
    (state : ChildState) : Possible (k.changeNotes index state ++ h) := by
  unfold Kernel.changeNotes
  split
  · split
    · exact hpossible.notes state
    · exact hpossible
  · exact hpossible

theorem watched?_changeNotes (k : Kernel) (index : Nat) (state : ChildState) (pid : Int)
    (h : List Note) : watched? pid (k.changeNotes index state ++ h) = watched? pid h := by
  unfold Kernel.changeNotes
  split
  · split
    · exact watched?_notes state pid _ h
    · rfl
  · rfl

/-! ## Sweeps -/

theorem watched?_sweepNotes (ends : List (Int × Int)) (pid : Int) (h : List Note) :
    watched? pid (sweepNotes ends ++ h) = watched? pid h := by
  induction ends generalizing h with
  | nil => rfl
  | cons p ends ih =>
    rw [sweepNotes_cons, List.append_assoc]
    exact ih (.collected p.1 p.2 :: h)

/-- A sweep collects statuses from numbers that are asked, each at most once, in order. -/
theorem reapAll_sublist (w : World) (pids : List Int) :
    ((reapAll w pids).1.map (·.1)).Sublist pids := by
  have hcollect : ∀ (w : World) (pid : Int), ((collect w pid).1.toList.map (·.1)).Sublist [pid] := by
    intro w pid
    unfold collect
    split
    · exact List.Sublist.refl [pid]
    · exact List.nil_sublist [pid]
    · exact List.Sublist.refl [pid]
    · exact List.nil_sublist [pid]
  induction pids generalizing w with
  | nil => exact List.Sublist.refl []
  | cons pid rest ih =>
    have hall := (hcollect w pid).append (ih (collect w pid).2)
    rw [← List.map_append] at hall
    exact hall

/-- Statuses may be collected from watched children of which none waits to be passed on. -/
theorem Possible.sweep {ends : List (Int × Int)} (hpossible : Possible h)
    (hnodup : (ends.map (·.1)).Nodup) (hwatched : ∀ p ∈ ends, watched? p.1 h ≠ none)
    (hnew : ∀ p ∈ ends, p.1 ∉ pendingPids h) : Possible (sweepNotes ends ++ h) := by
  induction ends generalizing h with
  | nil => exact hpossible
  | cons p ends ih =>
    rw [List.map_cons, List.nodup_cons] at hnodup
    rw [sweepNotes_cons, List.append_assoc, List.singleton_append]
    have hcollected := hpossible.collect p.2 (hwatched p List.mem_cons_self)
      (hnew p List.mem_cons_self)
    refine ih hcollected hnodup.2 (fun q hq => hwatched q (List.mem_cons_of_mem p hq)) ?_
    intro q hq hmem
    rw [pendingPids_collected] at hmem
    rcases List.mem_append.1 hmem with hmem | hmem
    · exact hnew q (List.mem_cons_of_mem p hq) hmem
    · exact hnodup.1 (List.mem_map.2 ⟨q, hq, List.mem_singleton.1 hmem⟩)

/-- A sweep over the list, when no status waits. -/
theorem Possible.reap {list : ChildList} (hpossible : Possible h) (hl : Listed list h)
    (hnone : pending h = []) (w : World) : Possible (sweepNotes (reap list w).1 ++ h) := by
  have hsub : ((ChildList.reap list w).1.map (·.1)).Sublist list.pids := reapAll_sublist w list.pids
  refine hpossible.sweep (hl.nodup.sublist hsub) ?_ ?_
  · intro p hp
    exact hl.mem_pids_iff.1 (hsub.mem (List.mem_map.2 ⟨p, hp, rfl⟩))
  · intro p _ hmem
    rw [pendingPids, hnone] at hmem
    cases hmem

/-- The children are in step with a possible history. -/
structure Numbered (list : ChildList) (_ : List Process) (h : List Note) : Prop where
  listed : Listed list h
  possible : Possible h

/-- Whatever happens to children, they stay in step with a possible history. -/
theorem invariant_numbered : Invariant (fun _ => True) Numbered where
  of_append _ _ _ := trivial
  init _ := ⟨⟨fun _ => rfl, List.nodup_nil⟩, .init⟩
  start {list k h} hi _ f attached _ := by
    unfold Kernel.forkNotes
    rw [List.append_assoc]
    refine ⟨?_, (hi.possible.start k.nextPid f attached).notes _⟩
    exact (hi.listed.start _ f attached).same fun q => watched?_notes _ q _ _
  change {list k h} hi index state _ :=
    ⟨hi.listed.same fun q => watched?_changeNotes _ index state q h,
      hi.possible.changeNotes k index state⟩
  reap {list w h} hi hnone :=
    ⟨hi.listed.same fun q => watched?_sweepNotes _ q h, hi.possible.reap hi.listed hnone w⟩
  call {list processes h pid status rest} hi hpending := by
    have hmem : (pid, status) ∈ pending h := by
      rw [hpending]
      exact List.mem_cons_self
    obtain ⟨⟨f, attached⟩, hwatched⟩ :=
      Option.ne_none_iff_exists'.1 (hi.possible.watched_of_pending hmem)
    obtain ⟨htake, hlisted⟩ := hi.listed.call hwatched status (arguments status attached)
    exact ⟨⟨pid, f, attached⟩, htake, hlisted, hi.possible.call hpending hwatched⟩
  release hi _ := ⟨⟨fun _ => rfl, List.nodup_nil⟩, hi.possible.release⟩

end ChildList
end ScriptService
