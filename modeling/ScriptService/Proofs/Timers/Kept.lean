import ScriptService.Proofs.Timers.Law
import ScriptService.Proofs.Timers.Orderly

/-!
# Lists of timers in step with a history

A list of timers that is kept in step with a history of timers hands out exactly the timers that the
history says are due, the earliest first; stale entries of its queue never show.

Main statements: `TimerList.Kept.schedule`, `TimerList.Kept.pop`, `TimerList.Kept.rearm`,
`TimerList.Kept.remove` and `TimerList.Kept.clear`.
-/

namespace ScriptService.TimerList

/-- The list of timers is in step with the history. -/
structure Kept (list : TimerList) (h : List Note) : Prop where
  ids : createdIds h = (List.range list.lastId).map (· + 1)
  counted : list.lastArming = armings h
  entries : ∀ id, (list.get? id).map (fun t => (t.callback, t.attached)) = linked? id h
  unique : (list.timers.map (·.id)).Nodup
  timers : ∀ t ∈ list.timers, t.id ≤ list.lastId ∧ t.arming ≤ list.lastArming
  sorted : list.queue.Pairwise fun a b => a.precedes b = true
  orders : (list.queue.map (·.order)).Nodup
  queued : ∀ a ∈ list.queue, a.order ≤ list.lastArming
  due : ∀ id d, due? id h = some d ↔
    (∃ t, list.get? id = some t ∧ t.arming = d.order) ∧ ⟨d.deadline, d.order, id⟩ ∈ list.queue

theorem kept_init : Kept {} [] where
  ids := rfl
  counted := rfl
  entries := fun id => rfl
  unique := List.nodup_nil
  timers := fun t ht => by cases ht
  sorted := List.Pairwise.nil
  orders := List.nodup_nil
  queued := fun a ha => by cases ha
  due := fun id d => by simp [due?]

/-! ### What keeps the list in step -/

section

variable {list : TimerList} {h : List Note}

theorem Kept.orderly (hk : Kept list h) : Orderly list :=
  ⟨hk.unique, hk.timers, hk.sorted, hk.orders, hk.queued⟩

/-- An orderly list that agrees with the history is in step with it. -/
theorem Orderly.kept (ho : Orderly list)
    (hids : createdIds h = (List.range list.lastId).map (· + 1))
    (hcounted : list.lastArming = armings h)
    (hentries : ∀ id, (list.get? id).map (fun t => (t.callback, t.attached)) = linked? id h)
    (hdue : ∀ id d, due? id h = some d ↔
      (∃ t, list.get? id = some t ∧ t.arming = d.order) ∧
        ⟨d.deadline, d.order, id⟩ ∈ list.queue) : Kept list h :=
  ⟨hids, hcounted, hentries, ho.unique, ho.timers, ho.sorted, ho.orders, ho.queued, hdue⟩

/-- The latest arming of a timer is the one in force. -/
theorem due_armed (hk : Kept list h) (now : Int) (id : Nat) (delay : Int) {d : Due} :
    (list.lastArming + 1 = d.order ∧
        ⟨d.deadline, d.order, id⟩ ∈ (list.arm now id delay).queue) ↔
      d = ⟨now + max delay 0, list.lastArming + 1⟩ := by
  constructor
  · rintro ⟨horder, hmem⟩
    have hdeadline := (hk.orderly.mem_arm_self horder.symm).1 hmem
    cases d
    simp_all
  · rintro rfl
    exact ⟨rfl, (hk.orderly.mem_arm_self rfl).2 rfl⟩

/-- A new timer is linked and armed. -/
theorem Kept.schedule (hk : Kept list h) (time : Nat) (callback : Callback) (delay : Int)
    (attached : Option Value) :
    Kept (list.schedule time callback delay attached).2
      (.created (list.lastId + 1) time delay callback attached :: h) := by
  have hget := hk.orderly.get?_schedule time callback delay attached
  refine (hk.orderly.schedule time callback delay attached).kept ?_ ?_ ?_ ?_
  · show createdIds h ++ [list.lastId + 1] = (List.range (list.lastId + 1)).map (· + 1)
    rw [hk.ids, List.range_succ, List.map_append]
    rfl
  · show list.lastArming + 1 = armings h + 1
    rw [hk.counted]
  · intro id
    rw [hget, linked?]
    by_cases hid : list.lastId + 1 = id
    · simp [hid]
    · simp [hid, hk.entries]
  · intro id d
    rw [hget, due?]
    by_cases hid : list.lastId + 1 = id
    · -- The new timer is due by its first arming.
      subst hid
      rw [if_pos rfl, if_pos rfl, ← hk.counted]
      constructor
      · intro heq
        have hd := (due_armed hk time (list.lastId + 1) delay).2 (Option.some.inj heq).symm
        exact ⟨⟨_, rfl, hd.1⟩, hd.2⟩
      · rintro ⟨⟨t, ht, horder⟩, hmem⟩
        cases ht
        exact congrArg some ((due_armed hk _ _ _).1 ⟨horder, hmem⟩).symm
    · rw [if_neg hid, if_neg hid, hk.due]
      show _ ↔ _ ∧ _ ∈ (list.arm time (list.lastId + 1) delay).queue
      rw [hk.orderly.mem_arm_of_ne hid]

/-- The timer that is armed again is due by its new arming, and the others by the ones they had. -/
theorem Kept.due_rearm (hk : Kept list h) {id : Nat} {t : Timer} (ht : list.get? id = some t)
    (time : Nat) {delay : Int} {result : Except Fault Value}
    (hresult : delay? result = some delay) (other : Nat) (d : Due) :
    due? other (.returned id time result :: h) = some d ↔
      (∃ u, (list.rearm time id delay).2.get? other = some u ∧ u.arming = d.order) ∧
        ⟨d.deadline, d.order, other⟩ ∈ (list.arm time id delay).queue := by
  rw [get?_rearm time delay (by simp [ht]), due?, hresult]
  by_cases hother : id = other
  · -- An arming that the timer had before is not in force any more.
    subst hother
    have htid : t.id = id := ((get?_eq_some_iff hk.unique).1 ht).2
    rw [if_pos rfl, ht, ← hk.counted]
    simp only [Option.map_some, htid, if_true, Option.some.injEq, exists_eq_left']
    rw [due_armed hk time id delay]
    exact eq_comm
  · rw [if_neg hother, hk.due, hk.orderly.mem_arm_of_ne hother]
    refine and_congr_left fun _ => ?_
    constructor
    · rintro ⟨u, hu, horder⟩
      have huid : u.id = other := ((get?_eq_some_iff hk.unique).1 hu).2
      refine ⟨u, ?_, horder⟩
      rw [hu, Option.map_some, if_neg (by rw [huid]; exact Ne.symm hother)]
    · rintro ⟨u, hu, horder⟩
      rcases Option.map_eq_some_iff.1 hu with ⟨v, hv, rfl⟩
      have hvid : v.id = other := ((get?_eq_some_iff hk.unique).1 hv).2
      rw [if_neg (by rw [hvid]; exact Ne.symm hother)] at horder
      exact ⟨v, hv, horder⟩

/-- A linked timer is armed again. -/
theorem Kept.rearm (hk : Kept list h) {id : Nat} {t : Timer} (ht : list.get? id = some t)
    (time : Nat) {delay : Int} {result : Except Fault Value}
    (hresult : delay? result = some delay) :
    Kept (list.rearm time id delay).2 (.returned id time result :: h) := by
  have hlinked : list.get? id ≠ none := by simp [ht]
  have hrearm := rearm_eq time delay hlinked
  refine (hk.orderly.rearm time delay hlinked).kept ?_ ?_ ?_ ?_
  · rw [hrearm]
    exact hk.ids
  · rw [hrearm, TimerList.armings, hresult, ← hk.counted]
    rfl
  · intro other
    rw [get?_rearm time delay hlinked, linked?, hresult]
    simp only [reduceCtorEq, and_false, if_false]
    rw [← hk.entries, Option.map_map]
    congr 1
    funext t
    simp only [Function.comp_apply]
    split
    · rfl
    · rfl
  · intro other d
    have hmem : (list.rearm time id delay).2.queue = (list.arm time id delay).queue := by
      rw [hrearm]
    rw [hmem]
    exact hk.due_rearm ht time hresult other d

/-- A timer is unlinked. -/
theorem Kept.remove (hk : Kept list h) (id time : Nat) {result : Except Fault Value}
    (hresult : delay? result = none) :
    Kept (list.remove id).2 (.returned id time result :: h) := by
  -- Its armings stay in the queue, but they are not in force without the timer.
  have hget := hk.orderly.get?_remove id
  refine (hk.orderly.remove id).kept hk.ids ?_ ?_ ?_
  · rw [TimerList.armings, hresult]
    exact hk.counted
  · intro other
    rw [hget, linked?, hresult]
    by_cases hother : id = other
    · simp [hother]
    · simp [hother, hk.entries]
  · intro other d
    rw [hget, due?, hresult]
    show _ ↔ _ ∧ _ ∈ list.queue
    by_cases hother : id = other
    · simp [hother]
    · rw [if_neg hother, if_neg hother]
      exact hk.due other d

/-- Every timer is unlinked. -/
theorem Kept.clear (hk : Kept list h) : Kept list.clear.2 (.cleared :: h) := by
  refine (orderly_clear list).kept hk.ids hk.counted (fun id => rfl) ?_
  intro id d
  simp [due?, TimerList.clear]

/-! ### The next timer that is due -/

/-- Armings that are not in force can be left out. -/
theorem Kept.settle (hk : Kept list h) : Kept list.settle h := by
  refine hk.orderly.settle.kept hk.ids hk.counted hk.entries ?_
  intro id d
  rw [hk.due]
  refine and_congr_right fun hforce => ?_
  have harming : list.inForce ⟨d.deadline, d.order, id⟩ = true := inForce_iff.2 hforce
  exact (mem_settle_iff harming).symm

/-- The timer at the front of a settled queue is due before all others. -/
theorem Kept.first (hk : Kept list h) {a : Arming} {rest : List Arming}
    (hqueue : list.settle.queue = a :: rest) :
    due? a.id h = some ⟨a.deadline, a.order⟩ ∧
      ∀ other d, other ≠ a.id → due? other h = some d → Due.precedes ⟨a.deadline, a.order⟩ d := by
  have hsettled := hk.settle
  have hforce : list.inForce a = true := inForce_of_settle hqueue
  have hfirst : due? a.id h = some ⟨a.deadline, a.order⟩ := by
    rw [hsettled.due, hqueue]
    exact ⟨inForce_iff.1 hforce, List.mem_cons_self⟩
  refine ⟨hfirst, ?_⟩
  intro other d hne hdue
  have hmem := ((hsettled.due other d).1 hdue).2
  rw [hqueue] at hmem
  rcases List.mem_cons.1 hmem with heq | hrest
  · exact absurd (congrArg Arming.id heq) hne
  · exact precedes_iff.1 ((hsettled.orderly.front hqueue).1 _ hrest).1

/-- The first timer of a settled queue is no longer armed when it is taken, but stays linked. -/
theorem Kept.take (hk : Kept list h) {a : Arming} {rest : List Arming}
    (hqueue : list.settle.queue = a :: rest) (time : Nat) (callback : Callback)
    (args : List Value) :
    Kept { list.settle with queue := rest } (.fired a.id time callback args :: h) := by
  have hsettled := hk.settle
  have hfront := hsettled.orderly.front hqueue
  refine hfront.2.kept hsettled.ids hsettled.counted hsettled.entries ?_
  intro other d
  rw [due?]
  show _ ↔ (∃ t, list.settle.get? other = some t ∧ t.arming = d.order) ∧ _ ∈ rest
  by_cases hother : a.id = other
  · rw [if_pos hother]
    constructor
    · intro hnone
      cases hnone
    · rintro ⟨⟨t, ht, harming⟩, hmem⟩
      -- The arming in force has just been taken, and no other has its number.
      subst hother
      rcases inForce_iff.1 (inForce_of_settle hqueue) with ⟨u, hu, horder⟩
      have htu : t = u := Option.some.inj (ht.symm.trans hu)
      subst htu
      exact absurd (harming.symm.trans horder) (hfront.1 _ hmem).2
  · rw [if_neg hother, hsettled.due, hqueue, List.mem_cons]
    refine and_congr_right fun _ => ?_
    constructor
    · rintro (heq | hmem)
      · exact absurd (congrArg Arming.id heq).symm hother
      · exact hmem
    · exact Or.inr

/-- The timer that is taken is due, and before all others. -/
theorem Kept.pop (hk : Kept list h) {now : Int} {id : Nat} {next : TimerList}
    (hpop : list.popExpired now = (some id, next)) :
    ∃ d, due? id h = some d ∧ d.deadline ≤ now ∧
      (∀ other d', other ≠ id → due? other h = some d' → d.precedes d') ∧
        (∀ other, next.get? other = list.get? other) ∧
          ∀ time callback args, Kept next (.fired id time callback args :: h) := by
  rcases list.popExpired_cases now with ⟨a, rest, hqueue, hdue, hsome⟩ | ⟨hnone, -⟩
  · rw [hsome] at hpop
    cases hpop
    have hfirst := hk.first hqueue
    exact ⟨⟨a.deadline, a.order⟩, hfirst.1, hdue, hfirst.2, fun _ => rfl, hk.take hqueue⟩
  · rw [hnone] at hpop
    cases hpop

/-- If no timer is taken, none is due. -/
theorem Kept.pop_none (hk : Kept list h) {now : Int} {next : TimerList}
    (hpop : list.popExpired now = (none, next)) :
    ∀ id d, due? id h = some d → now < d.deadline := by
  intro id d hdue
  rcases list.popExpired_cases now with ⟨a, rest, -, -, hsome⟩ | ⟨-, hlate⟩
  · rw [hsome] at hpop
    cases hpop
  · have hmem := ((hk.settle.due id d).1 hdue).2
    cases hqueue : list.settle.queue with
    | nil =>
      rw [hqueue] at hmem
      cases hmem
    | cons a rest =>
      have hfirst := hk.first hqueue
      have hahead : now < a.deadline := hlate a (by rw [hqueue]; rfl)
      by_cases hid : id = a.id
      · subst hid
        have heq := hfirst.1.symm.trans hdue
        cases heq
        exact hahead
      · have hbefore := hfirst.2 id d hid hdue
        unfold Due.precedes at hbefore
        simp only at hbefore
        omega

/-- A timer is taken exactly if it is due, and before all others that are armed. -/
theorem Kept.popExpired_eq_some_iff (hk : Kept list h) {now : Int} {id : Nat} :
    (list.popExpired now).1 = some id ↔ ∃ d, due? id h = some d ∧ d.deadline ≤ now ∧
      ∀ other d', other ≠ id → due? other h = some d' → d.precedes d' := by
  rcases hpop : list.popExpired now with ⟨found, next⟩
  constructor
  · rintro rfl
    rcases hk.pop hpop with ⟨d, hdue, hpast, hfirst, -⟩
    exact ⟨d, hdue, hpast, hfirst⟩
  · rintro ⟨d, hdue, hpast, hfirst⟩
    cases found with
    | none =>
      have hlate := hk.pop_none hpop id d hdue
      omega
    | some first =>
      -- Two timers cannot each be before the other.
      rcases hk.pop hpop with ⟨d', hdue', -, hfirst', -⟩
      by_cases heq : first = id
      · rw [heq]
      · have hbefore := hfirst first d' heq hdue'
        have hbehind := hfirst' id d (Ne.symm heq) hdue
        unfold Due.precedes at hbefore hbehind
        omega

end

end ScriptService.TimerList
