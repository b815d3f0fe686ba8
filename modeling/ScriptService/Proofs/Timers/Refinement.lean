import ScriptService.Proofs.Timers.Table

/-!
# Lists of timers stand for tables of deadlines

A list of timers answers every sequence of calls as a plain table of deadlines does. The table is
read off the list: a timer is armed in it while its latest arming is in the queue. What the list
leaves behind in its queue never shows.

Main statement: `TimerList.answers_as_table`.
-/

namespace ScriptService.TimerList

/-- A timer is armed while its latest arming is in the queue. -/
def row (list : TimerList) (t : Timer) : DeadlineRow :=
  ⟨t.id, t.callback, t.attached,
    (list.queue.find? fun a => a.id == t.id && a.order == t.arming).map fun a =>
      ⟨a.deadline, a.order⟩⟩

def table (list : TimerList) : DeadlineTable :=
  ⟨list.timers.map list.row, list.lastId, list.lastArming⟩

def call (list : TimerList) : DeadlineTable.Call → DeadlineTable.Note × TimerList
  | .schedule now callback delay attached =>
    let (id, list) := list.schedule now callback delay attached
    (.scheduled now callback delay attached id, list)
  | .rearm now id delay =>
    let (found, list) := list.rearm now id delay
    (.rearmed now id delay found, list)
  | .remove id =>
    let (t, list) := list.remove id
    (.removed id (t.map fun t => (t.callback, t.attached)), list)
  | .popExpired now =>
    let (found, list) := list.popExpired now
    (.popped now found, list)
  -- The armings that are passed over in search of the deadline leave the queue.
  | .nextDeadline => (.asked list.nextDeadline, list.settle)
  | .clear =>
    let (count, list) := list.clear
    (.cleared count, list)

/-- A list of timers under observation. -/
def calls : Observed TimerList DeadlineTable.Call DeadlineTable.Note where
  act list c := (list.call c).2
  notes list c := [(list.call c).1]

variable {list : TimerList}

theorem row_due_iff (ho : Orderly list) {t : Timer} {d : Due} :
    (list.row t).due = some d ↔
      d.order = t.arming ∧ ⟨d.deadline, d.order, t.id⟩ ∈ list.queue := by
  constructor
  · intro hdue
    rcases Option.map_eq_some_iff.1 hdue with ⟨a, ha, rfl⟩
    have hkeys := List.find?_some ha
    simp only [Bool.and_eq_true, beq_iff_eq] at hkeys
    refine ⟨hkeys.2, ?_⟩
    rw [← hkeys.1]
    exact List.mem_of_find?_eq_some ha
  · rintro ⟨horder, hmem⟩
    have hsome : (list.queue.find? fun a => a.id == t.id && a.order == t.arming).isSome = true :=
      List.find?_isSome.2 ⟨_, hmem, by simp [horder]⟩
    rcases Option.isSome_iff_exists.1 hsome with ⟨a, ha⟩
    have hkeys := List.find?_some ha
    simp only [Bool.and_eq_true, beq_iff_eq] at hkeys
    -- No other arming in the queue has this number.
    have heq := List.inj_on_of_nodup_map ho.orders (List.mem_of_find?_eq_some ha) hmem
      (hkeys.2.trans horder.symm)
    refine Option.map_eq_some_iff.2 ⟨a, ha, ?_⟩
    rw [heq]

/-- A timer has the same row in two lists whose queues agree on its latest arming. -/
theorem row_congr {other : TimerList} (ho : Orderly list) (ho' : Orderly other) {t : Timer}
    (hqueue : ∀ deadline, ⟨deadline, t.arming, t.id⟩ ∈ list.queue ↔
      ⟨deadline, t.arming, t.id⟩ ∈ other.queue) : list.row t = other.row t := by
  have hdue : (list.row t).due = (other.row t).due := by
    refine Option.ext fun d => ?_
    rw [row_due_iff ho, row_due_iff ho']
    refine and_congr_right fun horder => ?_
    rw [horder]
    exact hqueue d.deadline
  exact DeadlineRow.ext rfl rfl rfl hdue

/-- What is armed in the table is what is in force in the queue. -/
theorem mem_armed_table (ho : Orderly list) {a : Arming} :
    a ∈ list.table.armed ↔ list.inForce a = true ∧ a ∈ list.queue := by
  rw [inForce_iff]
  constructor
  · intro ha
    rcases List.mem_filterMap.1 ha with ⟨r, hr, harming⟩
    rcases List.mem_map.1 hr with ⟨t, ht, rfl⟩
    rcases Option.map_eq_some_iff.1 harming with ⟨d, hd, rfl⟩
    have hdue := (row_due_iff ho).1 hd
    exact ⟨⟨t, (get?_eq_some_iff ho.unique).2 ⟨ht, rfl⟩, hdue.1.symm⟩, hdue.2⟩
  · rintro ⟨⟨t, ht, horder⟩, hmem⟩
    have htimer := (get?_eq_some_iff ho.unique).1 ht
    refine List.mem_filterMap.2 ⟨list.row t, List.mem_map.2 ⟨t, htimer.1, rfl⟩, ?_⟩
    refine Option.map_eq_some_iff.2 ⟨⟨a.deadline, a.order⟩, (row_due_iff ho).2 ⟨horder.symm, ?_⟩, ?_⟩
    · rw [htimer.2]
      exact hmem
    · show (⟨a.deadline, a.order, t.id⟩ : Arming) = a
      rw [htimer.2]

/-! ### The calls -/

theorem table_schedule (ho : Orderly list) (now : Int) (callback : Callback) (delay : Int)
    (attached : Option Value) : list.table.schedule now callback delay attached =
      ((list.schedule now callback delay attached).1,
        (list.schedule now callback delay attached).2.table) := by
  have ho' := ho.schedule now callback delay attached
  have hold : list.timers.map list.row =
      list.timers.map (list.schedule now callback delay attached).2.row := by
    refine List.map_congr_left fun t ht => row_congr ho ho' fun deadline => ?_
    exact (ho.mem_arm_of_ne (Ne.symm (ho.new_id t ht))).symm
  have hnew : (list.schedule now callback delay attached).2.row
      ⟨list.lastId + 1, callback, attached, list.lastArming + 1⟩ =
        ⟨list.lastId + 1, callback, attached, some (list.table.nextDue now delay)⟩ := by
    refine DeadlineRow.ext rfl rfl rfl ?_
    exact (row_due_iff ho').2 ⟨rfl, (ho.mem_arm_self rfl).2 rfl⟩
  show (_, DeadlineTable.mk (list.timers.map list.row ++ [_]) _ _) =
    (_, DeadlineTable.mk ((list.timers ++ [_]).map _) _ _)
  rw [List.map_append, List.map_singleton]
  exact congrArg (fun rows => (list.lastId + 1, DeadlineTable.mk rows (list.lastId + 1)
    (list.lastArming + 1))) (congrArg₂ (· ++ ·) hold (congrArg (fun r => [r]) hnew.symm))

theorem any_table (id : Nat) :
    (list.table.rows.any fun r => r.id == id) = list.contains id := by
  rw [Bool.eq_iff_iff, contains, get?, List.find?_isSome]
  simp [table, row]

theorem table_rearm (ho : Orderly list) (now : Int) (id : Nat) (delay : Int) :
    list.table.rearm now id delay =
      ((list.rearm now id delay).1, (list.rearm now id delay).2.table) := by
  by_cases hlinked : list.get? id = none
  · rw [rearm_of_none now delay hlinked]
    have hlive : (list.table.rows.any fun r => r.id == id) = false := by
      rw [any_table, contains, hlinked]
      rfl
    unfold DeadlineTable.rearm
    rw [hlive]
    rfl
  · have hlive : (list.table.rows.any fun r => r.id == id) = true := by
      rw [any_table, contains, Option.isSome_iff_ne_none]
      exact hlinked
    have ho' := ho.rearm now delay hlinked
    unfold DeadlineTable.rearm
    rw [hlive]
    rw [rearm_eq now delay hlinked] at ho' ⊢
    refine congrArg (fun rows => (true, DeadlineTable.mk rows list.lastId (list.lastArming + 1))) ?_
    show (list.timers.map list.row).map _ = (list.timers.map _).map _
    rw [List.map_map, List.map_map]
    refine List.map_congr_left fun t ht => ?_
    show (if t.id = id then _ else _) = _
    by_cases hid : t.id = id
    · rw [Function.comp_apply, if_pos hid, if_pos hid]
      refine DeadlineRow.ext rfl rfl rfl ?_
      refine ((row_due_iff ho').2 ⟨rfl, ?_⟩).symm
      rw [← hid]
      exact (ho.mem_arm_self rfl).2 rfl
    · rw [Function.comp_apply, if_neg hid, if_neg hid]
      exact row_congr ho ho' fun deadline => (ho.mem_arm_of_ne (Ne.symm hid)).symm

theorem table_remove (ho : Orderly list) (id : Nat) :
    list.table.remove id =
      ((list.remove id).1.map fun t => (t.callback, t.attached), (list.remove id).2.table) := by
  have hentry : ((list.timers.map list.row).find? fun r => r.id == id).map
      (fun r => (r.callback, r.attached)) =
        (list.get? id).map fun t => (t.callback, t.attached) := by
    rw [List.find?_map, Option.map_map]
    rfl
  have hrows : (list.timers.map list.row).filter (fun r => r.id != id) =
      (list.remove id).2.timers.map list.row := by
    rw [ho.remove_eq, List.filter_map]
    rfl
  exact congrArg₂ (fun entry rows => (entry, DeadlineTable.mk rows list.lastId list.lastArming))
    hentry hrows

theorem table_settle (ho : Orderly list) : list.settle.table = list.table := by
  have hrows : list.timers.map list.settle.row = list.timers.map list.row := by
    refine List.map_congr_left fun t ht => row_congr ho.settle ho fun deadline => ?_
    -- The latest arming of a linked timer is in force.
    exact mem_settle_iff (inForce_iff.2 ⟨t, (get?_eq_some_iff ho.unique).2 ⟨ht, rfl⟩, rfl⟩)
  exact congrArg (fun rows => DeadlineTable.mk rows list.lastId list.lastArming) hrows

/-- The first arming of a settled queue is the first of all that are armed. -/
theorem precedes_of_armed (ho : Orderly list) {a : Arming} {rest : List Arming}
    (hqueue : list.settle.queue = a :: rest) :
    a ∈ list.table.armed ∧ ∀ b ∈ list.table.armed, b = a ∨ a.precedes b = true := by
  have hforce := inForce_of_settle hqueue
  constructor
  · refine (mem_armed_table ho).2 ⟨hforce, (mem_settle_iff hforce).1 ?_⟩
    rw [hqueue]
    exact List.mem_cons_self
  · intro b hb
    have harmed := (mem_armed_table ho).1 hb
    have hmem := (mem_settle_iff harmed.1).2 harmed.2
    rw [hqueue] at hmem
    rcases List.mem_cons.1 hmem with heq | hrest
    · exact Or.inl heq
    · exact Or.inr ((ho.settle.front hqueue).1 b hrest).1

/-- Nothing is armed if nothing is left in a settled queue. -/
theorem armed_of_nil (ho : Orderly list) (hqueue : list.settle.queue = []) :
    list.table.armed = [] := by
  refine List.eq_nil_iff_forall_not_mem.2 fun b hb => ?_
  have harmed := (mem_armed_table ho).1 hb
  have hmem := (mem_settle_iff harmed.1).2 harmed.2
  rw [hqueue] at hmem
  cases hmem

theorem table_nextDeadline (ho : Orderly list) : list.table.nextDeadline = list.nextDeadline := by
  unfold DeadlineTable.nextDeadline nextDeadline
  cases hqueue : list.settle.queue with
  | nil =>
    rw [armed_of_nil ho hqueue]
    rfl
  | cons a rest =>
    have hfirst := precedes_of_armed ho hqueue
    rw [DeadlineTable.first?_of_precedes hfirst.1 hfirst.2]
    rfl

/-- A timer that is taken from the queue is disarmed in the table. -/
theorem table_take (ho : Orderly list) {a : Arming} {rest : List Arming}
    (hqueue : list.settle.queue = a :: rest) :
    TimerList.table { list.settle with queue := rest } = list.table.disarm a.id := by
  have hfront := ho.settle.front hqueue
  have hrows : (list.timers.map fun t => row { list.settle with queue := rest } t) =
      DeadlineTable.setDue (list.timers.map list.row) a.id none := by
    rw [DeadlineTable.setDue, List.map_map]
    refine List.map_congr_left fun t ht => ?_
    show _ = if t.id = a.id then _ else _
    by_cases hid : t.id = a.id
    · rw [if_pos hid]
      refine DeadlineRow.ext rfl rfl rfl (Option.eq_none_iff_forall_ne_some.2 fun d hd => ?_)
      -- Its latest arming is the one that was taken.
      have hdue := (row_due_iff hfront.2).1 hd
      rcases inForce_iff.1 (inForce_of_settle hqueue) with ⟨u, hu, horder⟩
      have htu : t = u :=
        Option.some.inj (((get?_eq_some_iff ho.unique).2 ⟨ht, hid⟩).symm.trans hu)
      subst htu
      exact (hfront.1 _ hdue.2).2 (hdue.1.trans horder)
    · rw [if_neg hid]
      have hrest : row { list.settle with queue := rest } t = list.settle.row t := by
        refine row_congr hfront.2 ho.settle fun deadline => ?_
        rw [hqueue, List.mem_cons]
        constructor
        · exact Or.inr
        · rintro (heq | hmem)
          · exact absurd (congrArg Arming.id heq) hid
          · exact hmem
      have hforce : ∀ deadline, list.inForce ⟨deadline, t.arming, t.id⟩ = true := fun deadline =>
        inForce_iff.2 ⟨t, (get?_eq_some_iff ho.unique).2 ⟨ht, rfl⟩, rfl⟩
      exact hrest.trans (row_congr ho.settle ho fun deadline => mem_settle_iff (hforce deadline))
  exact congrArg (fun rows => DeadlineTable.mk rows list.lastId list.lastArming) hrows

theorem table_popExpired (ho : Orderly list) (now : Int) :
    list.table.popExpired now =
      ((list.popExpired now).1, (list.popExpired now).2.table) := by
  unfold DeadlineTable.popExpired
  rcases list.popExpired_cases now with ⟨a, rest, hqueue, hdue, hpop⟩ | ⟨hpop, hlate⟩
  · have hfirst := precedes_of_armed ho hqueue
    have hpast : DeadlineTable.first? (list.table.armed.filter fun b => b.deadline ≤ now) =
        some a := by
      refine DeadlineTable.first?_of_precedes (List.mem_filter.2 ⟨hfirst.1, by simpa using hdue⟩) ?_
      exact fun b hb => hfirst.2 b (List.mem_filter.1 hb).1
    rw [hpast, hpop, table_take ho hqueue]
  · have hnone : (list.table.armed.filter fun b => b.deadline ≤ now) = [] := by
      rw [List.filter_eq_nil_iff]
      intro b hb
      simp only [decide_eq_true_eq, Int.not_le]
      cases hqueue : list.settle.queue with
      | nil =>
        rw [armed_of_nil ho hqueue] at hb
        cases hb
      | cons a rest =>
        have hahead : now < a.deadline := hlate a (by rw [hqueue]; rfl)
        rcases (precedes_of_armed ho hqueue).2 b hb with rfl | hbehind
        · exact hahead
        · rw [precedes_iff] at hbehind
          omega
    rw [hnone, hpop]
    show (none, list.table) = (none, list.settle.table)
    rw [table_settle ho]

/-- A call to an orderly list is answered as its table answers it, and leaves an orderly list with
the table that it leaves. -/
theorem call_table (ho : Orderly list) (c : DeadlineTable.Call) :
    list.table.call c = ((list.call c).1, (list.call c).2.table) ∧ Orderly (list.call c).2 := by
  cases c with
  | schedule now callback delay attached =>
    refine ⟨?_, ho.schedule now callback delay attached⟩
    simp only [DeadlineTable.call, call, table_schedule ho]
  | rearm now id delay =>
    refine ⟨?_, ?_⟩
    · simp only [DeadlineTable.call, call, table_rearm ho]
    · show Orderly (list.rearm now id delay).2
      by_cases hlinked : list.get? id = none
      · rw [rearm_of_none now delay hlinked]
        exact ho
      · exact ho.rearm now delay hlinked
  | remove id =>
    refine ⟨?_, ho.remove id⟩
    simp only [DeadlineTable.call, call, table_remove ho]
  | popExpired now =>
    refine ⟨?_, ?_⟩
    · simp only [DeadlineTable.call, call, table_popExpired ho]
    · show Orderly (list.popExpired now).2
      rcases list.popExpired_cases now with ⟨a, rest, hqueue, -, hpop⟩ | ⟨hpop, -⟩
      · rw [hpop]
        exact (ho.settle.front hqueue).2
      · rw [hpop]
        exact ho.settle
  | nextDeadline =>
    refine ⟨?_, ho.settle⟩
    show (DeadlineTable.Note.asked list.table.nextDeadline, list.table) =
      (DeadlineTable.Note.asked list.nextDeadline, list.settle.table)
    rw [table_nextDeadline ho, table_settle ho]
  | clear =>
    refine ⟨?_, orderly_clear list⟩
    show (DeadlineTable.Note.cleared (list.timers.map list.row).length, _) =
      (DeadlineTable.Note.cleared list.timers.length, _)
    rw [List.length_map]
    rfl

/-! ## Every sequence of calls -/

/-- A timer is found exactly when the next deadline is not after the reading of the clock. -/
theorem isSome_popExpired (list : TimerList) (now : Int) :
    (list.popExpired now).1.isSome = true ↔ ∃ d, list.nextDeadline = some d ∧ d ≤ now := by
  unfold nextDeadline
  rcases list.popExpired_cases now with ⟨a, rest, hqueue, hdue, hpop⟩ | ⟨hpop, hlate⟩
  · rw [hpop, hqueue]
    simpa using hdue
  · rw [hpop]
    cases hqueue : list.settle.queue with
    | nil => simp
    | cons a rest =>
      have hahead : now < a.deadline := hlate a (by rw [hqueue]; rfl)
      simpa using hahead

/-- After every sequence of calls, whatever the delays and the readings of the clock, a list of
timers has given the answers of a plain table of deadlines, and stands for that table. Ids that are
given out increase; only the least of the armings in force is found, when it is due and once; and a
timer is found exactly when the next deadline has come. -/
theorem answers_as_table (calls : List DeadlineTable.Call) :
    let list := (TimerList.calls.run {} calls).1
    let h := (TimerList.calls.run {} calls).2
    h = (DeadlineTable.calls.run {} calls).2 ∧
      list.table = (DeadlineTable.calls.run {} calls).1 ∧
      (list.table.rows.map (·.id)).Nodup ∧
      (∀ id d, DeadlineTable.inForce? id h = some d ↔
        ∃ r ∈ list.table.rows, r.id = id ∧ r.due = some d) ∧
      Throughout (fun n past => n.Fits past) h ∧
      (DeadlineTable.fired h).Nodup ∧
      ∀ now, (list.popExpired now).1.isSome = true ↔
        ∃ d, list.nextDeadline = some d ∧ d ≤ now := by
  intro list h
  have hstep : ∀ (list : TimerList) (c : DeadlineTable.Call), Orderly list →
      Orderly (TimerList.calls.act list c) ∧
        DeadlineTable.calls.act list.table c = (TimerList.calls.act list c).table ∧
          DeadlineTable.calls.notes list.table c = TimerList.calls.notes list c := by
    intro list c ho
    rcases call_table ho c with ⟨hcall, hnext⟩
    refine ⟨hnext, congrArg Prod.snd hcall, ?_⟩
    exact congrArg (fun p : DeadlineTable.Note × DeadlineTable => [p.1]) hcall
  have hsame : Orderly list ∧ DeadlineTable.calls.run {} calls = (list.table, h) :=
    TimerList.calls.run_simulates orderly_init hstep calls
  have haudited := DeadlineTable.audited_run calls
  rw [hsame.2] at haudited ⊢
  refine ⟨rfl, rfl, ?_, haudited.recorded.armed, haudited.fitting, DeadlineTable.fired_nodup h,
    isSome_popExpired list⟩
  have hids : list.table.rows.map (·.id) = list.timers.map (·.id) := List.map_map
  rw [hids]
  exact hsame.1.unique

end ScriptService.TimerList
