import Mathlib.Data.List.DropRight
import Mathlib.Data.List.Pairwise
import ScriptService.Proofs.History
import ScriptService.Timer

/-!
# Orderly lists of timers

Whatever is asked of a list of timers, it stays orderly: no two linked timers have one id, its queue
is sorted and holds every number of an arming once, and no number exceeds the counter that gives it
out. So the first arming of a settled queue is the one that is due before all others in force.

Main statements: `TimerList.Orderly.schedule`, `TimerList.Orderly.rearm`,
`TimerList.Orderly.settle` and `TimerList.popExpired_cases`.
-/

namespace ScriptService.TimerList

/-- The list of timers is orderly. -/
structure Orderly (list : TimerList) : Prop where
  unique : (list.timers.map (·.id)).Nodup
  timers : ∀ t ∈ list.timers, t.id ≤ list.lastId ∧ t.arming ≤ list.lastArming
  sorted : list.queue.Pairwise fun a b => a.precedes b = true
  orders : (list.queue.map (·.order)).Nodup
  queued : ∀ a ∈ list.queue, a.order ≤ list.lastArming

/-- A list without timers and armings is orderly. -/
theorem orderly_clear (list : TimerList) : Orderly list.clear.2 where
  unique := List.nodup_nil
  timers := fun t ht => by cases ht
  sorted := List.Pairwise.nil
  orders := List.nodup_nil
  queued := fun a ha => by cases ha

theorem orderly_init : Orderly {} := orderly_clear {}

/-! ### The queue -/

theorem perm_enqueue (queue : List Arming) (a : Arming) : (enqueue queue a).Perm (a :: queue) := by
  induction queue with
  | nil => exact List.Perm.refl _
  | cons b rest ih =>
    unfold enqueue
    split
    · exact List.Perm.refl _
    · exact (ih.cons b).trans (List.Perm.swap a b rest)

theorem mem_enqueue {queue : List Arming} {a b : Arming} :
    b ∈ enqueue queue a ↔ b = a ∨ b ∈ queue := by
  rw [(perm_enqueue queue a).mem_iff, List.mem_cons]

theorem precedes_iff {a b : Arming} : a.precedes b = true ↔
    a.deadline < b.deadline ∨ a.deadline = b.deadline ∧ a.order < b.order := by
  simp [Arming.precedes]

theorem precedes_trans {a b c : Arming} (hab : a.precedes b = true) (hbc : b.precedes c = true) :
    a.precedes c = true := by
  rw [precedes_iff] at *
  omega

/-- An arming that is later than all others goes behind all that do not have a later deadline. -/
theorem sorted_enqueue {queue : List Arming} {a : Arming}
    (hsorted : queue.Pairwise fun a b => a.precedes b = true)
    (hlater : ∀ b ∈ queue, b.order < a.order) :
    (enqueue queue a).Pairwise fun a b => a.precedes b = true := by
  induction queue with
  | nil => exact List.pairwise_singleton _ a
  | cons b rest ih =>
    have hrest := List.pairwise_cons.1 hsorted
    unfold enqueue
    split
    · rename_i hfirst
      refine List.pairwise_cons.2 ⟨?_, hsorted⟩
      intro c hc
      rcases List.mem_cons.1 hc with rfl | hc
      · exact hfirst
      · exact precedes_trans hfirst (hrest.1 c hc)
    · rename_i hbehind
      have hba : b.precedes a = true := by
        have horder := hlater b List.mem_cons_self
        rw [precedes_iff] at hbehind ⊢
        omega
      refine List.pairwise_cons.2 ⟨?_, ih hrest.2 fun c hc => hlater c (List.mem_cons_of_mem b hc)⟩
      intro c hc
      rcases mem_enqueue.1 hc with rfl | hc
      · exact hba
      · exact hrest.1 c hc

/-! ### Linked timers -/

theorem get?_eq_some_iff {list : TimerList} (hunique : (list.timers.map (·.id)).Nodup) {id : Nat}
    {t : Timer} : list.get? id = some t ↔ t ∈ list.timers ∧ t.id = id := by
  constructor
  · intro hget
    exact ⟨List.mem_of_find?_eq_some hget, by simpa using List.find?_some hget⟩
  · rintro ⟨hmem, rfl⟩
    have hone := filter_key_eq hunique hmem
    unfold get?
    rw [← List.head?_filter, hone]
    rfl

theorem get?_eq_none_iff {list : TimerList} {id : Nat} :
    list.get? id = none ↔ ∀ t ∈ list.timers, t.id ≠ id := by
  simp [get?]

section

variable {list : TimerList}

theorem rearm_eq (now : Int) {id : Nat} (delay : Int) (hlinked : list.get? id ≠ none) :
    list.rearm now id delay =
      (true, { list.arm now id delay with
        timers := list.timers.map fun t =>
          if t.id = id then { t with arming := list.lastArming + 1 } else t }) := by
  have hcontains : list.contains id = true := by
    simpa [contains, Option.isSome_iff_ne_none] using hlinked
  unfold TimerList.rearm
  rw [if_pos hcontains]
  rfl

theorem rearm_of_none (now : Int) {id : Nat} (delay : Int) (hnone : list.get? id = none) :
    list.rearm now id delay = (false, list) := by
  simp [TimerList.rearm, contains, hnone]

/-- A new number of an arming leaves the id of the timer. -/
theorem id_rearmed (id arming : Nat) (t : Timer) :
    (if t.id = id then { t with arming } else t).id = t.id := by
  split
  · rfl
  · rfl

theorem get?_rearm (now : Int) {id : Nat} (delay : Int) (hlinked : list.get? id ≠ none)
    (other : Nat) : (list.rearm now id delay).2.get? other =
      (list.get? other).map fun t =>
        if t.id = id then { t with arming := list.lastArming + 1 } else t := by
  rw [rearm_eq now delay hlinked]
  show (list.timers.map _).find? _ = _
  rw [List.find?_map]
  unfold get?
  congr 2
  funext t
  show (Timer.id _ == other) = (t.id == other)
  rw [id_rearmed]

/-! ### Armings in force -/

theorem inForce_iff {a : Arming} :
    list.inForce a = true ↔ ∃ t, list.get? a.id = some t ∧ t.arming = a.order := by
  unfold inForce
  cases hget : list.get? a.id with
  | none => simp
  | some t => simp

theorem mem_dropWhile_of_not {α : Type} {p : α → Bool} {l : List α} {a : α} (ha : a ∈ l)
    (hp : p a = false) : a ∈ l.dropWhile p := by
  induction l with
  | nil => cases ha
  | cons b l ih =>
    by_cases hb : p b = true
    · rw [List.dropWhile_cons_of_pos hb]
      rcases List.mem_cons.1 ha with rfl | ha
      · rw [hp] at hb
        cases hb
      · exact ih ha
    · rw [List.dropWhile_cons_of_neg hb]
      exact ha

theorem settle_settle (list : TimerList) : list.settle.settle = list.settle := by
  have hqueue : (list.queue.dropWhile fun a => !list.inForce a).dropWhile
      (fun a => !list.inForce a) = list.queue.dropWhile fun a => !list.inForce a :=
    List.dropWhile_idempotent _ _
  exact congrArg (fun queue => { list with queue }) hqueue

/-- Settling a list leaves every arming in force. -/
theorem mem_settle_iff {a : Arming} (hforce : list.inForce a = true) :
    a ∈ list.settle.queue ↔ a ∈ list.queue := by
  constructor
  · exact fun hmem => (List.dropWhile_sublist _).subset hmem
  · intro hmem
    refine mem_dropWhile_of_not hmem ?_
    rw [hforce]
    rfl

/-- The first arming of a settled list is in force. -/
theorem inForce_of_settle {a : Arming} {rest : List Arming}
    (hqueue : list.settle.queue = a :: rest) : list.inForce a = true := by
  have hfirst := List.head?_dropWhile_not (fun a => !list.inForce a) list.queue
  have hhead : (list.queue.dropWhile fun a => !list.inForce a).head? = some a := by
    rw [show list.queue.dropWhile (fun a => !list.inForce a) = a :: rest from hqueue]
    rfl
  rw [hhead] at hfirst
  simpa using hfirst

/-- The first timer that is due is taken, or none is due. -/
theorem popExpired_cases (list : TimerList) (now : Int) :
    (∃ a rest, list.settle.queue = a :: rest ∧ a.deadline ≤ now ∧
      list.popExpired now = (some a.id, { list.settle with queue := rest })) ∨
    list.popExpired now = (none, list.settle) ∧
      ∀ a ∈ list.settle.queue.head?, now < a.deadline := by
  unfold popExpired
  cases hqueue : list.settle.queue with
  | nil =>
    refine Or.inr ⟨by simp only [hqueue], ?_⟩
    intro a ha
    cases ha
  | cons a rest =>
    by_cases hdue : a.deadline ≤ now
    · refine Or.inl ⟨a, rest, rfl, hdue, ?_⟩
      simp only [hqueue, hdue, if_true]
    · refine Or.inr ⟨by simp only [hqueue, hdue, if_false], ?_⟩
      intro b hb
      cases hb
      exact Int.not_le.1 hdue

theorem popExpired_none {next : TimerList} {now : Int}
    (hpop : list.popExpired now = (none, next)) : next = list.settle := by
  rcases list.popExpired_cases now with ⟨a, rest, -, -, hsome⟩ | ⟨hnone, -⟩
  · rw [hsome] at hpop
    cases hpop
  · rw [hnone] at hpop
    cases hpop
    rfl

end

/-! ### What keeps a list orderly -/

namespace Orderly

variable {list : TimerList}

/-- Arming a timer puts it into the queue with a number of its own. -/
theorem arm_queue (ho : Orderly list) (now : Int) (id : Nat) (delay : Int) :
    ((list.arm now id delay).queue.Pairwise fun a b => a.precedes b = true) ∧
      ((list.arm now id delay).queue.map (·.order)).Nodup ∧
      (∀ a ∈ (list.arm now id delay).queue, a.order ≤ list.lastArming + 1) ∧
      ∀ a, a ∈ (list.arm now id delay).queue ↔
        a = ⟨now + max delay 0, list.lastArming + 1, id⟩ ∨ a ∈ list.queue := by
  have hperm := perm_enqueue list.queue ⟨now + max delay 0, list.lastArming + 1, id⟩
  refine ⟨?_, ?_, ?_, ?_⟩
  · exact sorted_enqueue ho.sorted fun a ha => Nat.lt_succ_of_le (ho.queued a ha)
  · show ((enqueue list.queue _).map _).Nodup
    rw [(hperm.map _).nodup_iff, List.map_cons, List.nodup_cons]
    refine ⟨?_, ho.orders⟩
    intro hmem
    rcases List.mem_map.1 hmem with ⟨a, ha, horder⟩
    have hle := ho.queued a ha
    simp only at horder
    omega
  · intro a ha
    rcases mem_enqueue.1 ha with rfl | ha
    · exact Nat.le_refl _
    · exact Nat.le_succ_of_le (ho.queued a ha)
  · exact fun a => mem_enqueue

/-- The latest arming of a timer is the only one with its number. -/
theorem mem_arm_self (ho : Orderly list) {now : Int} {id : Nat} {delay deadline : Int} {order : Nat}
    (horder : order = list.lastArming + 1) :
    ⟨deadline, order, id⟩ ∈ (list.arm now id delay).queue ↔ deadline = now + max delay 0 := by
  rw [(ho.arm_queue now id delay).2.2.2]
  constructor
  · rintro (heq | hold)
    · exact (Arming.mk.inj heq).1
    · have hle := ho.queued _ hold
      simp only at hle
      omega
  · rintro rfl
    exact Or.inl (by rw [horder])

/-- Arming a timer leaves the armings of others. -/
theorem mem_arm_of_ne (ho : Orderly list) {now : Int} {id other : Nat} {delay deadline : Int}
    {order : Nat} (hne : id ≠ other) :
    ⟨deadline, order, other⟩ ∈ (list.arm now id delay).queue ↔
      ⟨deadline, order, other⟩ ∈ list.queue := by
  rw [(ho.arm_queue now id delay).2.2.2]
  constructor
  · rintro (heq | hold)
    · exact absurd (Arming.mk.inj heq).2.2.symm hne
    · exact hold
  · exact Or.inr

/-- No timer has the id yet that is given out next. -/
theorem new_id (ho : Orderly list) : ∀ t ∈ list.timers, t.id ≠ list.lastId + 1 := by
  intro t ht
  have hle := (ho.timers t ht).1
  omega

theorem get?_schedule (ho : Orderly list) (now : Int) (callback : Callback) (delay : Int)
    (attached : Option Value) (id : Nat) :
    (list.schedule now callback delay attached).2.get? id =
      if list.lastId + 1 = id then some ⟨list.lastId + 1, callback, attached, list.lastArming + 1⟩
      else list.get? id := by
  show (list.timers ++ [_]).find? _ = _
  rw [List.find?_append]
  by_cases hid : list.lastId + 1 = id
  · subst hid
    have hnone : list.timers.find? (fun t => t.id == list.lastId + 1) = none :=
      get?_eq_none_iff.2 ho.new_id
    simp [hnone, arm]
  · simp [hid, get?]

/-- A new timer has an id and an arming of its own. -/
theorem schedule (ho : Orderly list) (now : Int) (callback : Callback) (delay : Int)
    (attached : Option Value) : Orderly (list.schedule now callback delay attached).2 := by
  have hqueue := ho.arm_queue now (list.lastId + 1) delay
  refine ⟨?_, ?_, hqueue.1, hqueue.2.1, hqueue.2.2.1⟩
  · show ((list.timers ++ [_]).map _).Nodup
    rw [List.map_append, List.nodup_append]
    refine ⟨ho.unique, List.nodup_singleton _, ?_⟩
    intro id hid other hother
    rcases List.mem_map.1 hid with ⟨t, ht, rfl⟩
    rw [List.mem_singleton.1 hother]
    exact ho.new_id t ht
  · intro t ht
    rcases List.mem_append.1 ht with ht | ht
    · have hle := ho.timers t ht
      exact ⟨Nat.le_succ_of_le hle.1, Nat.le_succ_of_le hle.2⟩
    · rw [List.mem_singleton.1 ht]
      exact ⟨Nat.le_refl _, Nat.le_refl _⟩

/-- A linked timer is armed again. -/
theorem rearm (ho : Orderly list) (now : Int) {id : Nat} (delay : Int)
    (hlinked : list.get? id ≠ none) : Orderly (list.rearm now id delay).2 := by
  have hqueue := ho.arm_queue now id delay
  rw [rearm_eq now delay hlinked]
  refine ⟨?_, ?_, hqueue.1, hqueue.2.1, hqueue.2.2.1⟩
  · show ((list.timers.map _).map _).Nodup
    rw [List.map_map]
    have hsame : (fun t : Timer => t.id) ∘ (fun t : Timer =>
        if t.id = id then { t with arming := list.lastArming + 1 } else t) = fun t => t.id :=
      funext (id_rearmed id _)
    rw [hsame]
    exact ho.unique
  · intro t ht
    rcases List.mem_map.1 ht with ⟨u, hu, rfl⟩
    have hle := ho.timers u hu
    split
    · exact ⟨hle.1, Nat.le_refl _⟩
    · exact ⟨hle.1, Nat.le_succ_of_le hle.2⟩

theorem remove_eq (ho : Orderly list) (id : Nat) :
    (list.remove id).2 = { list with timers := list.timers.filter fun t => t.id != id } := by
  rw [← eraseP_key_eq ho.unique]
  rfl

theorem get?_remove (ho : Orderly list) (id other : Nat) :
    (list.remove id).2.get? other = if id = other then none else list.get? other := by
  rw [ho.remove_eq]
  exact find?_filter_key (·.id) list.timers id other

/-- A timer is unlinked; its armings stay in the queue. -/
theorem remove (ho : Orderly list) (id : Nat) : Orderly (list.remove id).2 := by
  refine ⟨?_, ?_, ho.sorted, ho.orders, ho.queued⟩
  · rw [ho.remove_eq]
    exact (List.filter_sublist.map _).nodup ho.unique
  · intro t ht
    rw [ho.remove_eq] at ht
    exact ho.timers t (List.mem_filter.1 ht).1

/-- Armings that are not in force can be left out. -/
theorem settle (ho : Orderly list) : Orderly list.settle where
  unique := ho.unique
  timers := ho.timers
  sorted := ho.sorted.sublist (List.dropWhile_sublist _)
  orders := ((List.dropWhile_sublist _).map _).nodup ho.orders
  queued := fun a ha => ho.queued a ((List.dropWhile_sublist _).subset ha)

/-- The first arming goes before all others and has a number of its own; without it the list is
orderly too. -/
theorem front (ho : Orderly list) {a : Arming} {rest : List Arming} (hqueue : list.queue = a :: rest) :
    (∀ b ∈ rest, a.precedes b = true ∧ b.order ≠ a.order) ∧ Orderly { list with queue := rest } := by
  have hsorted := ho.sorted
  have horders := ho.orders
  rw [hqueue] at hsorted horders
  rw [List.map_cons, List.nodup_cons] at horders
  refine ⟨?_, ho.unique, ho.timers, (List.pairwise_cons.1 hsorted).2, horders.2, ?_⟩
  · intro b hb
    exact ⟨(List.pairwise_cons.1 hsorted).1 b hb,
      fun horder => horders.1 (List.mem_map.2 ⟨b, hb, horder⟩)⟩
  · intro b hb
    exact ho.queued b (by rw [hqueue]; exact List.mem_cons_of_mem a hb)

end Orderly

end ScriptService.TimerList
