import ScriptService.Proofs.Timers.Law
import ScriptService.Proofs.Timers.Orderly

/-!
# A table of deadlines

A plain table has a row for each live timer, with the deadline and the number of its arming while it
is armed. Nothing stale is in it, so the next timer is simply the least of the armed ones.

Main statements: `DeadlineTable.audited_run` and `DeadlineTable.fired_nodup`.
-/

namespace ScriptService

/-- A row of a table of deadlines: a live timer, and when it is due while it is armed. -/
@[ext]
structure DeadlineRow where
  id : Nat
  callback : Callback
  attached : Option Value
  due : Option TimerList.Due

/-- The arming of a row. -/
def DeadlineRow.arming? (r : DeadlineRow) : Option Arming :=
  r.due.map fun d => ⟨d.deadline, d.order, r.id⟩

/-- A table of deadlines. -/
structure DeadlineTable where
  rows : List DeadlineRow := []
  /-- The id given out last. -/
  lastId : Nat := 0
  /-- The number of the latest arming. -/
  lastArming : Nat := 0

namespace DeadlineTable

/-! ## What is asked of a table -/

/-- A call to a list of timers or to a table; what needs the time is given the reading of a clock.
-/
inductive Call where
  | schedule (now : Int) (callback : Callback) (delay : Int) (attached : Option Value)
  | rearm (now : Int) (id : Nat) (delay : Int)
  | remove (id : Nat)
  | popExpired (now : Int)
  | nextDeadline
  | clear

/-- A call with its answer. -/
inductive Note where
  | scheduled (now : Int) (callback : Callback) (delay : Int) (attached : Option Value) (id : Nat)
  | rearmed (now : Int) (id : Nat) (delay : Int) (found : Bool)
  | removed (id : Nat) (entry : Option (Callback × Option Value))
  | popped (now : Int) (found : Option Nat)
  | asked (deadline : Option Int)
  | cleared (count : Nat)

/-! ## What a table answers -/

/-- When a timer is due that is armed next; a negative delay counts as none. -/
def nextDue (table : DeadlineTable) (now delay : Int) : TimerList.Due :=
  ⟨now + max delay 0, table.lastArming + 1⟩

/-- The armings of the rows that are armed. -/
def armed (table : DeadlineTable) : List Arming := table.rows.filterMap DeadlineRow.arming?

/-- The arming that is due first. -/
def first? : List Arming → Option Arming
  | [] => none
  | a :: rest =>
    match first? rest with
    | some b => if b.precedes a then some b else some a
    | none => some a

/-- A new row, armed. -/
def schedule (table : DeadlineTable) (now : Int) (callback : Callback) (delay : Int)
    (attached : Option Value) : Nat × DeadlineTable :=
  let id := table.lastId + 1
  (id, ⟨table.rows ++ [⟨id, callback, attached, some (table.nextDue now delay)⟩], id,
    table.lastArming + 1⟩)

/-- The rows with another deadline, or none, in the row of an id. -/
def setDue (rows : List DeadlineRow) (id : Nat) (due : Option TimerList.Due) : List DeadlineRow :=
  rows.map fun r => if r.id = id then { r with due } else r

/-- Another deadline for a live row, whether it is armed or not. -/
def rearm (table : DeadlineTable) (now : Int) (id : Nat) (delay : Int) : Bool × DeadlineTable :=
  if table.rows.any fun r => r.id == id then
    (true,
      { table with
        rows := setDue table.rows id (some (table.nextDue now delay))
        lastArming := table.lastArming + 1 })
  else (false, table)

/-- A row is deleted. -/
def remove (table : DeadlineTable) (id : Nat) :
    Option (Callback × Option Value) × DeadlineTable :=
  ((table.rows.find? fun r => r.id == id).map fun r => (r.callback, r.attached),
    { table with rows := table.rows.filter fun r => r.id != id })

/-- A row is not armed any more, but stays. -/
def disarm (table : DeadlineTable) (id : Nat) : DeadlineTable :=
  { table with rows := setDue table.rows id none }

/-- The first of the armings that are due. -/
def popExpired (table : DeadlineTable) (now : Int) : Option Nat × DeadlineTable :=
  match first? (table.armed.filter fun a => a.deadline ≤ now) with
  | some a => (some a.id, table.disarm a.id)
  | none => (none, table)

/-- The first deadline of all. -/
def nextDeadline (table : DeadlineTable) : Option Int := (first? table.armed).map (·.deadline)

/-- Every row is deleted. -/
def clear (table : DeadlineTable) : Nat × DeadlineTable :=
  (table.rows.length, { table with rows := [] })

def call (table : DeadlineTable) : Call → Note × DeadlineTable
  | .schedule now callback delay attached =>
    let (id, table) := table.schedule now callback delay attached
    (.scheduled now callback delay attached id, table)
  | .rearm now id delay =>
    let (found, table) := table.rearm now id delay
    (.rearmed now id delay found, table)
  | .remove id =>
    let (entry, table) := table.remove id
    (.removed id entry, table)
  | .popExpired now =>
    let (found, table) := table.popExpired now
    (.popped now found, table)
  | .nextDeadline => (.asked table.nextDeadline, table)
  | .clear =>
    let (count, table) := table.clear
    (.cleared count, table)

/-- A table under observation. -/
def calls : Observed DeadlineTable Call Note where
  act table c := (table.call c).2
  notes table c := [(table.call c).1]

/-! ### The first arming -/

theorem first?_eq_none {l : List Arming} : first? l = none ↔ l = [] := by
  cases l with
  | nil => simp [first?]
  | cons a rest =>
    rw [first?]
    split
    · split
      · simp
      · simp
    · simp

/-- None of the others is due before the first one. -/
theorem first?_spec {l : List Arming} {a : Arming} (hfirst : first? l = some a) :
    a ∈ l ∧ ∀ b ∈ l, b.precedes a = false := by
  induction l generalizing a with
  | nil => cases hfirst
  | cons c rest ih =>
    rw [first?] at hfirst
    have hself : ∀ b : Arming, b.precedes b = false := fun b => by simp [Arming.precedes]
    split at hfirst
    · rename_i b hb
      have hrest := ih hb
      split at hfirst
      · rename_i hbc
        cases hfirst
        refine ⟨List.mem_cons_of_mem c hrest.1, ?_⟩
        intro d hd
        rcases List.mem_cons.1 hd with rfl | hd
        · rw [← Bool.not_eq_true, TimerList.precedes_iff]
          rw [TimerList.precedes_iff] at hbc
          omega
        · exact hrest.2 d hd
      · rename_i hbc
        cases hfirst
        refine ⟨List.mem_cons_self, ?_⟩
        intro d hd
        rcases List.mem_cons.1 hd with rfl | hd
        · exact hself d
        · have hdb := hrest.2 d hd
          rw [← Bool.not_eq_true, TimerList.precedes_iff] at hdb ⊢
          rw [TimerList.precedes_iff] at hbc
          omega
    · rename_i hnone
      cases hfirst
      rw [first?_eq_none.1 hnone]
      simp [hself]

theorem first?_of_precedes {l : List Arming} {a : Arming} (ha : a ∈ l)
    (hbefore : ∀ b ∈ l, b = a ∨ a.precedes b = true) : first? l = some a := by
  cases hfirst : first? l with
  | none =>
    rw [first?_eq_none.1 hfirst] at ha
    cases ha
  | some c =>
    have hspec := first?_spec hfirst
    rcases hbefore c hspec.1 with rfl | hac
    · rfl
    · rw [hspec.2 a ha] at hac
      cases hac

/-! ## What a history says -/

/-- The ids given out, the latest first. -/
def scheduledIds : List Note → List Nat
  | [] => []
  | .scheduled _ _ _ _ id :: past => id :: scheduledIds past
  | _ :: past => scheduledIds past

/-- The id that is armed. -/
def Note.arms? : Note → Option Nat
  | .scheduled _ _ _ _ id => some id
  | .rearmed _ id _ true => some id
  | _ => none

/-- How many armings were made. -/
def armings (h : List Note) : Nat := h.countP fun n => n.arms?.isSome

/-- The arming of an id that is in force: the latest one, unless it was removed, cleared or found
since. -/
def inForce? (id : Nat) : List Note → Option TimerList.Due
  | [] => none
  | .scheduled now _ delay _ i :: past =>
    if i = id then some ⟨now + max delay 0, armings past + 1⟩ else inForce? id past
  | .rearmed now i delay found :: past =>
    if i = id ∧ found = true then some ⟨now + max delay 0, armings past + 1⟩ else inForce? id past
  | .removed i _ :: past => if i = id then none else inForce? id past
  | .popped _ found :: past => if found = some id then none else inForce? id past
  | .asked _ :: past => inForce? id past
  | .cleared _ :: _ => none

/-- The numbers of the armings whose timers were found, the latest first. -/
def fired : List Note → List Nat
  | [] => []
  | .popped _ found :: past =>
    ((found.bind fun id => inForce? id past).map (·.order)).toList ++ fired past
  | _ :: past => fired past

/-- What an answer may be after a history. An id given out is larger than all before. A timer is
found if its arming is due, and before all others in force; that arming has been in force ever since
it was made. -/
def Note.Fits (past : List Note) : Note → Prop
  | .scheduled _ _ _ _ id => ∀ i ∈ scheduledIds past, i < id
  | .popped now (some id) => ∃ d, inForce? id past = some d ∧ d.deadline ≤ now ∧
      (∀ other e, other ≠ id → inForce? other past = some e → d.precedes e) ∧
        ∀ old, old <:+ past → d.order ≤ armings old → inForce? id old = some d
  | .popped now none => ∀ id d, inForce? id past = some d → now < d.deadline
  | .asked (some time) => (∃ id d, inForce? id past = some d ∧ d.deadline = time) ∧
      ∀ id d, inForce? id past = some d → time ≤ d.deadline
  | .asked none => ∀ id, inForce? id past = none
  | _ => True

theorem armings_of_arms {n : Note} {id : Nat} {past : List Note} (harms : n.arms? = some id) :
    armings (n :: past) = armings past + 1 := by
  unfold armings
  rw [List.countP_cons_of_pos]
  simp [harms]

theorem armings_mono (later past : List Note) : armings past ≤ armings (later ++ past) := by
  unfold armings
  rw [List.countP_append]
  exact Nat.le_add_left _ _

/-- An arming in force was made just now, or was in force before. -/
theorem inForce?_cons {id : Nat} {d : TimerList.Due} {n : Note} {past : List Note}
    (hforce : inForce? id (n :: past) = some d) :
    (n.arms? = some id ∧ d.order = armings past + 1) ∨ inForce? id past = some d := by
  cases n with
  | scheduled now f delay a i =>
    rw [inForce?] at hforce
    split at hforce
    · rename_i hid
      cases hforce
      exact Or.inl ⟨congrArg some hid, rfl⟩
    · exact Or.inr hforce
  | rearmed now i delay found =>
    rw [inForce?] at hforce
    split at hforce
    · rename_i hid
      cases hforce
      refine Or.inl ⟨?_, rfl⟩
      rw [hid.1, hid.2]
      rfl
    · exact Or.inr hforce
  | removed i entry =>
    rw [inForce?] at hforce
    split at hforce
    · cases hforce
    · exact Or.inr hforce
  | popped now found =>
    rw [inForce?] at hforce
    split at hforce
    · cases hforce
    · exact Or.inr hforce
  | asked deadline => exact Or.inr hforce
  | cleared count => cases hforce

theorem order_le_armings {id : Nat} {d : TimerList.Due} {h : List Note}
    (hforce : inForce? id h = some d) : d.order ≤ armings h := by
  induction h with
  | nil => cases hforce
  | cons n past ih =>
    rcases inForce?_cons hforce with ⟨harms, horder⟩ | hbefore
    · rw [armings_of_arms harms, horder]
    · exact Nat.le_trans (ih hbefore) (armings_mono [n] past)

/-- An arming is in force ever since it was made. -/
theorem inForce?_since {id : Nat} {d : TimerList.Due} {later past : List Note}
    (hforce : inForce? id (later ++ past) = some d) (hmade : d.order ≤ armings past) :
    inForce? id past = some d := by
  induction later with
  | nil => exact hforce
  | cons n later ih =>
    have hmono := armings_mono later past
    rcases inForce?_cons hforce with ⟨-, horder⟩ | hbefore
    · have horder : d.order = armings (later ++ past) + 1 := horder
      omega
    · exact ih hbefore

/-- No two ids have one arming. -/
theorem inForce?_inj {id other : Nat} {d e : TimerList.Due} {h : List Note}
    (hd : inForce? id h = some d) (he : inForce? other h = some e) (horder : d.order = e.order) :
    id = other := by
  induction h with
  | nil => cases hd
  | cons n past ih =>
    rcases inForce?_cons hd with ⟨hid, hnew⟩ | hd'
    · rcases inForce?_cons he with ⟨hother, -⟩ | he'
      · exact Option.some.inj (hid.symm.trans hother)
      · have hle := order_le_armings he'
        omega
    · rcases inForce?_cons he with ⟨-, hnew⟩ | he'
      · have hle := order_le_armings hd'
        omega
      · exact ih hd' he'

/-- An arming whose timer was found is not in force any more. -/
theorem order_ne_of_fired {o : Nat} {h : List Note} (ho : o ∈ fired h) :
    o ≤ armings h ∧ ∀ id d, inForce? id h = some d → d.order ≠ o := by
  induction h with
  | nil => cases ho
  | cons n past ih =>
    have hpast : o ∈ fired past →
        o ≤ armings (n :: past) ∧ ∀ id d, inForce? id (n :: past) = some d → d.order ≠ o := by
      intro hmem
      rcases ih hmem with ⟨hle, hne⟩
      refine ⟨Nat.le_trans hle (armings_mono [n] past), ?_⟩
      intro id d hforce
      rcases inForce?_cons hforce with ⟨-, horder⟩ | hbefore
      · omega
      · exact hne id d hbefore
    cases n with
    | popped now found =>
      rcases List.mem_append.1 ho with hnow | hmem
      · rcases Option.map_eq_some_iff.1 (Option.mem_toList.1 hnow) with ⟨d, hd, rfl⟩
        rcases Option.bind_eq_some_iff.1 hd with ⟨id, rfl, hforce⟩
        refine ⟨Nat.le_trans (order_le_armings hforce) (armings_mono [_] past), ?_⟩
        intro other e he horder
        rw [inForce?] at he
        split at he
        · cases he
        · rename_i hne
          exact hne (congrArg some (inForce?_inj he hforce horder).symm)
      · exact hpast hmem
    | scheduled now f delay a i => exact hpast ho
    | rearmed now i delay found => exact hpast ho
    | removed i entry => exact hpast ho
    | asked deadline => exact hpast ho
    | cleared count => exact hpast ho

/-- No arming is found twice. -/
theorem fired_nodup (h : List Note) : (fired h).Nodup := by
  induction h with
  | nil => exact List.nodup_nil
  | cons n past ih =>
    cases n with
    | popped now found =>
      rw [fired]
      cases harming : found.bind fun id => inForce? id past with
      | none => exact ih
      | some d =>
        rcases Option.bind_eq_some_iff.1 harming with ⟨id, rfl, hforce⟩
        refine List.nodup_cons.2 ⟨fun hmem => ?_, ih⟩
        exact (order_ne_of_fired hmem).2 id d hforce rfl
    | scheduled now f delay a i => exact ih
    | rearmed now i delay found => exact ih
    | removed i entry => exact ih
    | asked deadline => exact ih
    | cleared count => exact ih

/-! ### Tables in step with a history -/

theorem bounded_setDue {rows : List DeadlineRow} {bound : Nat}
    (hbounded : ∀ r ∈ rows, r.id ≤ bound) (id : Nat) (due : Option TimerList.Due) :
    ∀ r ∈ setDue rows id due, r.id ≤ bound := by
  intro r hr
  rcases List.mem_map.1 hr with ⟨s, hs, rfl⟩
  split
  · exact hbounded s hs
  · exact hbounded s hs

/-- Another deadline in one row leaves the other rows. -/
theorem due_setDue {rows : List DeadlineRow} {id other : Nat} {due : Option TimerList.Due}
    {d : TimerList.Due} : (∃ r ∈ setDue rows id due, r.id = other ∧ r.due = some d) ↔
      if id = other then (∃ r ∈ rows, r.id = id) ∧ due = some d
      else ∃ r ∈ rows, r.id = other ∧ r.due = some d := by
  unfold setDue
  simp only [List.mem_map, exists_exists_and_eq_and]
  by_cases hid : id = other
  · subst hid
    rw [if_pos rfl]
    constructor
    · rintro ⟨r, hr, hrow, hdue⟩
      by_cases hself : r.id = id
      · rw [if_pos hself] at hdue
        exact ⟨⟨r, hr, hself⟩, hdue⟩
      · rw [if_neg hself] at hrow
        exact absurd hrow hself
    · rintro ⟨⟨r, hr, hself⟩, hdue⟩
      refine ⟨r, hr, ?_⟩
      rw [if_pos hself]
      exact ⟨hself, hdue⟩
  · rw [if_neg hid]
    refine exists_congr fun r => and_congr_right fun _ => ?_
    by_cases hself : r.id = id
    · rw [if_pos hself]
      constructor
      · rintro ⟨hrow, -⟩
        exact absurd (hself.symm.trans hrow) hid
      · rintro ⟨hrow, -⟩
        exact absurd (hself.symm.trans hrow) hid
    · rw [if_neg hself]

/-- The table is in step with the history. -/
structure Recorded (table : DeadlineTable) (h : List Note) : Prop where
  bounded : ∀ r ∈ table.rows, r.id ≤ table.lastId
  ids : ∀ id ∈ scheduledIds h, id ≤ table.lastId
  counted : table.lastArming = armings h
  armed : ∀ id d, inForce? id h = some d ↔ ∃ r ∈ table.rows, r.id = id ∧ r.due = some d

theorem recorded_init : Recorded {} [] where
  bounded := fun r hr => by cases hr
  ids := fun id hid => by cases hid
  counted := rfl
  armed := fun id d => by simp [inForce?]

namespace Recorded

variable {table : DeadlineTable} {h : List Note}

theorem schedule (hr : Recorded table h) (now : Int) (callback : Callback) (delay : Int)
    (attached : Option Value) :
    Recorded (table.schedule now callback delay attached).2
      (.scheduled now callback delay attached (table.lastId + 1) :: h) := by
  refine ⟨?_, ?_, ?_, ?_⟩
  · intro r hrow
    rcases List.mem_append.1 hrow with hrow | hrow
    · exact Nat.le_succ_of_le (hr.bounded r hrow)
    · rw [List.mem_singleton.1 hrow]
      exact Nat.le_refl _
  · intro id hid
    rcases List.mem_cons.1 hid with rfl | hid
    · exact Nat.le_refl _
    · exact Nat.le_succ_of_le (hr.ids id hid)
  · rw [armings_of_arms rfl, ← hr.counted]
    rfl
  · intro id d
    show _ ↔ ∃ r ∈ table.rows ++ [_], _
    simp only [List.mem_append, List.mem_singleton, or_and_right, exists_or, exists_eq_left]
    rw [inForce?, ← hr.counted]
    by_cases hid : table.lastId + 1 = id
    · subst hid
      have hold : ¬∃ r ∈ table.rows, r.id = table.lastId + 1 ∧ r.due = some d := by
        rintro ⟨r, hrow, hself, -⟩
        have hle := hr.bounded r hrow
        omega
      rw [if_pos rfl, or_iff_right hold]
      exact (and_iff_right rfl).symm
    · rw [if_neg hid, hr.armed]
      refine (or_iff_left ?_).symm
      exact fun hnew => hid hnew.1

theorem rearm (hr : Recorded table h) (now : Int) (id : Nat) (delay : Int) :
    Recorded (table.rearm now id delay).2
      (.rearmed now id delay (table.rearm now id delay).1 :: h) := by
  unfold DeadlineTable.rearm
  by_cases hlive : (table.rows.any fun r => r.id == id) = true
  · rw [if_pos hlive]
    refine ⟨bounded_setDue hr.bounded id _, hr.ids, ?_, ?_⟩
    · rw [armings_of_arms rfl, ← hr.counted]
    · intro other d
      rw [due_setDue, inForce?, ← hr.counted]
      simp only [List.any_eq_true, beq_iff_eq] at hlive
      by_cases hid : id = other
      · rw [if_pos ⟨hid, rfl⟩, if_pos hid, and_iff_right hlive]
        rfl
      · rw [if_neg (fun hself => hid hself.1), if_neg hid]
        exact hr.armed other d
  · rw [if_neg hlive]
    refine ⟨hr.bounded, hr.ids, ?_, ?_⟩
    · rw [hr.counted]
      rfl
    · intro other d
      rw [inForce?, if_neg (by simp)]
      exact hr.armed other d

theorem remove (hr : Recorded table h) (id : Nat) :
    Recorded (table.remove id).2 (.removed id (table.remove id).1 :: h) := by
  refine ⟨?_, hr.ids, hr.counted, ?_⟩
  · exact fun r hrow => hr.bounded r (List.mem_filter.1 hrow).1
  · intro other d
    show _ ↔ ∃ r ∈ table.rows.filter (fun r => r.id != id), _
    simp only [List.mem_filter, bne_iff_ne, inForce?]
    by_cases hid : id = other
    · rw [if_pos hid]
      constructor
      · intro hnone
        cases hnone
      · rintro ⟨r, ⟨-, hother⟩, hself, -⟩
        exact absurd (hself.trans hid.symm) hother
    · rw [if_neg hid, hr.armed]
      refine exists_congr fun r => ⟨?_, ?_⟩
      · rintro ⟨hrow, rfl, hdue⟩
        exact ⟨⟨hrow, Ne.symm hid⟩, rfl, hdue⟩
      · rintro ⟨⟨hrow, -⟩, hself, hdue⟩
        exact ⟨hrow, hself, hdue⟩

theorem popExpired (hr : Recorded table h) (now : Int) :
    Recorded (table.popExpired now).2 (.popped now (table.popExpired now).1 :: h) := by
  unfold DeadlineTable.popExpired
  cases first? (table.armed.filter fun a => a.deadline ≤ now) with
  | none => exact ⟨hr.bounded, hr.ids, hr.counted, fun other d => hr.armed other d⟩
  | some a =>
    refine ⟨?_, hr.ids, hr.counted, ?_⟩
    · exact bounded_setDue hr.bounded a.id none
    · intro other d
      show _ ↔ ∃ r ∈ setDue table.rows a.id none, _
      rw [due_setDue, inForce?]
      by_cases hid : a.id = other
      · simp [hid]
      · rw [if_neg (fun hself => hid (Option.some.inj hself)), if_neg hid]
        exact hr.armed other d

theorem clear (hr : Recorded table h) : Recorded table.clear.2 (.cleared table.clear.1 :: h) where
  bounded := fun r hrow => by cases hrow
  ids := hr.ids
  counted := hr.counted
  armed := fun id d => by simp [inForce?, DeadlineTable.clear]

/-- The table stays in step with what it answers. -/
theorem call (hr : Recorded table h) (c : Call) :
    Recorded (table.call c).2 ((table.call c).1 :: h) := by
  cases c with
  | schedule now callback delay attached => exact hr.schedule now callback delay attached
  | rearm now id delay => exact hr.rearm now id delay
  | remove id => exact hr.remove id
  | popExpired now => exact hr.popExpired now
  | nextDeadline => exact ⟨hr.bounded, hr.ids, hr.counted, fun id d => hr.armed id d⟩
  | clear => exact hr.clear

/-! ### The answers -/

theorem mem_armed (hr : Recorded table h) {a : Arming} :
    a ∈ table.armed ↔ inForce? a.id h = some ⟨a.deadline, a.order⟩ := by
  rw [hr.armed]
  constructor
  · intro hmem
    rcases List.mem_filterMap.1 hmem with ⟨r, hrow, harming⟩
    rcases Option.map_eq_some_iff.1 harming with ⟨d, hd, rfl⟩
    exact ⟨r, hrow, rfl, hd⟩
  · rintro ⟨r, hrow, hself, hdue⟩
    refine List.mem_filterMap.2 ⟨r, hrow, ?_⟩
    rw [DeadlineRow.arming?, hdue, hself]
    rfl

theorem fits_popExpired (hr : Recorded table h) (now : Int) :
    (Note.popped now (table.popExpired now).1).Fits h := by
  unfold DeadlineTable.popExpired
  cases hfirst : first? (table.armed.filter fun a => a.deadline ≤ now) with
  | none =>
    rw [first?_eq_none, List.filter_eq_nil_iff] at hfirst
    intro id d hforce
    simpa using hfirst ⟨d.deadline, d.order, id⟩ (hr.mem_armed.2 hforce)
  | some a =>
    rcases first?_spec hfirst with ⟨hmem, hbefore⟩
    rcases List.mem_filter.1 hmem with ⟨harmed, hdue⟩
    have hforce := hr.mem_armed.1 harmed
    refine ⟨_, hforce, by simpa using hdue, ?_, ?_⟩
    · intro other e hne he
      have hother : (⟨e.deadline, e.order, other⟩ : Arming) ∈ table.armed := hr.mem_armed.2 he
      have hdistinct : a.order ≠ e.order := fun horder =>
        hne (inForce?_inj hforce he horder).symm
      simp only [decide_eq_true_eq] at hdue
      unfold TimerList.Due.precedes
      -- An arming that is not due yet comes later, and one that is due was looked at.
      by_cases hlate : now < e.deadline
      · simp only
        omega
      · have hbehind := hbefore ⟨e.deadline, e.order, other⟩
          (List.mem_filter.2 ⟨hother, by simpa using hlate⟩)
        rw [← Bool.not_eq_true, TimerList.precedes_iff] at hbehind
        simp only at hbehind ⊢
        omega
    · rintro old ⟨later, rfl⟩ hmade
      exact inForce?_since hforce hmade

theorem fits_nextDeadline (hr : Recorded table h) : (Note.asked table.nextDeadline).Fits h := by
  unfold DeadlineTable.nextDeadline
  cases hfirst : first? table.armed with
  | none =>
    intro id
    refine Option.eq_none_iff_forall_ne_some.2 fun d hforce => ?_
    have hmem : (⟨d.deadline, d.order, id⟩ : Arming) ∈ table.armed := hr.mem_armed.2 hforce
    rw [first?_eq_none.1 hfirst] at hmem
    cases hmem
  | some a =>
    rcases first?_spec hfirst with ⟨hmem, hbefore⟩
    refine ⟨⟨a.id, _, hr.mem_armed.1 hmem, rfl⟩, ?_⟩
    intro id d hforce
    have hbehind := hbefore ⟨d.deadline, d.order, id⟩ (hr.mem_armed.2 hforce)
    rw [← Bool.not_eq_true, TimerList.precedes_iff] at hbehind
    simp only at hbehind ⊢
    omega

theorem fits (hr : Recorded table h) (c : Call) : (table.call c).1.Fits h := by
  cases c with
  | schedule now callback delay attached =>
    intro id hid
    exact Nat.lt_succ_of_le (hr.ids id hid)
  | rearm now id delay => trivial
  | remove id => trivial
  | popExpired now => exact hr.fits_popExpired now
  | nextDeadline => exact hr.fits_nextDeadline
  | clear => trivial

end Recorded

/-- The table is in step with the history, and its answers were those that may be given. -/
structure Audited (table : DeadlineTable) (h : List Note) : Prop where
  recorded : Recorded table h
  fitting : Throughout (fun n past => n.Fits past) h

theorem audited_run (cs : List Call) : Audited (calls.run {} cs).1 (calls.run {} cs).2 := by
  refine calls.run_invariant ⟨recorded_init, throughout_nil⟩ ?_ cs
  rintro table h c ⟨hr, hfits⟩
  exact ⟨hr.call c, throughout_cons.2 ⟨hr.fits c, hfits⟩⟩

end DeadlineTable

end ScriptService
