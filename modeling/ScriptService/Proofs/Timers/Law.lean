import ScriptService.Proofs.History
import ScriptService.Script.Fault

/-!
# The law of timers

What a history of creations, firings and returns says about timers, without queue or numbers of
armings inside: which timers are linked, with which function, and when each is due. A history is
lawful if only timers that are due fire, the earliest first, one at a time.

Main statements: `TimerList.Lawful.firing`, `TimerList.Lawful.allows` and `TimerList.Lawful.fired`.
-/

namespace ScriptService.TimerList

/-- What is noted of timers. -/
inductive Note where
  | created (id time : Nat) (delay : Int) (callback : Callback) (attached : Option Value)
  /-- The function of a timer that is due is called. -/
  | fired (id time : Nat) (callback : Callback) (args : List Value)
  /-- The function has come to an end. -/
  | returned (id time : Nat) (result : Except Fault Value)
  /-- Every timer is unlinked. -/
  | cleared
  deriving Inhabited

/-- When a timer is due; among equal deadlines the timer that was armed first goes first. -/
structure Due where
  deadline : Int
  order : Nat
  deriving DecidableEq, Inhabited

def Due.precedes (a b : Due) : Prop :=
  a.deadline < b.deadline ∨ a.deadline = b.deadline ∧ a.order < b.order

/-! ## What a history says -/

/-- The next delay that the function of a timer asks for: none unless it returns an integer. -/
def delay? : Except Fault Value → Option Int
  | .ok v => v.int?.map (·.toInt)
  | .error _ => none

/-- When a timer is due that is armed at a time with a delay; a negative delay counts as none. -/
def deadline (time : Nat) (delay : Int) : Int := time + max delay 0

/-- The timers that were created, in order. -/
def createdIds : List Note → List Nat
  | [] => []
  | .created id _ _ _ _ :: past => createdIds past ++ [id]
  | _ :: past => createdIds past

/-- How often a timer was armed. -/
def armings : List Note → Nat
  | [] => 0
  | .created _ _ _ _ _ :: past => armings past + 1
  | .returned _ _ result :: past => armings past + if (delay? result).isSome then 1 else 0
  | _ :: past => armings past

/-- The function of a linked timer and the value attached to it. A timer is linked from its creation
until its function fails to return a delay. -/
def linked? (id : Nat) : List Note → Option (Callback × Option Value)
  | [] => none
  | .created i _ _ callback attached :: past =>
    if i = id then some (callback, attached) else linked? id past
  | .fired _ _ _ _ :: past => linked? id past
  | .returned i _ result :: past =>
    if i = id ∧ delay? result = none then none else linked? id past
  | .cleared :: _ => none

/-- When a timer is due, if it is armed. A timer is armed by its creation and by each delay that its
function returns, until it fires. -/
def due? (id : Nat) : List Note → Option Due
  | [] => none
  | .created i time delay _ _ :: past =>
    if i = id then some ⟨deadline time delay, armings past + 1⟩ else due? id past
  | .fired i _ _ _ :: past => if i = id then none else due? id past
  | .returned i time result :: past =>
    if i = id then (delay? result).map fun delay => ⟨deadline time delay, armings past + 1⟩
    else due? id past
  | .cleared :: _ => none

/-- The timer whose function runs. -/
def firing? : List Note → Option Nat
  | [] => none
  | .created _ _ _ _ _ :: past => firing? past
  | .fired id _ _ _ :: _ => some id
  | .returned _ _ _ :: _ => none
  | .cleared :: past => firing? past

/-- Whether a timer may fire at a time, as far as one earlier note says: not before the delay has
passed that it was created with or that its function returned, and not at all after its function
returned none. -/
def Note.allows (id time : Nat) : Note → Prop
  | .created i t delay _ _ => i = id → deadline t delay ≤ time
  | .returned i t result => i = id → ∃ delay, delay? result = some delay ∧ deadline t delay ≤ time
  | _ => True

/-! ## Lawful histories -/

/-- The histories that timers can have by a time. -/
inductive Lawful : Nat → List Note → Prop where
  | init (now : Nat) : Lawful now []
  | wait {now later : Nat} {h : List Note} (hlawful : Lawful now h) (hlater : now ≤ later) :
      Lawful later h
  | create {now : Nat} {h : List Note} (hlawful : Lawful now h) (id : Nat) (delay : Int)
      (callback : Callback) (attached : Option Value) (hnew : id ∉ createdIds h) :
      Lawful now (.created id now delay callback attached :: h)
  | fire {now : Nat} {h : List Note} (hlawful : Lawful now h) {id : Nat} {callback : Callback}
      {attached : Option Value} {due : Due} (hidle : firing? h = none)
      (hentry : linked? id h = some (callback, attached)) (hdue : due? id h = some due)
      (hpast : due.deadline ≤ now)
      (hfirst : ∀ other d, other ≠ id → due? other h = some d → due.precedes d) :
      Lawful now (.fired id now callback attached.toList :: h)
  | return {now : Nat} {h : List Note} (hlawful : Lawful now h) {id : Nat}
      (result : Except Fault Value) (hfiring : firing? h = some id) :
      Lawful now (.returned id now result :: h)
  | clear {now : Nat} {h : List Note} (hlawful : Lawful now h) (hidle : firing? h = none) :
      Lawful now (.cleared :: h)

theorem mem_createdIds_of_linked {id : Nat} {h : List Note} (hentry : linked? id h ≠ none) :
    id ∈ createdIds h := by
  induction h with
  | nil => exact absurd rfl hentry
  | cons n past ih =>
    cases n with
    | created i t d callback attached =>
      by_cases hid : i = id
      · simp [createdIds, hid]
      · rw [linked?, if_neg hid] at hentry
        exact List.mem_append_left _ (ih hentry)
    | fired i t callback args => exact ih hentry
    | returned i t result =>
      rw [linked?] at hentry
      split at hentry
      · exact absurd rfl hentry
      · exact ih hentry
    | cleared => exact absurd rfl hentry

namespace Lawful

variable {now : Nat} {h : List Note}

/-- A part of a history that starts with it is one that its timers had earlier. -/
theorem of_append {later past : List Note} (hlawful : Lawful now (later ++ past)) :
    ∃ time, time ≤ now ∧ Lawful time past := by
  generalize hall : later ++ past = h at hlawful
  induction hlawful generalizing later with
  | init time =>
    rcases List.append_eq_nil_iff.1 hall with ⟨-, rfl⟩
    exact ⟨time, Nat.le_refl time, .init time⟩
  | wait hlawful hlater ih =>
    rcases ih hall with ⟨time, hle, htime⟩
    exact ⟨time, Nat.le_trans hle hlater, htime⟩
  | @create time h hlawful id delay callback attached hnew ih =>
    cases later with
    | nil =>
      subst hall
      exact ⟨time, Nat.le_refl time, .create hlawful id delay callback attached hnew⟩
    | cons n later => exact ih (List.cons.inj hall).2
  | @fire time h hlawful id callback attached due hidle hentry hdue hpast hfirst ih =>
    cases later with
    | nil =>
      subst hall
      exact ⟨time, Nat.le_refl time, .fire hlawful hidle hentry hdue hpast hfirst⟩
    | cons n later => exact ih (List.cons.inj hall).2
  | @«return» time h hlawful id result hfiring ih =>
    cases later with
    | nil =>
      subst hall
      exact ⟨time, Nat.le_refl time, .return hlawful result hfiring⟩
    | cons n later => exact ih (List.cons.inj hall).2
  | @clear time h hlawful hidle ih =>
    cases later with
    | nil =>
      subst hall
      exact ⟨time, Nat.le_refl time, .clear hlawful hidle⟩
    | cons n later => exact ih (List.cons.inj hall).2

/-- No timer is created twice. -/
theorem nodup_createdIds (hlawful : Lawful now h) : (createdIds h).Nodup := by
  induction hlawful with
  | init => exact List.nodup_nil
  | wait hlawful hlater ih => exact ih
  | create hlawful id delay callback attached hnew ih =>
    rw [createdIds, List.nodup_append]
    refine ⟨ih, List.nodup_singleton id, ?_⟩
    rintro a ha b hb rfl
    exact hnew (List.mem_singleton.1 hb ▸ ha)
  | fire hlawful hidle hentry hdue hpast hfirst ih => exact ih
  | «return» hlawful result hfiring ih => exact ih
  | clear hlawful hidle ih => exact ih

/-- The timer whose function runs is linked, but not armed. -/
theorem firing (hlawful : Lawful now h) {id : Nat} (hfiring : firing? h = some id) :
    linked? id h ≠ none ∧ due? id h = none := by
  induction hlawful with
  | init => cases hfiring
  | wait hlawful hlater ih => exact ih hfiring
  | create hlawful i delay callback attached hnew ih =>
    have hold := ih hfiring
    have hne : i ≠ id := by
      rintro rfl
      exact hnew (mem_createdIds_of_linked hold.1)
    rw [linked?, due?, if_neg hne, if_neg hne]
    exact hold
  | fire hlawful hidle hentry hdue hpast hfirst ih =>
    cases hfiring
    rw [linked?, due?, hentry, if_pos rfl]
    exact ⟨by simp, rfl⟩
  | «return» hlawful result hrunning ih => cases hfiring
  | clear hlawful hidle ih => exact absurd (hidle.symm.trans hfiring) (by simp)

/-- Only timers that were created are noted. -/
theorem mem_createdIds (hlawful : Lawful now h) {id t : Nat} {result : Except Fault Value}
    (hmem : .returned id t result ∈ h) : id ∈ createdIds h := by
  induction hlawful with
  | init => cases hmem
  | wait hlawful hlater ih => exact ih hmem
  | create hlawful i delay callback attached hnew ih =>
    rcases List.mem_cons.1 hmem with heq | hmem
    · cases heq
    · exact List.mem_append_left _ (ih hmem)
  | fire hlawful hidle hentry hdue hpast hfirst ih =>
    rcases List.mem_cons.1 hmem with heq | hmem
    · cases heq
    · exact ih hmem
  | @«return» now h hlawful i result hfiring ih =>
    rcases List.mem_cons.1 hmem with heq | hmem
    · cases heq
      have hcreated : id ∈ createdIds h := mem_createdIds_of_linked (hlawful.firing hfiring).1
      exact hcreated
    · exact ih hmem
  | clear hlawful hidle ih =>
    rcases List.mem_cons.1 hmem with heq | hmem
    · cases heq
    · exact ih hmem

theorem mem_createdIds_of_mem {id t : Nat} {delay : Int} {callback : Callback}
    {attached : Option Value} (hmem : .created id t delay callback attached ∈ h) :
    id ∈ createdIds h := by
  induction h with
  | nil => cases hmem
  | cons n past ih =>
    rcases List.mem_cons.1 hmem with heq | hmem
    · subst heq
      simp [createdIds]
    · have hpast := ih hmem
      cases n with
      | created i t d callback attached => exact List.mem_append_left _ hpast
      | fired i t callback args => exact hpast
      | returned i t result => exact hpast
      | cleared => exact hpast

/-- Nothing was noted of a timer before it was created. -/
theorem allows_of_new (hlawful : Lawful now h) {id : Nat} (hnew : id ∉ createdIds h) (time : Nat) :
    ∀ n ∈ h, n.allows id time := by
  intro n hn
  cases n with
  | created j t d f a =>
    rintro rfl
    exact absurd (mem_createdIds_of_mem hn) hnew
  | returned j t result =>
    rintro rfl
    exact absurd (hlawful.mem_createdIds hn) hnew
  | fired j t f args => trivial
  | cleared => trivial

/-- A timer that is linked after a function returned was linked before; if the function was its own,
it returned a delay. -/
theorem linked_of_returned {i id time : Nat} {result : Except Fault Value}
    (hlinked : linked? id (.returned i time result :: h) ≠ none) :
    linked? id h ≠ none ∧ (i = id → ∃ delay, delay? result = some delay) := by
  rw [linked?] at hlinked
  split at hlinked
  · exact absurd rfl hlinked
  · rename_i hlives
    refine ⟨hlinked, ?_⟩
    intro hid
    cases hresult : delay? result with
    | none => exact absurd ⟨hid, hresult⟩ hlives
    | some delay => exact ⟨delay, rfl⟩

/-- Every note about a linked timer allows it to fire at any time from now on at which its deadline,
if it is armed, has passed. -/
theorem allows (hlawful : Lawful now h) {id time : Nat} (hlinked : linked? id h ≠ none)
    (hnow : now ≤ time) (hdue : ∀ due, due? id h = some due → due.deadline ≤ time) :
    ∀ n ∈ h, n.allows id time := by
  induction hlawful with
  | init =>
    intro n hn
    cases hn
  | wait hlawful hlater ih => exact ih hlinked (Nat.le_trans hlater hnow) hdue
  | @create now h hlawful i delay callback attached hnew ih =>
    intro n hn
    by_cases hid : i = id
    · subst hid
      rcases List.mem_cons.1 hn with rfl | hold
      · intro _
        exact hdue _ (by rw [due?, if_pos rfl])
      · exact hlawful.allows_of_new hnew time n hold
    · rw [linked?, if_neg hid] at hlinked
      rw [due?, if_neg hid] at hdue
      rcases List.mem_cons.1 hn with rfl | hn
      · exact fun heq => absurd heq hid
      · exact ih hlinked hnow hdue n hn
  | @fire now h hlawful i callback attached due hidle hentry hold hpast hfirst ih =>
    intro n hn
    rcases List.mem_cons.1 hn with rfl | hn
    · trivial
    · -- The timer that fires was due until now, and the others still are.
      refine ih hlinked hnow ?_ n hn
      intro d hd
      by_cases hid : i = id
      · subst hid
        have hsame : due = d := Option.some.inj (hold.symm.trans hd)
        subst hsame
        omega
      · exact hdue d (by rw [due?, if_neg hid, hd])
  | @«return» now h hlawful i result hfiring ih =>
    intro n hn
    have hbefore := linked_of_returned hlinked
    by_cases hid : i = id
    · subst hid
      rcases hbefore.2 rfl with ⟨delay, hdelay⟩
      rcases List.mem_cons.1 hn with rfl | hn
      · intro _
        refine ⟨delay, hdelay, hdue ⟨deadline now delay, armings h + 1⟩ ?_⟩
        rw [due?, if_pos rfl, hdelay]
        rfl
      · -- While its function ran, the timer was not armed.
        refine ih hbefore.1 hnow ?_ n hn
        intro d hd
        rw [(hlawful.firing hfiring).2] at hd
        cases hd
    · rcases List.mem_cons.1 hn with rfl | hn
      · exact fun heq => absurd heq hid
      · refine ih hbefore.1 hnow ?_ n hn
        intro d hd
        exact hdue d (by rw [due?, if_neg hid, hd])
  | clear hlawful hidle ih => exact absurd rfl hlinked

/-- A timer that fires is due, and before all others that are armed; every earlier note allows
it. -/
theorem fired {id time : Nat} {callback : Callback} {args : List Value} {later past : List Note}
    (hlawful : Lawful now (later ++ .fired id time callback args :: past)) :
    ∃ attached due, linked? id past = some (callback, attached) ∧ args = attached.toList ∧
      due? id past = some due ∧ due.deadline ≤ time ∧
        (∀ other d, other ≠ id → due? other past = some d → due.precedes d) ∧
          ∀ n ∈ past, n.allows id time := by
  rcases hlawful.of_append with ⟨t, -, hthen⟩
  generalize hall : Note.fired id time callback args :: past = h at hthen
  induction hthen with
  | init => cases hall
  | wait hlawful hlater ih => exact ih hall
  | create hlawful i delay f a hnew ih => cases hall
  | fire hlawful hidle hentry hdue hpast hfirst ih =>
    cases hall
    refine ⟨_, _, hentry, rfl, hdue, hpast, hfirst, ?_⟩
    refine hlawful.allows (by rw [hentry]; simp) (Nat.le_refl _) ?_
    intro d hd
    have hsame := Option.some.inj (hdue.symm.trans hd)
    subst hsame
    exact hpast
  | «return» hlawful result hfiring ih => cases hall
  | clear hlawful hidle ih => cases hall

/-- A function that comes to an end is that of the timer that fired last. -/
theorem returned {id time : Nat} {result : Except Fault Value} {later past : List Note}
    (hlawful : Lawful now (later ++ .returned id time result :: past)) :
    firing? past = some id ∧ linked? id past ≠ none := by
  rcases hlawful.of_append with ⟨t, -, hthen⟩
  generalize hall : Note.returned id time result :: past = h at hthen
  induction hthen with
  | init => cases hall
  | wait hlawful hlater ih => exact ih hall
  | create hlawful i delay f a hnew ih => cases hall
  | fire hlawful hidle hentry hdue hpast hfirst ih => cases hall
  | «return» hlawful result hfiring ih =>
    cases hall
    exact ⟨hfiring, (hlawful.firing hfiring).1⟩
  | clear hlawful hidle ih => cases hall

end Lawful

end ScriptService.TimerList
