import ScriptService.Proofs.Children.Kept

/-!
# Signals to children

When everything is released, the children that are still watched are asked to end, and those that do
not end in time are ended by force. A child stays watched until its status was passed on, so a child
whose status was collected and is still to be passed on is asked, too, though it is gone; but it is
never ended by force, as no process answers for it any more.

Main statements: `ChildList.signals_terminateAll` and `ChildList.Kept.dismiss`.
-/

namespace ScriptService

/-! ## Signals in a trace -/

/-- The number that a signal was sent to, and the signal. -/
def Event.signal? : Event → Option (Int × Nat)
  | .kill pid signal => some (pid, signal)
  | _ => none

namespace World

/-- The signals that were sent, in order. -/
def signals (w : World) : List (Int × Nat) := w.trace.filterMap fun e => e.event.signal?

theorem signals_note (w : World) (e : Event) :
    (w.note e).signals = w.signals ++ e.signal?.toList := by
  unfold signals note
  rw [List.filterMap_append]
  cases h : e.signal? <;> simp [h]

/-- Most events are no signals. -/
@[simp] theorem signals_note_of_none {e : Event} (w : World) (h : e.signal? = none) :
    (w.note e).signals = w.signals := by
  rw [signals_note, h, Option.toList_none, List.append_nil]

theorem signals_info (w : World) (message : String) (details : List (String × String)) :
    (w.info message details).signals = w.signals := signals_note_of_none w rfl

theorem signals_warn (w : World) (message : String) (details : List (String × String)) :
    (w.warn message details).signals = w.signals := signals_note_of_none w rfl

theorem signals_error (w : World) (message : String) (details : List (String × String)) :
    (w.error message details).signals = w.signals := signals_note_of_none w rfl

theorem signals_fork (w : World) : w.fork.2.signals = w.signals := signals_note_of_none _ rfl

theorem signals_kill (w : World) (pid : Int) (signal : Nat) :
    (w.kill pid signal).2.signals = w.signals ++ [(pid, signal)] := signals_note _ _

end World

/-! ## Processes that are gone -/

namespace Kernel

/-- No process has the number, or one whose end has been reported. -/
def IsGone (k : Kernel) (pid : Int) : Prop := ∀ p ∈ k.processes, p.pid = pid → p.state = .gone

variable {k : Kernel} {pid : Int}

theorem IsGone.setState (hgone : k.IsGone pid) {q : Int} {state : ChildState}
    (hq : q = pid → state = .gone) : (k.setState q state).IsGone pid := by
  intro p hp hpid
  obtain ⟨p', hp', rfl⟩ := List.mem_map.1 hp
  by_cases hsame : p'.pid = q
  · rw [if_pos hsame] at hpid ⊢
    exact hq (hsame.symm.trans hpid)
  · rw [if_neg hsame] at hpid ⊢
    exact hgone p' hp' hpid

/-- The process found by a number that is gone is gone. -/
theorem IsGone.of_find? (hgone : k.IsGone pid) {p : Process} (hfound : k.find? pid = some p) :
    p.state = .gone :=
  hgone p (List.mem_of_find?_eq_some hfound) (by simpa using List.find?_some hfound)

/-- A signal does not bring a process back. -/
theorem IsGone.kill (hgone : k.IsGone pid) (now : Nat) (q : Int) (signal : Nat) :
    (k.kill now q signal).2.IsGone pid := by
  unfold Kernel.kill
  split
  · exact hgone
  · rename_i p hfound
    -- Only a process that is not gone changes, so it is another one.
    have hne : p.state ≠ .gone → q ≠ pid := by
      rintro hstate rfl
      exact hstate (hgone.of_find? hfound)
    have hpass : (kill.passOver k signal p).2.IsGone pid := by
      unfold kill.passOver
      split <;> exact hgone
    have hdeliver : p.state ≠ .gone → (kill.deliver k now q signal p).2.IsGone pid := by
      intro hstate
      have hother : ∀ state, (k.setState q state).IsGone pid :=
        fun state => hgone.setState fun hq => absurd hq (hne hstate)
      unfold kill.deliver
      split
      · split
        · exact hother _
        · exact hgone
        · exact hother _
        · exact hother _
        · exact hgone
      · exact hother _
    split
    · exact hgone
    · exact hgone
    · exact hpass
    · exact hpass
    · rename_i hstate
      split
      · exact hgone.setState fun hq => absurd hq (hne (by simp [hstate]))
      · exact hpass
    · rename_i hstate
      exact hdeliver (by simp [hstate])
    · rename_i hstate
      exact hdeliver (by simp [hstate])

/-- A wait does not bring a process back. -/
theorem IsGone.poll (hgone : k.IsGone pid) (now : Nat) (q : Int) : (k.poll now q).2.IsGone pid := by
  have hreported : (k.setState q .gone).IsGone pid := hgone.setState fun _ => rfl
  unfold Kernel.poll
  split
  · exact hgone
  · split
    · exact hgone
    · split
      · exact hreported
      · exact hgone
    · exact hreported
    · exact hreported
    · exact hgone
    · exact hgone
    · exact hgone

/-- A process that is gone does not answer that it is alive. -/
theorem IsGone.poll_ne (hgone : k.IsGone pid) (now : Nat) :
    (k.poll now pid).1 ≠ .stillAlive := by
  unfold Kernel.poll
  split
  · simp
  · rename_i p hfound
    rw [hgone.of_find? hfound]
    simp

end Kernel

namespace ChildList

/-! ## Stopping children -/

section

variable (w : World) (pids : List Int)

theorem signals_signalAll :
    (signalAll w pids).2.signals = w.signals ++ pids.map fun pid => (pid, Kernel.sigTerm) := by
  induction pids generalizing w with
  | nil => simp [signalAll]
  | cons pid rest ih =>
    have hrest := ih (w.kill pid Kernel.sigTerm).2
    rw [World.signals_kill] at hrest
    unfold signalAll
    simp only
    split <;> simpa using hrest

theorem signalAll_sublist : (signalAll w pids).1.Sublist pids := by
  induction pids generalizing w with
  | nil => exact List.Sublist.refl []
  | cons pid rest ih =>
    have hrest := ih (w.kill pid Kernel.sigTerm).2
    unfold signalAll
    simp only
    split
    · exact hrest.cons_cons pid
    · exact hrest.cons pid

theorem signals_stillAlive : (stillAlive w pids).2.signals = w.signals := by
  induction pids generalizing w with
  | nil => rfl
  | cons pid rest ih =>
    have hrest := ih (w.poll pid).2
    unfold stillAlive
    simp only
    split <;> exact hrest

theorem stillAlive_sublist : (stillAlive w pids).1.Sublist pids := by
  induction pids generalizing w with
  | nil => exact List.Sublist.refl []
  | cons pid rest ih =>
    have hrest := ih (w.poll pid).2
    unfold stillAlive
    simp only
    split
    · exact hrest.cons_cons pid
    · exact hrest.cons pid

theorem signals_killAll :
    (killAll w pids).signals = w.signals ++ pids.map fun pid => (pid, Kernel.sigKill) := by
  induction pids generalizing w with
  | nil => simp [killAll]
  | cons pid rest ih =>
    rw [killAll, ih]
    have hwait : ∀ v : World, (v.wait pid).signals = v.signals := fun v => rfl
    rw [hwait, World.signals_kill, World.signals_warn]
    simp

end

section

variable {w : World} {pid : Int}

theorem isGone_signalAll (hgone : w.kernel.IsGone pid) (pids : List Int) :
    (signalAll w pids).2.kernel.IsGone pid := by
  induction pids generalizing w with
  | nil => exact hgone
  | cons q rest ih =>
    have hrest : (signalAll (w.kill q Kernel.sigTerm).2 rest).2.kernel.IsGone pid :=
      ih (hgone.kill w.clock q Kernel.sigTerm)
    unfold signalAll
    simp only
    split <;> exact hrest

theorem isGone_stillAlive (hgone : w.kernel.IsGone pid) (pids : List Int) :
    (stillAlive w pids).2.kernel.IsGone pid ∧ pid ∉ (stillAlive w pids).1 := by
  induction pids generalizing w with
  | nil => exact ⟨hgone, List.not_mem_nil⟩
  | cons q rest ih =>
    obtain ⟨hrest, hmem⟩ := ih (w := (w.poll q).2) (hgone.poll w.clock q)
    unfold stillAlive
    simp only
    split
    · rename_i halive
      refine ⟨hrest, ?_⟩
      intro hpid
      rcases List.mem_cons.1 hpid with rfl | hpid
      · exact hgone.poll_ne w.clock halive
      · exact hmem hpid
    · exact ⟨hrest, hmem⟩

end

theorem signals_awaitEnds (deadline fuel : Nat) (w : World) (pids : List Int) :
    (awaitEnds deadline fuel w pids).2.signals = w.signals := by
  induction fuel generalizing w pids with
  | zero => exact signals_stillAlive w pids
  | succ fuel ih =>
    have hlook := signals_stillAlive w pids
    unfold awaitEnds
    simp only
    split
    · exact hlook
    · exact (ih _ _).trans hlook

theorem awaitEnds_sublist (deadline fuel : Nat) (w : World) (pids : List Int) :
    (awaitEnds deadline fuel w pids).1.Sublist pids := by
  induction fuel generalizing w pids with
  | zero => exact stillAlive_sublist w pids
  | succ fuel ih =>
    have hlook := stillAlive_sublist w pids
    unfold awaitEnds
    simp only
    split
    · exact hlook
    · exact (ih _ _).trans hlook

/-- Nobody waits in vain for a process that is gone. -/
theorem not_mem_awaitEnds {w : World} {pid : Int} (hgone : w.kernel.IsGone pid)
    (deadline fuel : Nat) (pids : List Int) : pid ∉ (awaitEnds deadline fuel w pids).1 := by
  induction fuel generalizing w pids with
  | zero => exact (isGone_stillAlive hgone pids).2
  | succ fuel ih =>
    -- After each look it is off the list of those that are waited for.
    have hlook := isGone_stillAlive hgone pids
    unfold awaitEnds
    simp only
    split
    · exact hlook.2
    · exact ih (w := World.sleep _ pollInterval) hlook.1 _

/-- Stopping children asks each of them to end, and ends by force some that are not gone. -/
theorem signals_terminateAll (list : ChildList) (grace : Nat) (w : World) :
    ∃ forced : List Int, (terminateAll list grace w).signals =
        w.signals ++ ((list.pids.map fun pid => (pid, Kernel.sigTerm)) ++
          forced.map fun pid => (pid, Kernel.sigKill)) ∧
      forced.Sublist list.pids ∧ ∀ pid ∈ forced, ¬w.kernel.IsGone pid := by
  rcases hask : signalAll w list.pids with ⟨asked, w'⟩
  rcases hwait : awaitEnds (w'.clock + grace) (grace / pollInterval + 1) w' asked with ⟨forced, v⟩
  have hsignals := signals_signalAll w list.pids
  have hasked := signalAll_sublist w list.pids
  rw [hask] at hsignals hasked
  refine ⟨forced, ?_, ?_, ?_⟩
  · have hkept := signals_awaitEnds (w'.clock + grace) (grace / pollInterval + 1) w' asked
    rw [hwait] at hkept
    simp only [terminateAll, hask, hwait]
    rw [signals_killAll, hkept, hsignals, List.append_assoc]
  · have hforced := awaitEnds_sublist (w'.clock + grace) (grace / pollInterval + 1) w' asked
    rw [hwait] at hforced
    exact hforced.trans hasked
  · intro pid hpid hgone
    have hstill := isGone_signalAll hgone list.pids
    rw [hask] at hstill
    have hnone := not_mem_awaitEnds hstill (w'.clock + grace) (grace / pollInterval + 1) asked
    rw [hwait] at hnone
    exact hnone hpid

theorem mem_signals {pids : List Int} {pid : Int} {signal sent : Nat} :
    (pid, signal) ∈ (pids.map fun pid => (pid, sent)) ↔ signal = sent ∧ pid ∈ pids := by
  constructor
  · intro hmem
    obtain ⟨q, hq, heq⟩ := List.mem_map.1 hmem
    obtain ⟨rfl, rfl⟩ := Prod.mk.inj heq
    exact ⟨rfl, hq⟩
  · rintro ⟨rfl, hmem⟩
    exact List.mem_map.2 ⟨pid, hmem, rfl⟩

/-! ## What a history says of the signals -/

/-- Whether the status was collected of the child that got a number last. -/
def isCollected (pid : Int) : List Note → Bool
  | [] => false
  | .started p _ _ :: past => if p = pid then false else isCollected pid past
  | .ended _ _ :: past => isCollected pid past
  | .lost _ :: past => isCollected pid past
  | .collected p _ :: past => if p = pid then true else isCollected pid past
  | .called _ _ _ _ :: past => isCollected pid past
  | .released :: past => isCollected pid past

variable {list : ChildList} {processes : List Process} {h : List Note} {pid : Int}

/-- A watched child whose status was collected waits for its call. -/
theorem Lawful.pending_of_collected (hl : Lawful h) (hwatched : watched? pid h ≠ none)
    (hcollected : isCollected pid h = true) : pid ∈ pendingPids h := by
  induction hl with
  | init => cases hcollected
  | start hl p callback attached hnew ih =>
    rw [isCollected] at hcollected
    rw [watched?] at hwatched
    split at hcollected
    · cases hcollected
    · rename_i hne
      rw [if_neg hne] at hwatched
      exact ih hwatched hcollected
  | finish hl p how hproper hrunning ih => exact ih hwatched hcollected
  | lose hl p hother ih => exact ih hwatched hcollected
  | @collect h hl p how hwatched' hend hnew ih =>
    rw [pendingPids_collected, List.mem_append, List.mem_singleton]
    rw [isCollected] at hcollected
    split at hcollected
    · rename_i hpid
      exact .inr hpid.symm
    · exact .inl (ih hwatched hcollected)
  | @call h hl p stat rest callback attached hpending hwatched' ih =>
    rw [watched?] at hwatched
    split at hwatched
    · exact absurd rfl hwatched
    · rename_i hne
      have hmem := ih hwatched hcollected
      rw [pendingPids, hpending, List.map_cons, List.mem_cons] at hmem
      rw [pendingPids, pending, hpending]
      exact hmem.resolve_left fun hpid => hne hpid.symm
  | release hl ih => exact absurd rfl hwatched

/-- A child that waits for its call is gone. -/
theorem Kept.gone (hk : Kept list processes h) (hl : Lawful h) (hpending : pid ∈ pendingPids h) :
    ∀ p ∈ processes, p.pid = pid → p.state = .gone := by
  rintro p hp rfl
  obtain ⟨q, hq, hpid⟩ := List.mem_map.1 hpending
  have hwatched : watched? p.pid h ≠ none := hpid ▸ hl.watched_of_pending hq
  have hstands := hk.standing p hp hwatched
  generalize p.state = state at hstands
  cases hstands with
  | alive _ hend => exact absurd hpending (hl.not_pending hend)
  | ended _ _ hnew => exact absurd hpending hnew
  | collected _ => rfl

/-- The signals that are sent when the children of a history are watched no more. -/
structure Dismissed (past : List Note) (sent : List (Int × Nat)) : Prop where
  /-- The watched children are asked to end, and only they. -/
  asked : ∀ pid, (pid, Kernel.sigTerm) ∈ sent ↔ watched? pid past ≠ none
  /-- No child is asked twice, and none is ended by force twice. -/
  once : sent.Nodup
  /-- Only a child that was asked is ended by force, and none of which the status was collected. -/
  forced : ∀ pid, (pid, Kernel.sigKill) ∈ sent →
    watched? pid past ≠ none ∧ isCollected pid past = false
  /-- A child of which the status was collected is asked only if that is still to be passed on. -/
  waiting : ∀ pid, (pid, Kernel.sigTerm) ∈ sent → isCollected pid past = true →
    ∃ status, (pid, status) ∈ pending past
  /-- Other signals are not sent. -/
  signals : ∀ p ∈ sent, p.2 = Kernel.sigTerm ∨ p.2 = Kernel.sigKill

/-- The children of a history are dismissed as they should be. -/
theorem Kept.dismiss {w : World} (hk : Kept list w.kernel.processes h) (hl : Lawful h)
    (grace : Nat) :
    ∃ sent, (terminateAll list grace w).signals = w.signals ++ sent ∧ Dismissed h sent := by
  obtain ⟨forced, hsignals, hforced, halive⟩ := signals_terminateAll list grace w
  have hdiffer : Kernel.sigTerm ≠ Kernel.sigKill := by decide
  have hasked : ∀ pid, (pid, Kernel.sigTerm) ∈ (list.pids.map fun pid => (pid, Kernel.sigTerm)) ++
      (forced.map fun pid => (pid, Kernel.sigKill)) ↔ watched? pid h ≠ none := by
    intro pid
    rw [List.mem_append, mem_signals, mem_signals, ← hk.mem_pids_iff]
    constructor
    · rintro (⟨-, hmem⟩ | ⟨heq, -⟩)
      · exact hmem
      · exact absurd heq hdiffer
    · intro hmem
      exact .inl ⟨rfl, hmem⟩
  refine ⟨_, hsignals, hasked, ?_, ?_, ?_, ?_⟩
  · have hmark : ∀ signal : Nat, Function.Injective fun pid : Int => (pid, signal) := by
      intro signal p q heq
      exact congrArg Prod.fst heq
    rw [List.nodup_append]
    refine ⟨hk.nodup.map (hmark _), (hk.nodup.sublist hforced).map (hmark _), ?_⟩
    rintro ⟨pid, signal⟩ hp q hq rfl
    exact hdiffer ((mem_signals.1 hp).1.symm.trans (mem_signals.1 hq).1)
  · intro pid hmem
    rw [List.mem_append, mem_signals, mem_signals] at hmem
    have hpid : pid ∈ forced := by
      rcases hmem with ⟨heq, -⟩ | ⟨-, hpid⟩
      · exact absurd heq.symm hdiffer
      · exact hpid
    have hwatched := hk.mem_pids_iff.1 (hforced.mem hpid)
    refine ⟨hwatched, ?_⟩
    by_contra hcollected
    have hpending := hl.pending_of_collected hwatched (by simpa using hcollected)
    exact halive pid hpid (hk.gone hl hpending)
  · intro pid hmem hcollected
    have hpending := hl.pending_of_collected ((hasked pid).1 hmem) hcollected
    obtain ⟨⟨q, status⟩, hq, rfl⟩ := List.mem_map.1 hpending
    exact ⟨status, hq⟩
  · rintro ⟨pid, signal⟩ hp
    rw [List.mem_append, mem_signals, mem_signals] at hp
    rcases hp with ⟨heq, -⟩ | ⟨heq, -⟩
    · exact .inl heq
    · exact .inr heq

end ChildList
end ScriptService
