import ScriptService.Child
import ScriptService.Log

/-!
# The clock

Only waiting moves the clock, and only forwards: what a script and its host do to children and logs
takes no time, but for the end of a host, which waits for its children.

Main statements: `ChildList.clock_reap` and `ChildList.clock_le_terminateAll`.
-/

namespace ScriptService

/-! ## Logs -/

namespace Logger

theorem clock_emit (l : Logger) (w : World) (severity : Severity) (text : String) :
    (l.emit w severity text).clock = w.clock := by
  unfold emit
  cases l.identity with
  | none => rfl
  | some identity =>
    simp only
    split <;> split <;> split <;> rfl

theorem clock_close (l : Logger) (w : World) : (l.close w).2.clock = w.clock := by
  unfold close
  simp only
  split <;> rfl

theorem clock_replace (l : Logger) (w : World) (d : LogDeclaration) :
    (l.replace w d).2.clock = w.clock := by
  unfold replace openOn
  simp only [clock_close]
  split <;> split <;> rfl

end Logger

/-! ## Children -/

theorem Child.clock_fork (w : World) (argv : List String) :
    (Child.fork w argv).2.clock = w.clock := by
  unfold Child.fork
  split <;> rfl

namespace ChildList

theorem clock_collect (w : World) (pid : Int) : (collect w pid).2.clock = w.clock := by
  unfold collect
  have hpoll : (w.poll pid).2.clock = w.clock := rfl
  rcases hanswer : w.poll pid with ⟨answer, next⟩
  rw [hanswer] at hpoll
  cases answer with
  | stillAlive => exact hpoll
  | ended how => exact hpoll
  | failed e =>
    cases e with
    | noChild => exact hpoll
    | _ => exact hpoll

theorem clock_reapAll (w : World) (pids : List Int) : (reapAll w pids).2.clock = w.clock := by
  induction pids generalizing w with
  | nil => rfl
  | cons pid rest ih => exact (ih _).trans (clock_collect w pid)

theorem clock_reap (list : ChildList) (w : World) : (reap list w).2.clock = w.clock :=
  clock_reapAll w list.pids

theorem clock_signalAll (w : World) (pids : List Int) : (signalAll w pids).2.clock = w.clock := by
  induction pids generalizing w with
  | nil => rfl
  | cons pid rest ih =>
    have hrest := ih (w.kill pid Kernel.sigTerm).2
    unfold signalAll
    rcases hkill : w.kill pid Kernel.sigTerm with ⟨result, next⟩
    rw [hkill] at hrest
    have hnext : next.clock = w.clock := by
      have hclock : (w.kill pid Kernel.sigTerm).2.clock = w.clock := rfl
      rwa [hkill] at hclock
    cases result with
    | ok _ => exact hrest.trans hnext
    | error e => exact hrest.trans hnext

theorem clock_stillAlive (w : World) (pids : List Int) : (stillAlive w pids).2.clock = w.clock := by
  induction pids generalizing w with
  | nil => rfl
  | cons pid rest ih =>
    have hrest := ih (w.poll pid).2
    unfold stillAlive
    rcases hpoll : w.poll pid with ⟨answer, next⟩
    rw [hpoll] at hrest
    have hnext : next.clock = w.clock := by
      have hclock : (w.poll pid).2.clock = w.clock := rfl
      rwa [hpoll] at hclock
    cases answer with
    | stillAlive => exact hrest.trans hnext
    | ended how => exact hrest.trans hnext
    | failed e => exact hrest.trans hnext

theorem clock_le_awaitEnds (deadline fuel : Nat) (w : World) (pids : List Int) :
    w.clock ≤ (awaitEnds deadline fuel w pids).2.clock := by
  induction fuel generalizing w pids with
  | zero => exact Nat.le_of_eq (clock_stillAlive w pids).symm
  | succ fuel ih =>
    unfold awaitEnds
    have hlook := clock_stillAlive w pids
    rcases halive : stillAlive w pids with ⟨running, next⟩
    rw [halive] at hlook
    simp only
    split
    · exact Nat.le_of_eq hlook.symm
    · refine Nat.le_trans ?_ (ih _ _)
      show w.clock ≤ next.clock + pollInterval
      rw [hlook]
      exact Nat.le_add_right _ _

theorem clock_le_killAll (w : World) (pids : List Int) : w.clock ≤ (killAll w pids).clock := by
  induction pids generalizing w with
  | nil => exact Nat.le_refl _
  | cons pid rest ih =>
    unfold killAll
    refine Nat.le_trans ?_ (ih _)
    -- A wait for a child comes back when the child has ended.
    show w.clock ≤ Kernel.waitUntil _ w.clock pid
    unfold Kernel.waitUntil
    split
    · split
      · exact Nat.le_max_left _ _
      · exact Nat.le_refl _
    · exact Nat.le_refl _

theorem clock_le_terminateAll (list : ChildList) (grace : Nat) (w : World) :
    w.clock ≤ (terminateAll list grace w).clock := by
  unfold terminateAll
  simp only
  calc w.clock = (signalAll w list.pids).2.clock := (clock_signalAll w list.pids).symm
    _ ≤ _ := clock_le_awaitEnds _ (grace / pollInterval + 1) _ _
    _ ≤ _ := clock_le_killAll _ _

end ChildList
end ScriptService
