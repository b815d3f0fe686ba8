import ScriptService.World.Basic

/-!
# Processes one by one

Signals and waits concern one process at a time: what they do to it and what they answer depends on
this process alone, and all others stay as they are.

Main statements: `Kernel.find?_kill_sigTerm`, `Kernel.find?_kill_sigKill` and `Kernel.find?_poll`.
-/

namespace ScriptService

/-! ## One process -/

namespace Process

/-- Whether there is a process: its end was not taken by anybody, and a signal finds it. -/
def isThere (p : Process) : Bool :=
  p.state ≠ .gone ∧ p.state ≠ .lost ∧ p.onTerminate ≠ .unreachable

/-- The process after a termination signal at a time. -/
def asked (now : Nat) (p : Process) : Process :=
  if p.state = .running ∨ p.state = .interrupted then
    match p.onTerminate with
    | .dies => { p with state := .signaled Kernel.sigTerm }
    | .diesAfter delay => { p with state := .ending (now + delay) }
    | .lingers delay => { p with state := .ending (now + delay) }
    | .ignores => p
    | .unreachable => p
  else p

/-- The process after a signal at a time that cannot be ignored. -/
def forced (now : Nat) (p : Process) : Process :=
  match p.state with
  | .running => { p with state := .signaled Kernel.sigKill }
  | .interrupted => { p with state := .signaled Kernel.sigKill }
  | .ending time => if p.canHasten now time then { p with state := .signaled Kernel.sigKill } else p
  | _ => p

/-- What a wait for the process answers that does not block. -/
def answer (now : Nat) (p : Process) : WaitAnswer :=
  match p.state with
  | .running => .stillAlive
  | .ending time => if time ≤ now then .ended (.signaled Kernel.sigTerm) else .stillAlive
  | .exited code => .ended (.exited code)
  | .signaled signal => .ended (.signaled signal)
  | .lost => .failed .noChild
  | .interrupted => .failed .interrupted
  | .gone => .failed .noChild

/-- The process after a wait: gone if its end was reported. -/
def looked (now : Nat) (p : Process) : Process :=
  match p.answer now with
  | .ended _ => { p with state := .gone }
  | _ => p

/-- Whether a wait for the process does not report its end yet, but will. -/
def IsRunning (p : Process) : Prop := p.state = .running ∨ ∃ time, p.state = .ending time

/-- Whether a wait for the process reports its end, now or once it has ended. -/
def IsWaitable (p : Process) : Prop :=
  p.state ≠ .gone ∧ p.state ≠ .lost ∧ p.state ≠ .interrupted

/-- Whether the process goes on after a termination signal, and waits for it are interrupted. -/
def IsStuck (p : Process) : Prop := p.state = .interrupted ∧ p.onTerminate = .ignores

variable {p : Process} {now : Nat}

theorem IsRunning.isWaitable (h : p.IsRunning) : p.IsWaitable := by
  unfold IsWaitable
  rcases h with h | ⟨time, h⟩ <;> simp [h]

/-- A process that is asked to end ends sometime, or goes on until it is forced. -/
theorem isWaitable_asked (hthere : p.isThere = true) (hstuck : ¬p.IsStuck) :
    (p.asked now).IsWaitable := by
  obtain ⟨hgone, hlost, hreachable⟩ := of_decide_eq_true hthere
  unfold asked
  split
  · rename_i hstate
    cases hterm : p.onTerminate with
    | dies => exact ⟨nofun, nofun, nofun⟩
    | diesAfter delay | lingers delay => exact ⟨nofun, nofun, nofun⟩
    | ignores => exact ⟨hgone, hlost, fun h => hstuck ⟨h, hterm⟩⟩
    | unreachable => exact absurd hterm hreachable
  · rename_i hstate
    exact ⟨hgone, hlost, fun h => hstate (.inr h)⟩

theorem isThere_asked (now : Nat) (p : Process) : (p.asked now).isThere = p.isThere := by
  unfold asked
  split
  · rename_i hstate
    cases hterm : p.onTerminate with
    | dies | diesAfter | lingers => rcases hstate with h | h <;> simp [isThere, h, hterm]
    | ignores | unreachable => rfl
  · rfl

theorem isRunning_of_answer (h : p.answer now = .stillAlive) : p.IsRunning := by
  unfold answer at h
  split at h
  · exact .inl ‹_›
  · exact .inr ⟨_, ‹_›⟩
  all_goals cases h

theorem IsWaitable.answer (h : p.IsWaitable) (now : Nat) :
    p.answer now = .stillAlive ∨ ∃ how, p.answer now = .ended how := by
  obtain ⟨hgone, hlost, hinterrupted⟩ := h
  unfold Process.answer
  split
  · exact .inl rfl
  · split
    · exact .inr ⟨_, rfl⟩
    · exact .inl rfl
  · exact .inr ⟨_, rfl⟩
  · exact .inr ⟨_, rfl⟩
  · exact absurd ‹_› hlost
  · exact absurd ‹_› hinterrupted
  · exact absurd ‹_› hgone

/-- A wait only fails to find a process if somebody has taken its end. -/
theorem answer_ne_noChild (hgone : p.state ≠ .gone) (hlost : p.state ≠ .lost) :
    p.answer now ≠ .failed .noChild := by
  unfold Process.answer
  split
  case h_2 => split <;> simp
  all_goals simp_all

/-! ### When a process becomes gone -/

theorem asked_gone_iff : (p.asked now).state = .gone ↔ p.state = .gone := by
  unfold asked
  split
  · rename_i hstate
    cases p.onTerminate with
    | dies | diesAfter | lingers => rcases hstate with h | h <;> simp [h]
    | ignores | unreachable => rfl
  · rfl

theorem forced_gone_iff : (p.forced now).state = .gone ↔ p.state = .gone := by
  unfold forced
  split
  case h_3 => split <;> simp_all
  all_goals simp_all

/-- A wait that reports the end of a process leaves it gone, and no other wait does. -/
theorem looked_gone_iff :
    (p.looked now).state = .gone ↔ p.state = .gone ∨ ∃ how, p.answer now = .ended how := by
  unfold looked
  split
  · rename_i how hanswer
    exact ⟨fun _ => .inr ⟨how, hanswer⟩, fun _ => rfl⟩
  · rename_i hother
    exact ⟨.inl, fun h => h.resolve_right fun ⟨how, hanswer⟩ => hother how hanswer⟩

/-- The end of a process that is gone is not reported again. -/
theorem answer_of_gone (h : p.state = .gone) : p.answer now = .failed .noChild := by
  rw [answer, h]

theorem looked_of_stillAlive (h : p.answer now = .stillAlive) : p.looked now = p := by
  rw [looked, h]

end Process

/-! ## What signals and waits do -/

namespace Kernel

/-- Whether there is a process of a number. -/
def hasProcess (k : Kernel) (pid : Int) : Bool := (k.find? pid).any Process.isThere

/-- The processes found after one of them was changed. -/
def Changed (k next : Kernel) (pid : Int) (f : Process → Process) : Prop :=
  ∀ q, next.find? q = (k.find? q).map fun p => if q = pid then f p else p

variable {k : Kernel} {pid : Int} {p : Process}

theorem find?_setState (k : Kernel) (pid : Int) (state : ChildState) :
    k.Changed (k.setState pid state) pid fun p => { p with state } := by
  intro q
  unfold find? setState
  rw [List.find?_map]
  have hpid : ((fun p : Process => p.pid == q) ∘ fun p : Process =>
      if p.pid = pid then { p with state } else p) = fun p => p.pid == q := by
    funext p
    show ((if p.pid = pid then { p with state } else p : Process).pid == q) = _
    split <;> rfl
  rw [hpid]
  cases hfound : k.processes.find? fun p => p.pid == q with
  | none => rfl
  | some p =>
    have hq : p.pid = q := by simpa using List.find?_some hfound
    subst hq
    rfl

theorem Changed.of_fixed (h : k.find? pid = some p) {f : Process → Process} (hfixed : f p = p) :
    k.Changed k pid f := by
  intro q
  by_cases hq : q = pid
  · subst hq
    rw [h, Option.map_some, if_pos rfl, hfixed]
  · simp [hq]

theorem Changed.of_none (h : k.find? pid = none) (f : Process → Process) : k.Changed k pid f := by
  intro q
  by_cases hq : q = pid
  · subst hq
    rw [h, Option.map_none]
  · simp [hq]

theorem Changed.of_ne {next : Kernel} {f : Process → Process} (h : k.Changed next pid f) {q : Int}
    (hne : q ≠ pid) : next.find? q = k.find? q := by
  rw [h q]
  simp [hne]

/-- The processes found after several of them were changed. -/
def ChangedAll (k next : Kernel) (pids : List Int) (f : Process → Process) : Prop :=
  ∀ q, next.find? q = (k.find? q).map fun p => if q ∈ pids then f p else p

theorem ChangedAll.nil (k : Kernel) (f : Process → Process) : k.ChangedAll k [] f := by
  intro q
  simp

/-- The first one is changed, and then the others. -/
theorem Changed.cons {mid next : Kernel} {pids : List Int} {f : Process → Process}
    (h : k.Changed mid pid f) (hnew : pid ∉ pids) (hrest : mid.ChangedAll next pids f) :
    k.ChangedAll next (pid :: pids) f := by
  intro q
  rw [hrest q, h q, Option.map_map]
  refine congrArg (Option.map · (k.find? q)) (funext fun p => ?_)
  by_cases hq : q = pid
  · subst hq
    simp [hnew]
  · simp [hq]

theorem ChangedAll.of_not_mem {next : Kernel} {pids : List Int} {f : Process → Process}
    (h : k.ChangedAll next pids f) {q : Int} (hq : q ∉ pids) : next.find? q = k.find? q := by
  rw [h q]
  simp [hq]

theorem ChangedAll.of_mem {next : Kernel} {pids : List Int} {f : Process → Process}
    (h : k.ChangedAll next pids f) (hmem : pid ∈ pids) (hp : k.find? pid = some p) :
    next.find? pid = some (f p) := by
  rw [h pid, hp, Option.map_some, if_pos hmem]

/-- Only what becomes of the process that is found matters. -/
theorem Changed.congr {next : Kernel} {f g : Process → Process} (hchanged : k.Changed next pid f)
    (hp : k.find? pid = some p) (hfg : f p = g p) : k.Changed next pid g := by
  intro q
  rw [hchanged q]
  by_cases hq : q = pid
  · subst hq
    rw [hp, Option.map_some, Option.map_some, if_pos rfl, if_pos rfl, hfg]
  · simp [hq]

/-- A signal passes over a process that has ended. -/
theorem passOver_sigTerm (k : Kernel) (p : Process) :
    (kill.passOver k sigTerm p).1.isOk = decide (p.onTerminate ≠ .unreachable) ∧
      (kill.passOver k sigTerm p).2 = k := by
  unfold kill.passOver
  by_cases hterm : p.onTerminate = .unreachable
  · rw [if_pos ⟨rfl, hterm⟩, hterm]
    exact ⟨rfl, rfl⟩
  · rw [if_neg fun h => hterm h.2]
    exact ⟨(decide_eq_true hterm).symm, rfl⟩

theorem deliver_sigTerm (now : Nat) (hp : k.find? pid = some p)
    (hstate : p.state = .running ∨ p.state = .interrupted) :
    (kill.deliver k now pid sigTerm p).1.isOk = decide (p.onTerminate ≠ .unreachable) ∧
      k.Changed (kill.deliver k now pid sigTerm p).2 pid (Process.asked now) := by
  unfold kill.deliver
  rw [if_pos rfl]
  have hset := fun state => find?_setState k pid state
  cases hterm : p.onTerminate with
  | dies =>
    refine ⟨rfl, (hset _).congr hp ?_⟩
    rw [Process.asked, if_pos hstate, hterm]
  | ignores =>
    refine ⟨rfl, .of_fixed hp ?_⟩
    rw [Process.asked, if_pos hstate, hterm]
  | diesAfter delay | lingers delay =>
    refine ⟨rfl, (hset _).congr hp ?_⟩
    rw [Process.asked, if_pos hstate, hterm]
  | unreachable =>
    refine ⟨rfl, .of_fixed hp ?_⟩
    rw [Process.asked, if_pos hstate, hterm]

/-- A termination signal is taken if there is a process, which is the only one that it changes. -/
theorem find?_kill_sigTerm (k : Kernel) (now : Nat) (pid : Int) :
    (k.kill now pid sigTerm).1.isOk = k.hasProcess pid ∧
      k.Changed (k.kill now pid sigTerm).2 pid (Process.asked now) := by
  unfold kill hasProcess
  cases hp : k.find? pid with
  | none => exact ⟨rfl, .of_none hp _⟩
  | some p =>
    rw [Option.any_some, Process.isThere]
    obtain ⟨htaken, hsame⟩ := passOver_sigTerm k p
    cases hstate : p.state with
    | running =>
      simpa [hstate] using deliver_sigTerm now hp (.inl hstate)
    | interrupted =>
      simpa [hstate] using deliver_sigTerm now hp (.inr hstate)
    | gone | lost => exact ⟨by simp [hstate, Except.isOk, Except.toBool],
        by simpa [hstate] using .of_fixed hp (if_neg (by simp [hstate]))⟩
    | ending =>
      have hfixed : p.asked now = p := if_neg (by simp [hstate])
      simp only [hstate, if_neg fun h : sigTerm = sigKill ∧ _ => absurd h.1 (by decide), hsame,
        htaken]
      exact ⟨by simp, .of_fixed hp hfixed⟩
    | exited | signaled =>
      have hfixed : p.asked now = p := if_neg (by simp [hstate])
      simp only [hstate, hsame, htaken]
      exact ⟨by simp, .of_fixed hp hfixed⟩

theorem find?_kill_sigKill (k : Kernel) (now : Nat) (pid : Int) :
    k.Changed (k.kill now pid sigKill).2 pid (Process.forced now) := by
  unfold kill
  cases hp : k.find? pid with
  | none => exact .of_none hp _
  | some p =>
    -- It is killed if it has not ended, and the signal passes over it otherwise.
    have hkilled : p.forced now = { p with state := .signaled sigKill } →
        k.Changed (k.setState pid (.signaled sigKill)) pid (Process.forced now) :=
      fun hforced => (find?_setState k pid _).congr hp hforced.symm
    have hpass : (kill.passOver k sigKill p).2 = k := by
      unfold kill.passOver
      split <;> rfl
    cases hstate : p.state with
    | running | interrupted =>
      simp only [hstate]
      exact hkilled (by rw [Process.forced, hstate])
    | ending time =>
      simp only [hstate, true_and]
      by_cases hhasten : p.canHasten now time = true
      · rw [if_pos hhasten]
        exact hkilled (by simp only [Process.forced, hstate, if_pos hhasten])
      · rw [if_neg hhasten, hpass]
        exact .of_fixed hp (by simp only [Process.forced, hstate, if_neg hhasten])
    | gone | lost =>
      simp only [hstate]
      exact .of_fixed hp (by rw [Process.forced, hstate])
    | exited | signaled =>
      simp only [hstate, hpass]
      exact .of_fixed hp (by rw [Process.forced, hstate])

/-- A wait that does not block is answered for the process alone, and takes its end if it has ended;
if there is no process, the wait fails. -/
theorem find?_poll (k : Kernel) (now : Nat) (pid : Int) :
    (k.poll now pid).1 = ((k.find? pid).map (Process.answer now)).getD (.failed .noChild) ∧
      k.Changed (k.poll now pid).2 pid (Process.looked now) := by
  unfold poll
  cases hp : k.find? pid with
  | none => exact ⟨rfl, .of_none hp _⟩
  | some p =>
    -- Either the end is reported and taken, or nothing changes.
    have hends : ∀ {how : ChildEnd}, p.answer now = .ended how →
        .ended how = p.answer now ∧ k.Changed (k.setState pid .gone) pid (Process.looked now) := by
      intro how hanswer
      refine ⟨hanswer.symm, (find?_setState k pid _).congr hp ?_⟩
      rw [Process.looked, hanswer]
    have hstays : ∀ {answer : WaitAnswer}, p.answer now = answer → (∀ how, answer ≠ .ended how) →
        answer = p.answer now ∧ k.Changed k pid (Process.looked now) := by
      intro answer hanswer hother
      refine ⟨hanswer.symm, .of_fixed hp ?_⟩
      rw [Process.looked]
      split
      · rename_i how heq
        exact absurd (hanswer.symm.trans heq) (hother how)
      · rfl
    rw [Option.map_some, Option.getD_some]
    cases hstate : p.state with
    | ending time =>
      simp only [hstate]
      by_cases hdue : time ≤ now
      · rw [if_pos hdue]
        exact hends (by simp only [Process.answer, hstate, if_pos hdue])
      · rw [if_neg hdue]
        exact hstays (by simp only [Process.answer, hstate, if_neg hdue]) nofun
    | exited | signaled =>
      simp only [hstate]
      exact hends (by simp only [Process.answer, hstate])
    | running | lost | interrupted | gone =>
      simp only [hstate]
      exact hstays (by simp only [Process.answer, hstate]) nofun

/-- Once a process is forced, a wait for it comes back with its end. -/
theorem answer_waitUntil {now : Nat} (hp : k.find? pid = some (p.forced now))
    (hrunning : p.IsRunning) (later : Nat) :
    ∃ how, (p.forced now).answer (k.waitUntil later pid) = .ended how := by
  have hkilled : (p.forced now).state = .signaled sigKill →
      ∃ how, (p.forced now).answer (k.waitUntil later pid) = .ended how :=
    fun hforced => ⟨.signaled sigKill, by rw [Process.answer, hforced]⟩
  rcases hrunning with hstate | ⟨time, hstate⟩
  · exact hkilled (by rw [Process.forced, hstate])
  · by_cases hhasten : p.canHasten now time = true
    · exact hkilled (by simp only [Process.forced, hstate, if_pos hhasten])
    · -- It has ended or cannot be hastened, and the wait lasts until it has ended.
      have hfixed : p.forced now = p := by simp only [Process.forced, hstate, if_neg hhasten]
      rw [hfixed] at hp ⊢
      have htime : time ≤ k.waitUntil later pid := by
        simp only [waitUntil, hp, hstate]
        exact Nat.le_max_right _ _
      exact ⟨.signaled sigTerm, by simp only [Process.answer, hstate, if_pos htime]⟩

end Kernel
end ScriptService
