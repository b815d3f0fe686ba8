import ScriptService.Proofs.Host.Operations

/-!
# The life of a host

Whatever operations a host is asked for, in whatever order and with whatever outcomes: its phase
goes one way, an operation out of its phase is refused and changes nothing, and a released host runs
no script code. The entry points of the script are begun by the operations that belong to them: the
top level once, `start` again only if every earlier `start` raised, `stop` by every shutdown.

Main statements: `Host.operations_orderly` and `Host.entries_begun`.
-/

namespace ScriptService

/-- The parts of a script that the host calls by itself. -/
inductive Entry where
  | top
  | start
  | stop
  deriving DecidableEq, Inhabited

/-- The entry point that a part is. -/
def Part.entry? : Part → Option Entry
  | .top => some .top
  | .start _ => some .start
  | .stop _ => some .stop
  | _ => none

theorem Part.entry?_of_dispatched {part : Part} (h : part.dispatched = true) :
    part.entry? = none := by
  cases part with
  | top => cases h
  | start f => cases h
  | stop f => cases h
  | _ => rfl

namespace HostRun

/-- Whether a note says that an entry point begins. -/
def Note.begins (e : Entry) : Note → Bool
  | .began part _ => part.entry? = some e
  | _ => false

/-- How often an entry point is begun. -/
def begun (e : Entry) (h : List Note) : Nat := h.countP (Note.begins e)

/-- Whether a note says that the top level or `start` ended with an exception. -/
def Note.crashes : Note → Bool
  | .ended part _ result => (part.entry? = some .top || part.entry? = some .start) && raised result
  | _ => false

/-- Whether a note says that `start` ended with an exception. -/
def Note.fails : Note → Bool
  | .ended part _ result => part.entry? = some .start && raised result
  | _ => false

/-- How often `start` ended with an exception. -/
def failures (h : List Note) : Nat := h.countP Note.fails

@[simp]
theorem failures_append (ns h : List Note) : failures (ns ++ h) = failures ns + failures h :=
  List.countP_append

@[simp]
theorem begun_append (e : Entry) (ns h : List Note) : begun e (ns ++ h) = begun e ns + begun e h :=
  List.countP_append

theorem begins_of_aside {n : Note} (h : n.Aside) (e : Entry) : n.begins e = false := by
  cases n with
  | began part time => simp [Note.begins, Part.entry?_of_dispatched (h part rfl)]
  | _ => rfl

theorem crashes_of_aside {n : Note} (h : n.Aside) : n.crashes = false := by
  cases n with
  | ended part time result => simp [Note.crashes, Part.entry?_of_dispatched (h part rfl)]
  | _ => rfl

theorem begun_of_aside {ns : List Note} (h : ∀ n ∈ ns, n.Aside) (e : Entry) : begun e ns = 0 := by
  rw [begun, List.countP_eq_zero]
  intro n hn
  simp [begins_of_aside (h n hn) e]

end HostRun

namespace Host

open HostRun (Note raised begun begun_append begun_of_aside begins_of_aside crashes_of_aside
  failures failures_append)

/-! ## Notes of a part -/

theorem code_aside (part : Part) (h : Host) :
    ∀ n ∈ part.code.notes Resources.natives Resources.seen h.machine, n.Aside :=
  fun n hn => Note.aside_of_silent (code_silent part h n hn)

theorem begun_partNotes (e : Entry) (h : Host) (part : Part) :
    begun e (h.partNotes part) = if part.entry? = some e then 1 else 0 := by
  have hcode := begun_of_aside (code_aside part h) e
  unfold begun at hcode ⊢
  simp [partNotes, List.countP_append, hcode, Note.begins]

/-- A part that runs crashes the script if it is an entry point that may not raise, and raises. -/
theorem crashes_partNotes (h : Host) (part : Part) :
    (h.partNotes part).any Note.crashes =
      ((part.entry? = some .top || part.entry? = some .start) && raised (part.run h).1) := by
  have hcode : (part.code.notes Resources.natives Resources.seen h.machine).any Note.crashes =
      false := by
    rw [List.any_eq_false]
    intro n hn
    simp [crashes_of_aside (code_aside part h n hn)]
  simp [partNotes, List.any_append, hcode, Note.crashes]

/-- A part notes one end, its own. -/
theorem ended_of_mem_partNotes {h : Host} {part other : Part} {time : Nat}
    {result : Except Fault Value} (hmem : .ended other time result ∈ h.partNotes part) :
    other = part ∧ result = (part.run h).1 := by
  rcases List.mem_cons.1 hmem with heq | hmem
  · cases heq
    exact ⟨rfl, rfl⟩
  · rcases List.mem_append.1 hmem with hcode | hbegan
    · rcases HostRun.code_notes part h _ hcode with heq | ⟨_, _, _, _, _, heq⟩
      · cases heq
      · cases heq
    · cases List.mem_singleton.1 hbegan

/-! ## Steps -/

section

variable {h g : Host} {op : Operation} {result : Except HostError Unit} {ns : List Note}

/-- The phase goes one way. -/
theorem Applies.rank_le (happlies : Applies h op result ns g) : h.phase.rank ≤ g.phase.rank := by
  cases happlies with
  | refused => exact Nat.le_refl _
  | unloaded => exact Nat.le_refl _
  | loaded _ _ hphase =>
    rw [hphase]
    exact Nat.zero_le _
  | executed _ _ hphase _ hg => rw [hphase, hg]; decide
  | unstarted => exact Nat.le_refl _
  | started f _ _ hphase _ hg =>
    rw [hphase, hg]
    split
    · decide
    · decide
  | ran _ _ _ hphase hg =>
    rcases hg with hg | hg
    · rw [hphase, hg]; decide
    · rw [hphase, hg]; decide
  | unstopped _ _ hphase hg => rw [hphase, hg]
  | stopped _ _ hphase _ hg => rw [hphase, hg]
  | released _ _ _ _ hg =>
    by_cases hphase : h.phase = .tornDown
    · rw [if_pos hphase] at hg
      rw [hg]
    · rw [if_neg hphase] at hg
      rw [hg.phase]
      cases h.phase with
      | _ => decide
  | waited _ _ _ hkeeps => rw [hkeeps.phase]

/-- A crash is noted, and is never forgotten. -/
theorem Applies.crashed (happlies : Applies h op result ns g) :
    g.crashed = (h.crashed || ns.any Note.crashes) := by
  have haside : (∀ n ∈ ns, n.Aside) → ns.any Note.crashes = false := by
    intro hns
    rw [List.any_eq_false]
    intro n hn
    simp [crashes_of_aside (hns n hn)]
  have hsilent : (∀ n ∈ ns, n.part? = none) → ns.any Note.crashes = false := fun hns =>
    haside fun n hn => Note.aside_of_silent (hns n hn)
  cases happlies with
  | refused => simp
  | unloaded => simp
  | loaded => simp [withScript]
  | executed _ _ _ _ _ hcrashed =>
    rw [hcrashed, topNotes, crashes_partNotes]
    rfl
  | unstarted => simp [Note.crashes]
  | started f _ _ _ _ _ hcrashed =>
    rw [hcrashed, List.any_append, crashes_partNotes]
    simp [Note.crashes, Part.entry?]
  | ran _ _ _ _ _ hcrashed hns => rw [hcrashed, haside hns, Bool.or_false]
  | unstopped _ _ _ _ hcrashed hns => rw [hcrashed, hsilent hns, Bool.or_false]
  | stopped f _ _ hsound _ hcrashed =>
    rw [hcrashed, hsound, List.any_append, crashes_partNotes]
    simp [Note.crashes, Part.entry?]
  | released _ _ _ _ _ hcrashed hns => rw [hcrashed, hsilent hns, Bool.or_false]
  | waited _ _ _ hkeeps hns => rw [hkeeps.crashed, hsilent hns, Bool.or_false]

/-- The operation that begins an entry point. -/
def Operation.entry? : Operation → Option Entry
  | .execute => some .top
  | .start => some .start
  | .shutdown => some .stop
  | _ => none

/-- An operation begins no entry point but its own, and its own in its own phase only. -/
theorem Applies.begun_le (happlies : Applies h op result ns g) (e : Entry) :
    begun e ns ≤ if op.entry? = some e ∧ (op.own?.map (·.1)) = some h.phase then 1 else 0 := by
  have haside : (∀ n ∈ ns, n.Aside) → begun e ns = 0 := fun hns => begun_of_aside hns e
  have hsilent : (∀ n ∈ ns, n.part? = none) → begun e ns = 0 := fun hns =>
    haside fun n hn => Note.aside_of_silent (hns n hn)
  cases happlies with
  | refused => exact Nat.zero_le _
  | unloaded => exact Nat.zero_le _
  | loaded => exact Nat.zero_le _
  | executed _ _ hphase =>
    rw [topNotes, begun_partNotes]
    simp [Operation.entry?, Operation.own?, hphase, Part.entry?]
  | unstarted => exact Nat.zero_le _
  | started f _ _ hphase =>
    rw [begun_append, begun_partNotes]
    simp [Operation.entry?, Operation.own?, hphase, Part.entry?, begun, Note.begins]
  | ran _ _ _ _ _ _ hns => rw [haside hns]; exact Nat.zero_le _
  | unstopped _ _ _ _ _ hns => rw [hsilent hns]; exact Nat.zero_le _
  | stopped f _ hphase =>
    rw [begun_append, begun_partNotes]
    simp [Operation.entry?, Operation.own?, hphase, Part.entry?, begun, Note.begins]
  | released _ _ _ _ _ _ hns => rw [hsilent hns]; exact Nat.zero_le _
  | waited _ _ _ _ hns => rw [hsilent hns]; exact Nat.zero_le _

/-- A script that crashed is not asked to stop. -/
theorem Applies.begun_stop (happlies : Applies h op result ns g) (hcrashed : h.crashed = true) :
    begun .stop ns = 0 := by
  have hbegun := happlies.begun_le .stop
  cases happlies with
  | unstopped _ _ _ _ _ hns =>
    exact begun_of_aside (fun n hn => Note.aside_of_silent (hns n hn)) .stop
  | stopped f _ _ hsound =>
    rw [hsound] at hcrashed
    cases hcrashed
  | refused => rfl
  | released _ _ _ _ _ _ hns =>
    exact begun_of_aside (fun n hn => Note.aside_of_silent (hns n hn)) .stop
  | _ => simpa [Operation.entry?] using hbegun

/-- An operation that lets `start` end leaves the phase behind unless `start` raised. -/
theorem Applies.start_raised (happlies : Applies h op result ns g) (hg : g.phase.rank ≤ 2)
    {f : Callback} {time : Nat} {ended : Except Fault Value}
    (hended : .ended (.start f) time ended ∈ ns) : raised ended = true := by
  have haside : ¬ Note.Aside (.ended (.start f) time ended) := fun h => by cases h (.start f) rfl
  cases happlies with
  | refused => cases hended
  | unloaded => cases hended
  | loaded => cases hended
  | executed => cases (ended_of_mem_partNotes hended).1
  | unstarted => cases List.mem_singleton.1 hended
  | started k _ _ hphase _ hnext =>
    rcases List.mem_append.1 hended with hended | hended
    · obtain ⟨heq, rfl⟩ := ended_of_mem_partNotes hended
      cases heq
      by_contra hreturned
      rw [hnext, if_neg hreturned] at hg
      exact absurd hg (by decide)
    · cases List.mem_singleton.1 hended
  | ran _ _ _ _ _ _ hns => exact absurd (hns _ hended) haside
  | unstopped _ _ _ _ _ hns => exact absurd (Note.aside_of_silent (hns _ hended)) haside
  | stopped k =>
    rcases List.mem_append.1 hended with hended | hended
    · cases (ended_of_mem_partNotes hended).1
    · cases List.mem_singleton.1 hended
  | released _ _ _ _ _ _ hns => exact absurd (Note.aside_of_silent (hns _ hended)) haside
  | waited _ _ _ _ hns => exact absurd (Note.aside_of_silent (hns _ hended)) haside

theorem Applies.begun_top (happlies : Applies h op result ns g) :
    begun .top ns = 0 ∨ begun .top ns ≤ 1 ∧ h.phase.rank < 2 ∧ 2 ≤ g.phase.rank := by
  have hbegun := happlies.begun_le .top
  by_cases hown : op.entry? = some .top ∧ (op.own?.map (·.1)) = some h.phase
  · rw [if_pos hown] at hbegun
    obtain ⟨hentry, hphase⟩ := hown
    cases op with
    | execute =>
      have hphase : h.phase = .compiled := (Option.some.inj hphase).symm
      cases happlies with
      | refused _ _ hown hother => exact .inl rfl
      | executed _ _ _ _ hg =>
        refine .inr ⟨hbegun, ?_, ?_⟩
        · rw [hphase]; decide
        · rw [hg]; decide
      | released _ _ _ hrelease => cases hrelease
    | _ => cases hentry
  · rw [if_neg hown] at hbegun
    exact .inl (Nat.le_zero.1 hbegun)

/-- A `start` is begun on the way to the phase behind it, or it raises. -/
theorem Applies.begun_start (happlies : Applies h op result ns g) :
    begun .start ns ≤ failures ns ∨
      begun .start ns ≤ 1 ∧ h.phase.rank ≤ 2 ∧ 2 < g.phase.rank := by
  have hbegun := happlies.begun_le .start
  by_cases hown : op.entry? = some .start ∧ (op.own?.map (·.1)) = some h.phase
  · rw [if_pos hown] at hbegun
    obtain ⟨hentry, -⟩ := hown
    cases op with
    | start =>
      cases happlies with
      | refused => exact .inl (Nat.zero_le _)
      | unstarted => exact .inl (Nat.zero_le _)
      | released _ _ _ hrelease => cases hrelease
      | started f _ _ hphase _ hg =>
        cases hraised : raised (Part.run (.start f) h).1 with
        | true =>
          -- The note of the end is the failure that makes up for the beginning.
          refine .inl (hbegun.trans ?_)
          exact List.countP_pos_iff.2 ⟨.ended (.start f) (Part.run (.start f) h).2.now
            (Part.run (.start f) h).1, by simp [partNotes], by simp [Note.fails, Part.entry?, hraised]⟩
        | false =>
          rw [hraised, if_neg (by simp)] at hg
          refine .inr ⟨hbegun, ?_, ?_⟩
          · rw [hphase]; decide
          · rw [hg]; decide
    | _ => cases hentry
  · rw [if_neg hown] at hbegun
    rw [Nat.le_zero.1 hbegun]
    exact .inl (Nat.zero_le _)

/-- A released host stays released and runs no script code. -/
theorem Applies.stays_released (happlies : Applies h op result ns g) (hr : h.Released) :
    g.Released ∧ ∀ n ∈ ns, n.part? = none := by
  have hphase := hr.phase
  cases happlies with
  | refused => exact ⟨hr, fun n hn => by cases hn⟩
  | unloaded => exact ⟨hr, fun n hn => by cases hn⟩
  | loaded _ _ hother => rw [hphase] at hother; cases hother
  | executed _ _ hother => rw [hphase] at hother; cases hother
  | unstarted _ _ hother => rw [hphase] at hother; cases hother
  | started _ _ _ hother => rw [hphase] at hother; cases hother
  | ran _ _ _ hother => rw [hphase] at hother; cases hother
  | unstopped _ _ hother => rw [hphase] at hother; cases hother
  | stopped _ _ hother => rw [hphase] at hother; cases hother
  | released _ _ _ _ hg _ hns =>
    rw [if_pos hphase] at hg
    rw [hg]
    exact ⟨hr, hns⟩
  | waited _ _ _ hkeeps hns => exact ⟨hr.keeps hkeeps, hns⟩

/-- Only the release ends in the last phase. -/
theorem Applies.ends_released (happlies : Applies h op result ns g) (hg : g.phase = .tornDown)
    (hr : h.phase = .tornDown → h.Released) : g.Released := by
  cases happlies with
  | refused => exact hr hg
  | unloaded => exact hr hg
  | loaded => cases hg
  | executed _ _ _ _ hother => rw [hg] at hother; cases hother
  | unstarted => exact hr hg
  | started f _ _ _ _ hother =>
    rw [hg] at hother
    split at hother
    · cases hother
    · cases hother
  | ran _ _ _ _ hother =>
    rw [hg] at hother
    rcases hother with hother | hother
    · cases hother
    · cases hother
  | unstopped _ _ _ hother => rw [hg] at hother; cases hother
  | stopped _ _ _ _ hother => rw [hg] at hother; cases hother
  | released _ _ _ _ hreleased =>
    by_cases hphase : h.phase = .tornDown
    · rw [if_pos hphase] at hreleased
      rw [hreleased]
      exact hr hphase
    · rwa [if_neg hphase] at hreleased
  | waited _ _ _ hkeeps => exact (hr (hkeeps.phase.symm.trans hg)).keeps hkeeps

end

/-! ## Runs -/

section

variable (h : Host) (ops : List Operation)

theorem run_applies (op : Operation) :
    Applies (operated.run h ops).1 op ((operated.run h ops).1.apply op).1
      (operated.notes (operated.run h ops).1 op) (operated.act (operated.run h ops).1 op) :=
  (operated.run h ops).1.applies op

/-- The phase goes one way in a run. -/
theorem run_rank_le : h.phase.rank ≤ (operated.run h ops).1.phase.rank := by
  refine @Observed.run_invariant _ _ _ operated (fun g _ => h.phase.rank ≤ g.phase.rank) h
    (Nat.le_refl _) ?_ ops
  exact fun g _ op hrank => hrank.trans (g.applies op).rank_le

/-- A host has crashed if it had before, or if a crash is noted. -/
theorem run_crashed :
    (operated.run h ops).1.crashed = (h.crashed || (operated.run h ops).2.any Note.crashes) := by
  refine @Observed.run_invariant _ _ _ operated
    (fun g past => g.crashed = (h.crashed || past.any Note.crashes)) h (by simp) ?_ ops
  intro g past op hcrashed
  have hstep := (g.applies op).crashed
  rw [hcrashed] at hstep
  rw [List.any_append, Bool.or_comm (_ : Bool) (past.any Note.crashes), ← Bool.or_assoc]
  exact hstep

theorem begun_stop_of_crashed (hcrashed : h.crashed = true) :
    begun .stop (operated.run h ops).2 = 0 := by
  have hboth := @Observed.run_invariant _ _ _ operated
    (fun g past => g.crashed = true ∧ begun .stop past = 0) h ⟨hcrashed, rfl⟩ ?_ ops
  · exact hboth.2
  · rintro g past op ⟨hg, hpast⟩
    have happlies := g.applies op
    refine ⟨?_, ?_⟩
    · have hstep := happlies.crashed
      rw [hg, Bool.true_or] at hstep
      exact hstep
    · rw [begun_append, hpast]
      exact happlies.begun_stop hg

/-- An entry point is begun at most as often as its operation is asked for. -/
theorem begun_le_countP (e : Entry) :
    begun e (operated.run h ops).2 ≤ ops.countP fun op => op.entry? = some e := by
  induction ops using List.reverseRecOn with
  | nil => exact Nat.le_refl _
  | append_singleton ops op ih =>
    have hop : begun e (operated.notes (operated.run h ops).1 op) ≤
        if op.entry? = some e then 1 else 0 := by
      refine (run_applies h ops op).begun_le e |>.trans ?_
      split
      · rename_i hboth
        rw [if_pos hboth.1]
      · exact Nat.zero_le _
    rw [operated.run_append_singleton, Observed.after, begun_append, List.countP_append,
      Nat.add_comm]
    refine Nat.add_le_add ih (hop.trans ?_)
    by_cases hentry : op.entry? = some e
    · simp [hentry]
    · simp [hentry]

theorem run_released (hr : h.Released) :
    (operated.run h ops).1.Released ∧ ∀ n ∈ (operated.run h ops).2, n.part? = none := by
  refine @Observed.run_invariant _ _ _ operated
    (fun g past => g.Released ∧ ∀ n ∈ past, n.part? = none) h ⟨hr, fun n hn => by cases hn⟩ ?_ ops
  rintro g past op ⟨hg, hpast⟩
  obtain ⟨hnext, hns⟩ := (g.applies op).stays_released hg
  refine ⟨hnext, fun n hn => ?_⟩
  rcases List.mem_append.1 hn with hn | hn
  · exact hns n hn
  · exact hpast n hn

end

/-- How far the entry points have come. -/
structure Entered (h : Host) (past : List Note) : Prop where
  top : begun .top past ≤ 1
  untouched : h.phase.rank < 2 → begun .top past = 0
  start : begun .start past ≤ failures past + 1
  /-- As long as `start` can be called, every `start` raised. -/
  failing : h.phase.rank ≤ 2 → begun .start past ≤ failures past ∧
    ∀ f time result, .ended (.start f) time result ∈ past → raised result = true

theorem entered_nil (h : Host) : Entered h [] where
  top := Nat.zero_le 1
  untouched := fun _ => rfl
  start := Nat.zero_le 1
  failing := fun _ => ⟨Nat.le_refl 0, fun _ _ _ hended => by cases hended⟩

theorem Entered.act {h : Host} {past : List Note} (he : Entered h past) (op : Operation) :
    Entered (operated.act h op) (operated.notes h op ++ past) := by
  have happlies := h.applies op
  have hrank := happlies.rank_le
  show Entered (h.apply op).2 (h.operationNotes op ++ past)
  refine ⟨?_, ?_, ?_, ?_⟩
  · rw [begun_append]
    rcases happlies.begun_top with hnone | ⟨hone, hbefore, -⟩
    · rw [hnone, Nat.zero_add]
      exact he.top
    · rw [he.untouched hbefore]
      exact hone
  · intro hg
    rw [begun_append, he.untouched (Nat.lt_of_le_of_lt hrank hg), Nat.add_zero]
    rcases happlies.begun_top with hnone | ⟨-, -, hafter⟩
    · exact hnone
    · exact absurd hg (Nat.not_lt.2 hafter)
  · rw [begun_append, failures_append]
    have hpast := he.start
    rcases happlies.begun_start with hfailed | ⟨hone, hbefore, -⟩
    · omega
    · have hfailing := (he.failing hbefore).1
      omega
  · intro hg
    obtain ⟨hcount, hraised⟩ := he.failing (hrank.trans hg)
    refine ⟨?_, fun f time result hended => ?_⟩
    · rw [begun_append, failures_append]
      rcases happlies.begun_start with hfailed | ⟨-, -, hafter⟩
      · omega
      · exact absurd hg (Nat.not_le.2 hafter)
    · rcases List.mem_append.1 hended with hended | hended
      · exact happlies.start_raised hg hended
      · exact hraised f time result hended

theorem entered_run (h : Host) (ops : List Operation) :
    Entered (operated.run h ops).1 (operated.run h ops).2 :=
  operated.run_invariant (entered_nil h) (fun _ _ op he => he.act op) ops

/-- A host behind the phase of `start` does not begin it. -/
theorem begun_start_of_rank {h : Host} (hrank : 2 < h.phase.rank) (ops : List Operation) :
    begun .start (operated.run h ops).2 = 0 := by
  have hboth := @Observed.run_invariant _ _ _ operated
    (fun g past => 2 < g.phase.rank ∧ begun .start past = 0) h ⟨hrank, rfl⟩ ?_ ops
  · exact hboth.2
  · rintro g past op ⟨hg, hpast⟩
    have happlies := g.applies op
    refine ⟨Nat.lt_of_lt_of_le hg happlies.rank_le, ?_⟩
    have hbegun := happlies.begun_le .start
    rw [if_neg] at hbegun
    · rw [begun_append, hpast]
      exact Nat.le_zero.1 hbegun
    · rintro ⟨hentry, hown⟩
      cases op with
      | start =>
        rw [← Option.some.inj hown] at hg
        exact absurd hg (by decide)
      | _ => cases hentry

/--
However a host is used, the top level of its script is begun at most once, and `start` at most once
more than it ended with an exception; after a `start` that returned or exited it is not begun again.
From wherever the host is, each entry point is begun at most as often as its operation is asked for:
`stop` by every shutdown, since a shutdown does not end the phase that it belongs to.
-/
theorem entries_begun (config : HostConfig) (transport : Transport) (world : World)
    (ops : List Operation) :
    let run := operated.run (new config transport world)
    begun .top (run ops).2 ≤ 1 ∧
      begun .start (run ops).2 ≤ failures (run ops).2 + 1 ∧
      (∀ f time result, .ended (.start f) time result ∈ (run ops).2 → raised result = false →
        ∀ more, begun .start (operated.run (run ops).1 more).2 = 0) ∧
      ∀ e more, begun e (operated.run (run ops).1 more).2 ≤
        more.countP fun op => op.entry? = some e := by
  intro run
  have he := entered_run (new config transport world) ops
  refine ⟨he.top, he.start, ?_, fun e more => begun_le_countP _ more e⟩
  intro f time result hended hreturned more
  refine begun_start_of_rank ?_ more
  by_contra hrank
  have hraised := (he.failing (Nat.not_lt.1 hrank)).2 f time result hended
  rw [hreturned] at hraised
  cases hraised

/-- A script whose first `start` raises, and whose `stop` records its call. -/
def twiceStarted (raises : Bool) : Program where
  functions := [⟨"start", 0, [if raises then [.throw (.constant (.int 5))] else [], []]⟩,
    ⟨"stop", 0, [[.record (.constant (.string "stop"))]]⟩]

/-- A `start` that raised can be called again, and two shutdowns call `stop` twice. -/
theorem entries_begun_twice :
    begun .start (operated.run (new {} default {})
        [.load (.program (twiceStarted true)), .execute, .start, .start]).2 = 2 ∧
      begun .stop (operated.run (new {} default {})
        [.load (.program (twiceStarted false)), .execute, .start, .meanwhile .stop, .run [.turn],
          .shutdown, .shutdown]).2 = 2 := by
  decide +kernel

/-! ## Phases -/

section

variable {h : Host}

/-- An operation is refused out of its phase, and then nothing happens. -/
theorem apply_refused {op : Operation} {phase : Phase} {name : String}
    (hown : op.own? = some (phase, name)) (hphase : h.phase ≠ phase) :
    h.apply op = (.error (.wrongPhase name h.phase), h) ∧ h.operationNotes op = [] := by
  cases op with
  | load file =>
    cases hown
    exact ⟨by simp [apply, load, expect, hphase], rfl⟩
  | execute =>
    cases hown
    exact ⟨by simp [apply, execute, expect, hphase, Except.map], by simp [operationNotes, hphase]⟩
  | start =>
    cases hown
    exact ⟨by simp [apply, start, expect, hphase, Except.map], by simp [operationNotes, hphase]⟩
  | run acts =>
    cases hown
    exact ⟨by simp [apply, enter, expect, hphase], by simp [operationNotes, enter, expect, hphase]⟩
  | shutdown =>
    cases hown
    exact ⟨by simp [apply, shutdown, expect, hphase, Except.map], by simp [operationNotes, hphase]⟩
  | teardown => cases hown
  | close acts => cases hown
  | meanwhile a => cases hown

/-- An operation is not refused in its phase. -/
theorem apply_admitted {op : Operation} {phase : Phase} {name : String}
    (hown : op.own? = some (phase, name)) (hphase : h.phase = phase) : Admitted (h.apply op).1 := by
  have happlies := h.applies op
  generalize (h.apply op).1 = result at happlies
  generalize (h.apply op).2 = g at happlies
  generalize h.operationNotes op = ns at happlies
  cases happlies with
  | refused _ other _ hother hwrong =>
    rw [hown] at hother
    cases hother
    exact absurd hphase hwrong
  | unloaded _ _ _ _ he => exact he
  | executed _ _ _ hresult => exact hresult
  | unstarted _ _ _ he => exact he
  | started _ _ _ _ hresult => exact hresult
  | _ => rintro _ _ ⟨⟩

theorem load_program (hphase : h.phase = .uninitialized) {p : Program} (hp : p.compiles = true) :
    (h.apply (.load (.program p))).1 = .ok () := by
  simp [apply, load, expect, hphase, Script.compile, hp]

/-- A script that is not loaded leaves no trace. -/
theorem load_failed {file : ScriptFile} {e : HostError}
    (hfailed : (h.apply (.load file)).1 = .error e) : (h.apply (.load file)).2 = h := by
  have happlies := h.applies (.load file)
  rw [hfailed] at happlies
  generalize (h.apply (.load file)).2 = g at happlies
  generalize h.operationNotes (.load file) = ns at happlies
  cases happlies with
  | refused => rfl
  | unloaded => rfl

/-- The release works in every phase. -/
theorem apply_released {op : Operation} (hop : op.isRelease = true)
    (hr : h.phase = .tornDown → h.Released) :
    (h.apply op).1 = .ok () ∧ (h.apply op).2.Released := by
  cases op with
  | teardown =>
    refine ⟨rfl, ?_⟩
    by_cases hphase : h.phase = .tornDown
    · have hsame : h.teardown = h := if_pos hphase
      rw [apply, hsame]
      exact hr hphase
    · exact teardown_released hphase
  | close acts =>
    refine ⟨rfl, ?_⟩
    by_cases hphase : h.phase = .tornDown
    · have hsame : h.closeWhile acts = h := if_pos hphase
      rw [apply, hsame]
      exact hr hphase
    · exact closeWhile_released hphase acts
  | _ => cases hop

end

theorem run_tornDown {h : Host} (hphase : h.phase ≠ .tornDown) (ops : List Operation) :
    (operated.run h ops).1.phase = .tornDown → (operated.run h ops).1.Released := by
  refine @Observed.run_invariant _ _ _ operated (fun g _ => g.phase = .tornDown → g.Released) h
    (fun hother => absurd hother hphase) ?_ ops
  exact fun g _ op hr hg => (g.applies op).ends_released hg hr

/--
However a host is used, its phase goes one way. An operation is refused out of its own phase, and
only there: it fails with an error that names the phase the host is in, runs no script code and
leaves the host as it is. A script that cannot be loaded leaves the host ready to load another one.
Once the top level or `start` ended with an exception, `stop` is never begun. The release works in
every phase and leaves nothing; after it every other operation is refused and no script code runs.
-/
theorem operations_orderly (config : HostConfig) (transport : Transport) (world : World)
    (ops : List Operation) :
    let h := (operated.run (new config transport world) ops).1
    (∀ more, h.phase.rank ≤ (operated.run h more).1.phase.rank) ∧
      (∀ op phase name, op.own? = some (phase, name) →
        (h.phase ≠ phase →
          h.apply op = (.error (.wrongPhase name h.phase), h) ∧ h.operationNotes op = []) ∧
        (h.phase = phase → Admitted (h.apply op).1)) ∧
      (∀ file e, (h.apply (.load file)).1 = .error e →
        (h.apply (.load file)).2 = h ∧
          (h.phase = .uninitialized → ∀ p : Program, p.compiles = true →
            ((h.apply (.load file)).2.apply (.load (.program p))).1 = .ok ())) ∧
      (∀ n ∈ (operated.run (new config transport world) ops).2, n.crashes = true →
        ∀ more, begun .stop (operated.run h more).2 = 0) ∧
      ∀ op, op.isRelease = true →
        (h.apply op).1 = .ok () ∧ (h.apply op).2.Released ∧
          ∀ more, (operated.run (h.apply op).2 more).1.Released ∧
            (∀ n ∈ (operated.run (h.apply op).2 more).2, n.part? = none) ∧
            ∀ other phase name, other.own? = some (phase, name) →
              (operated.run (h.apply op).2 more).1.apply other =
                (.error (.wrongPhase name .tornDown), (operated.run (h.apply op).2 more).1) := by
  intro h
  refine ⟨fun more => run_rank_le h more, ?_, ?_, ?_, ?_⟩
  · intro op phase name hown
    exact ⟨apply_refused hown, apply_admitted hown⟩
  · intro file e hfailed
    have hsame := load_failed hfailed
    rw [hsame]
    exact ⟨rfl, fun hphase p => load_program hphase⟩
  · intro n hn hcrashes more
    refine begun_stop_of_crashed h more ?_
    rw [run_crashed, Bool.or_eq_true]
    exact .inr (List.any_eq_true.2 ⟨n, hn, hcrashes⟩)
  · intro op hop
    obtain ⟨hok, hreleased⟩ := apply_released hop
      (run_tornDown (h := new config transport world) (by simp [new]) ops)
    refine ⟨hok, hreleased, fun more => ?_⟩
    obtain ⟨hstays, hsilent⟩ := run_released (h.apply op).2 more hreleased
    refine ⟨hstays, hsilent, fun other phase name hown => ?_⟩
    have hnot : (operated.run (h.apply op).2 more).1.phase ≠ phase := by
      rw [hstays.phase]
      cases other with
      | load file => cases hown; decide
      | execute => cases hown; decide
      | start => cases hown; decide
      | run acts => cases hown; decide
      | shutdown => cases hown; decide
      | _ => cases hown
    rw [(apply_refused hown hnot).1, hstays.phase]

end Host
end ScriptService
