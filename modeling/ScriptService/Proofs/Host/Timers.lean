import ScriptService.Proofs.Host.Stages
import ScriptService.Proofs.Timers.Kept

/-!
# Timers over whole runs

Whatever a script does and whatever happens around it, the timers of a run are in step with a lawful
history: each fires when it is due and before all others, its function is called once, and what the
function returns decides whether the timer lives on.

Main statement: `HostRun.timers_lawful`.
-/

namespace ScriptService

namespace HostRun

/-- What a note says of timers. -/
def Note.timer? : Note → Option TimerList.Note
  | .began (.timer id f args) time => some (.fired id time f args)
  | .ended (.timer id _ _) time result => some (.returned id time result)
  | .scheduled id time delay f attached => some (.created id time delay f attached)
  | .released => some .cleared
  | _ => none

/-- The history of the timers of a run. -/
def timerNotes (h : List Note) : List TimerList.Note := h.filterMap Note.timer?

theorem timerNotes_append (ns h : List Note) :
    timerNotes (ns ++ h) = timerNotes ns ++ timerNotes h :=
  List.filterMap_append

end HostRun

open HostRun (Note timerNotes timerNotes_append)

/-! ## What script code keeps -/

namespace Resources

/-- The timers of a script are in step with a lawful history, in which the function of a given timer
runs, or of none. -/
structure Timed (firing : Option Nat) (r : Resources) (h : List TimerList.Note) : Prop where
  kept : TimerList.Kept r.timers h
  lawful : TimerList.Lawful r.now h
  firing : TimerList.firing? h = firing

variable {firing : Option Nat} {r s : Resources} {h : List TimerList.Note}

/-- Time passes, and stale deadlines may be left out. -/
theorem Timed.later (ht : r.Timed firing h)
    (htimers : s.timers = r.timers ∨ s.timers = r.timers.settle) (hnow : r.now ≤ s.now) :
    s.Timed firing h where
  kept := by
    rcases htimers with heq | heq
    · rw [heq]
      exact ht.kept
    · rw [heq]
      exact ht.kept.settle
  lawful := ht.lawful.wait hnow
  firing := ht.firing

theorem Timed.same (ht : r.Timed firing h) (htimers : s.timers = r.timers) (hnow : s.now = r.now) :
    s.Timed firing h :=
  ht.later (Or.inl htimers) (Nat.le_of_eq hnow.symm)

/-- The number of a new timer was not given out before. -/
theorem Timed.new_id (ht : r.Timed firing h) : r.timers.lastId + 1 ∉ TimerList.createdIds h := by
  rw [ht.kept.ids]
  intro hmem
  rcases List.mem_map.1 hmem with ⟨n, hn, heq⟩
  have hlt := List.mem_range.1 hn
  omega

theorem Timed.invokes (ht : r.Timed firing h) {ns : List Note} (hinvokes : Invokes r ns s) :
    s.Timed firing (timerNotes ns ++ h) := by
  cases hinvokes with
  | scheduled f delay attached =>
    refine ⟨?_, ?_, ht.firing⟩
    · exact ht.kept.schedule r.now f delay attached
    · exact ht.lawful.create _ delay f attached ht.new_id
  | asked => exact ht.same rfl rfl
  | other _ htimers hnow _ _ => exact ht.same htimers hnow

/-- Script code keeps its timers in step. -/
theorem Timed.code {code : Code Value} (hcode : code.Parametric) {m : Machine Resources}
    {past : List Note} (ht : m.host.Timed firing (timerNotes past)) :
    ((code Resources natives).run.run m).2.host.Timed firing
      (timerNotes (code.notes natives seen m ++ past)) := by
  refine Code.keeps hcode (fun (s : Resources) h => s.Timed firing (timerNotes h)) ?_ ?_ ht
  · -- Of all that code can call, only a new timer changes the list.
    intro name args s h result next hs hinvoke
    rw [timerNotes_append]
    exact hs.invokes (Resources.invokes hinvoke)
  · intro e s h hs
    exact hs.same rfl rfl

/-- What the function of a timer returned decides whether the timer is armed again or unlinked. -/
theorem Timed.settleTimer {g : Host} {id : Nat} (ht : g.resources.Timed (some id) h) (f : Callback)
    (args : List Value) (result : Except Fault Value) :
    (Part.settleTimer (.timer id f args) result g).resources.Timed none
      (.returned id g.now result :: h) := by
  have hlawful := ht.lawful.return result ht.firing
  unfold Part.settleTimer
  cases hdelay : TimerList.delay? result with
  | none =>
    exact ⟨ht.kept.remove id _ hdelay, hlawful, rfl⟩
  | some delay =>
    -- The timer that fires is still linked, so it can be armed again.
    have hlinked := (ht.lawful.firing ht.firing).1
    rw [← ht.kept.entries] at hlinked
    cases hget : g.resources.timers.get? id with
    | none =>
      rw [hget] at hlinked
      exact absurd rfl hlinked
    | some t => exact ⟨ht.kept.rearm hget _ hdelay, hlawful, rfl⟩

end Resources

/-! ## What the host keeps -/

namespace Host

variable {past : List Note}

/-- The timers of the host are in step with a lawful history, and none of them fires. -/
def Timed (h : Host) (past : List Note) : Prop := h.resources.Timed none (timerNotes past)

theorem Timed.alike {g h : Host} (ht : h.Timed past) (halike : g.Alike h) : g.Timed past :=
  Resources.Timed.later ht halike.timers (Nat.le_of_eq halike.now.symm)

/-- The code of a part keeps the timers in step. -/
theorem timed_code {firing : Option Nat} (part : Part) (l : Host)
    (ht : l.resources.Timed firing (timerNotes (.began part l.now :: past))) :
    (part.run l).2.resources.Timed firing (timerNotes
      (part.code.notes Resources.natives Resources.seen l.machine ++ .began part l.now :: past)) :=
  Resources.Timed.code part.parametric ht

/-- A part that is no timer keeps the timers in step. -/
theorem Timed.run {h : Host} (ht : h.Timed past) {part : Part} (htimer : part.timer? = none) :
    (part.run h).2.Timed (h.partNotes part ++ past) := by
  -- Neither its beginning nor its end says anything of timers.
  have hbegan : timerNotes (.began part h.now :: past) = timerNotes past := by
    cases part with
    | timer id f args => cases htimer
    | _ => rfl
  have hready : h.resources.Timed none (timerNotes (.began part h.now :: past)) := by
    rw [hbegan]
    exact ht
  have hcode := timed_code part h hready
  have hended : timerNotes (h.partNotes part ++ past) = timerNotes
      (part.code.notes Resources.natives Resources.seen h.machine ++ .began part h.now :: past) := by
    unfold partNotes
    rw [List.cons_append, List.append_assoc]
    cases part with
    | timer id f args => cases htimer
    | _ => rfl
  unfold Timed
  rw [hended]
  exact hcode

theorem Timed.heedExit {h : Host} (ht : h.Timed past) (result : Except Fault Value) :
    (Part.heedExit result h).Timed past := by
  unfold Part.heedExit
  cases Part.exitCode? result with
  | none => exact ht
  | some code => exact Resources.Timed.same ht rfl rfl

theorem Timed.finish {h : Host} (ht : h.Timed past) {part : Part} (htimer : part.timer? = none) :
    (part.finish h).Timed (h.partNotes part ++ past) := by
  unfold Part.finish
  rw [settle_eq_heedExit htimer]
  exact (ht.run htimer).heedExit _

/-- A timer that fires stays in step: its function runs once, and what the function returns decides
whether the timer is armed again or unlinked. -/
theorem Timed.fire {h l : Host} (ht : h.Timed past) {id : Nat} {t : Timer} {timers : TimerList}
    (hpop : h.resources.timers.popExpired h.now = (some id, timers))
    (hl : l.Alike (h.withTimers timers)) (hget : l.resources.timers.get? id = some t) :
    (Part.finish (.timer id t.callback t.attached.toList) l).Timed
      (l.partNotes (.timer id t.callback t.attached.toList) ++ past) := by
  rcases ht.kept.pop hpop with ⟨due, hdue, hpast, hfirst, hsame, hkept⟩
  have hnow : l.now = h.now := hl.now
  have hgetl : ∀ i, l.resources.timers.get? i = h.resources.timers.get? i := by
    intro i
    rcases hl.timers with heq | heq
    · rw [heq]
      exact hsame i
    · rw [heq]
      exact hsame i
  have hlinked : TimerList.linked? id (timerNotes past) = some (t.callback, t.attached) := by
    rw [← ht.kept.entries, ← hgetl, hget]
    rfl
  -- The function runs while the timer is linked, but not armed.
  have hbegan : l.resources.Timed (some id)
      (timerNotes (.began (.timer id t.callback t.attached.toList) l.now :: past)) := by
    have htaken : (h.withTimers timers).resources.Timed (some id)
        (.fired id h.now t.callback t.attached.toList :: timerNotes past) :=
      ⟨hkept _ _ _, ht.lawful.fire ht.firing hlinked hdue hpast hfirst, rfl⟩
    have hlater := htaken.later hl.timers (Nat.le_of_eq hl.now.symm)
    rw [← hnow] at hlater
    exact hlater
  have hran := timed_code (.timer id t.callback t.attached.toList) l hbegan
  have hended : timerNotes (l.partNotes (.timer id t.callback t.attached.toList) ++ past) =
      .returned id (Part.run (.timer id t.callback t.attached.toList) l).2.now
        (Part.run (.timer id t.callback t.attached.toList) l).1 :: timerNotes
          ((Part.code (.timer id t.callback t.attached.toList)).notes Resources.natives
            Resources.seen l.machine ++
              .began (.timer id t.callback t.attached.toList) l.now :: past) := by
    unfold partNotes
    rw [List.cons_append, List.append_assoc]
    rfl
  refine Timed.heedExit ?_ _
  unfold Timed
  rw [hended]
  exact hran.settleTimer _ _ _

theorem Timed.releaseLocal {h : Host} (ht : h.Timed past) :
    h.releaseLocal.Timed (.released :: past) := by
  have hnow : h.now ≤ h.releaseLocal.now := by
    show h.world.clock ≤ (Logger.close _ _).2.clock
    rw [Logger.clock_close]
    split
    · exact Nat.le_refl _
    · exact ChildList.clock_le_terminateAll _ _ _
  exact ⟨ht.kept.clear, (ht.lawful.wait hnow).clear ht.firing, ht.firing⟩

theorem Timed.conclude {h : Host} (ht : h.Timed past) (status : Int) :
    (HostRun.conclude h status).host.Timed (.released :: past) :=
  ht.releaseLocal

theorem Timed.takes {h g : Host} {ns : List Note} (ht : h.Timed past) (htakes : Takes h ns g) :
    g.Timed (ns ++ past) := by
  cases htakes with
  | leaves _ _ hg =>
    have hleft : Timed { h.stop with phase := .stopRequested } (.left :: past) :=
      Resources.Timed.same ht rfl rfl
    exact hleft.alike hg
  | rests _ hg => exact ht.alike hg
  | runs part l _ _ _ htimer hl hg => exact ((ht.alike hl).finish htimer).alike hg
  | fires id t timers l _ _ hpop hl hget hg => exact (ht.fire hpop hl hget).alike hg
  | misses id timers _ hpop hget hg =>
    -- A timer that is due is linked.
    rcases ht.kept.pop hpop with ⟨due, hdue, -, -, hsame, -⟩
    rcases ((ht.kept.due id due).1 hdue).1 with ⟨t, ht', -⟩
    exact absurd ((hsame id).symm.trans hget) (by rw [ht']; simp)

theorem Timed.launches {h : Host} (ht : h.Timed past) {file : ScriptFile} {ns : List Note}
    {r : HostRun} (hlaunches : Launches h file ns r) : r.host.Timed (ns ++ past) := by
  -- The top level and `start` run while no timer fires.
  have htop : ∀ {l : Host}, l.Alike (h.compiled l.script) →
      (Part.top.run l).2.Timed (l.partNotes .top ++ past) := by
    intro l hl
    have hloaded : Timed (h.compiled l.script) past := ht
    exact (hloaded.alike hl).run rfl
  have hstart : ∀ {l k : Host} {f : Callback}, l.Alike (h.compiled l.script) →
      k.Alike { (Part.top.run l).2 with phase := .topLevelExecuted } →
        (Part.run (.start f) k).2.Timed
          (k.partNotes (.start f) ++ [.found "start" (.callable f)] ++ l.partNotes .top ++ past) := by
    intro l k f hl hk
    have hexecuted : Timed { (Part.top.run l).2 with phase := .topLevelExecuted }
        (.found "start" (.callable f) :: (l.partNotes .top ++ past)) := htop hl
    have hran : (Part.run (.start f) k).2.Timed _ := (hexecuted.alike hk).run rfl
    rw [List.append_assoc, List.append_assoc]
    exact hran
  cases hlaunches with
  | unrunnable g _ hg => exact (ht.alike hg).conclude _
  | topFailed l g _ _ hl _ _ hg =>
    have hran : Timed { (Part.top.run l).2 with phase := .topLevelExecuted, crashed := true } _ :=
      htop hl
    exact (hran.alike hg).conclude _
  | topExited l g _ _ _ hl _ _ hg =>
    have hran : Timed { (Part.top.run l).2 with phase := .topLevelExecuted } _ := htop hl
    exact (hran.alike hg).conclude _
  | unstarted l g _ entry _ hl _ _ hg =>
    have hran : Timed { (Part.top.run l).2 with phase := .topLevelExecuted }
        (.found "start" entry :: (l.partNotes .top ++ past)) := htop hl
    exact (hran.alike hg).conclude _
  | startFailed l k g _ f _ _ hl _ hk _ _ hg =>
    have hran : Timed { (Part.run (.start f) k).2 with crashed := true } _ := hstart hl hk
    exact (hran.alike hg).conclude _
  | startExited l k g _ f _ _ _ hl _ hk _ _ hg =>
    have hran : Timed { (Part.run (.start f) k).2 with phase := .started } _ := hstart hl hk
    exact (hran.alike hg).conclude _
  | entered l k g _ _ f _ hl _ hk _ hg =>
    have hran : Timed { (Part.run (.start f) k).2 with phase := .running } _ := hstart hl hk
    exact hran.alike hg

theorem Timed.quits {h g : Host} {ns : List Note} (ht : h.Timed past) (hquits : Quits h ns g) :
    g.Timed (ns ++ past) := by
  cases hquits with
  | uncallable entry _ _ hg => exact ht.alike hg
  | ran f _ hg =>
    have hfound : h.Timed (.found "stop" (.callable f) :: past) := ht
    rw [List.append_assoc]
    exact (hfound.finish rfl).alike hg

end Host

/-! ## Runs -/

namespace HostRun

variable {past : List Note}

/-- Every act keeps the timers of a run in step. -/
theorem timed_does {r next : HostRun} {a : Act} {ns : List Note} (ht : r.host.Timed past)
    (hdoes : Does r a ns next) : next.host.Timed (ns ++ past) := by
  cases hdoes with
  | rests _ g htimers hnow _ _ _ _ _ _ => exact Resources.Timed.later ht (Or.inl htimers) hnow
  | asked => exact Resources.Timed.same ht rfl rfl
  | signalled => exact ht
  | turned ns g _ htakes => exact ht.takes htakes
  | launched file ns next _ hlaunches => exact ht.launches hlaunches
  | quit ns g _ _ hquits => exact (ht.quits hquits).conclude _
  | finished status _ => exact Resources.Timed.same ht rfl rfl

/-- The phase of the host fits the stage of the run, and its timers are in step. -/
structure Timely (r : HostRun) (h : List Note) : Prop where
  staged : Staged r
  timed : r.host.Timed h

theorem timely_run (config : HostConfig) (transport : Transport) (world : World)
    (file : ScriptFile) (acts : List Act) :
    Timely (course.run (fresh config transport world file) acts).1
      (course.run (fresh config transport world file) acts).2 := by
  refine course.run_invariant ?_ ?_ acts
  · exact ⟨staged_fresh config transport world file, TimerList.kept_init, .init _, rfl⟩
  · intro r h a hr
    have hdoes := does hr.staged a
    exact ⟨hr.staged.does hdoes, timed_does hr.timed hdoes⟩

/-! ## The law -/

/-- What the host makes of the end of a timer's function: the timer is armed again if the function
returned an integer, and otherwise unlinked. -/
def timerEnded (id : Nat) : Except ScriptError Value × Host → Host
  | (.ok v, h) =>
    match v.int? with
    | some delay => h.rearm id delay.toInt
    | none => h.unlink id
  | (.error e, h) => (h.unlink id).report "timer callback" e

/-- The law of the timers of a run with a history. -/
structure TimersLawful (r : HostRun) (h : List TimerList.Note) : Prop where
  /-- No timer is created twice. -/
  created : (TimerList.createdIds h).Nodup
  /-- A timer is linked from its creation until its function fails to return an integer. -/
  linked : ∀ id, (r.host.resources.timers.get? id).map (fun t => (t.callback, t.attached)) =
    TimerList.linked? id h
  /-- The loop takes exactly the timer that is due and before all others that are armed. -/
  taken : ∀ id, (r.host.resources.timers.popExpired r.host.now).1 = some id ↔
    ∃ due, TimerList.due? id h = some due ∧ due.deadline ≤ r.host.now ∧
      ∀ other d, other ≠ id → TimerList.due? other h = some d → due.precedes d
  /-- It calls the function of that timer once, with the attached value if there is one, and what
  the function returns decides about the timer. -/
  called : ∀ id g, r.host.phase = .running → r.host.nextTurn = (.dispatch (.timer id), g) →
    ∃ callback attached, TimerList.linked? id h = some (callback, attached) ∧
      (r.act .turn).host = timerEnded id (g.call callback attached.toList []) ∧
        courseNotes r .turn = g.partNotes (.timer id callback attached.toList)
  /-- A timer that fires is linked and due, and before all others that are armed; and no earlier
  note about it holds it back. -/
  fired : ∀ later id (time : Nat) callback args past,
    h = later ++ .fired id time callback args :: past →
      ∃ attached due, TimerList.linked? id past = some (callback, attached) ∧
        args = attached.toList ∧ TimerList.due? id past = some due ∧ due.deadline ≤ time ∧
          (∀ other d, other ≠ id → TimerList.due? other past = some d → due.precedes d) ∧
            ∀ n ∈ past, n.allows id time
  /-- The function that returns is that of the timer that fired last; the timer stays linked, and is
  due again, exactly if the function returned an integer. -/
  returned : ∀ later id time result past, h = later ++ .returned id time result :: past →
    TimerList.firing? past = some id ∧
      (TimerList.linked? id (.returned id time result :: past) ≠ none ↔
        ∃ delay, TimerList.delay? result = some delay) ∧
        (TimerList.due? id (.returned id time result :: past)).map (·.deadline) =
          (TimerList.delay? result).map (TimerList.deadline time)

theorem fireTimer_eq {g : Host} {id : Nat} {t : Timer}
    (hget : g.resources.timers.get? id = some t) :
    g.fireTimer id = timerEnded id (g.call t.callback t.attached.toList []) := by
  unfold Host.fireTimer timerEnded
  rw [hget]
  simp only
  rcases g.call t.callback t.attached.toList [] with ⟨result, next⟩
  cases result with
  | ok v =>
    simp only
    cases v.int? with
    | none => rfl
    | some delay => rfl
  | error e => rfl

theorem eventNotes_timer {g : Host} {id : Nat} {t : Timer}
    (hget : g.resources.timers.get? id = some t) :
    g.eventNotes (.timer id) = g.partNotes (.timer id t.callback t.attached.toList) := by
  unfold Host.eventNotes Host.partOf
  simp only [hget, Option.map_some]

theorem Timely.called {r : HostRun} {h : List Note} (hr : Timely r h) {id : Nat} {g : Host}
    (hphase : r.host.phase = .running) (hturn : r.host.nextTurn = (.dispatch (.timer id), g)) :
    ∃ callback attached, TimerList.linked? id (timerNotes h) = some (callback, attached) ∧
      (r.act .turn).host = timerEnded id (g.call callback attached.toList []) ∧
        courseNotes r .turn = g.partNotes (.timer id callback attached.toList) := by
  have hturns := r.host.turns
  rw [hturn] at hturns
  change Host.Turns r.host.listen (.dispatch (.timer id)) g at hturns
  have hact : (r.act .turn).host = g.fireTimer id := by
    simp only [act, turnLoop, hphase, if_true, onHost, Host.turn, hturn, Host.dispatch]
  have hnotes : courseNotes r .turn = g.eventNotes (.timer id) := by
    simp only [courseNotes, hphase, if_true, Host.turnCourse, hturn]
  cases hturns with
  | due _ timers _ _ hpop =>
    rw [r.host.listen_timers, r.host.listen_alike.now] at hpop
    rcases hr.timed.kept.pop hpop with ⟨due, hdue, -, -, hsame, -⟩
    rcases ((hr.timed.kept.due id due).1 hdue).1 with ⟨t, hlinked, -⟩
    have hget : timers.get? id = some t := (hsame id).trans hlinked
    refine ⟨t.callback, t.attached, ?_, ?_, ?_⟩
    · rw [← hr.timed.kept.entries, hlinked]
      rfl
    · rw [hact]
      exact fireTimer_eq hget
    · rw [hnotes]
      exact eventNotes_timer hget
  | looked timers _ _ _ _ _ hlook => cases hlook

/-- Whatever the script does and whatever happens to the run, its timers obey the law. -/
theorem timers_lawful (config : HostConfig) (transport : Transport) (world : World)
    (file : ScriptFile) (acts : List Act) :
    let p := course.run (fresh config transport world file) acts
    TimersLawful p.1 (timerNotes p.2) := by
  intro p
  have hp : Timely p.1 p.2 := timely_run config transport world file acts
  refine ⟨hp.timed.lawful.nodup_createdIds, hp.timed.kept.entries, ?_, ?_, ?_, ?_⟩
  · intro id
    exact hp.timed.kept.popExpired_eq_some_iff
  · intro id g hphase hturn
    exact hp.called hphase hturn
  · rintro later id time callback args past hsplit
    have hlawful := hp.timed.lawful
    rw [hsplit] at hlawful
    exact hlawful.fired
  · rintro later id time result past hsplit
    have hlawful := hp.timed.lawful
    rw [hsplit] at hlawful
    have hreturned := hlawful.returned
    refine ⟨hreturned.1, ?_, ?_⟩
    · cases hdelay : TimerList.delay? result with
      | none => simp [TimerList.linked?, hdelay]
      | some delay => simp [TimerList.linked?, hdelay, hreturned.2]
    · cases hdelay : TimerList.delay? result with
      | none => simp [TimerList.due?, hdelay]
      | some delay => simp [TimerList.due?, hdelay]

end HostRun
end ScriptService
