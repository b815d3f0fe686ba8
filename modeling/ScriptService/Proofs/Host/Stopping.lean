import ScriptService.Proofs.Host.Lifecycle
import ScriptService.Proofs.Host.Release

/-!
# What follows a request to stop

Once the event loop is asked to stop, it hands nothing more to the script: at its next turn it is
left, whatever is ready. Of the script only the part that is running goes on to its end, and what
the host calls by itself still follows, `stop` at last; a request that came before `start` does not
keep `start` from running. A termination signal counts once the loop looks for it, which it does
when nothing is ready: no event of the bus gets ahead of it, but ends of children that were
collected and timers that are due do.

Main statement: `HostRun.halted`.
-/

namespace ScriptService

/-- Whether an event of the bus makes the event loop run a part. -/
def Part.fromBus : Part → Bool
  | .hook _ => true
  | .method _ _ => true
  | _ => false

theorem Part.dispatched_of_fromBus {part : Part} (h : part.fromBus = true) :
    part.dispatched = true := by
  cases part with
  | hook f => rfl
  | method f args => rfl
  | _ => cases h

namespace HostRun

/-! ## The parts of a run -/

/-- The part that begins. -/
def Note.opened? : Note → Option Part
  | .began part _ => some part
  | _ => none

/-- The parts that began, in order. -/
def opened (h : List Note) : List Part := (h.filterMap Note.opened?).reverse

/-- The orders in which the parts of a run can begin: the top level, `start`, what the event loop
dispatches, and `stop`. -/
inductive Sequence : List Part → Prop where
  | unrunnable : Sequence []
  | top : Sequence [.top]
  | looping (f : Callback) (events : List Part) (hevents : ∀ part ∈ events, part.dispatched = true) :
      Sequence ([.top, .start f] ++ events)
  | stopped (f : Callback) (events : List Part) (g : Callback)
      (hevents : ∀ part ∈ events, part.dispatched = true) :
      Sequence ([.top, .start f] ++ events ++ [.stop g])

/-- The part that ran. -/
def Milestone.part? : Milestone → Option Part
  | .ran part _ => some part
  | _ => none

@[simp]
theorem opened_nil : opened [] = [] := rfl

@[simp]
theorem opened_append (ns h : List Note) : opened (ns ++ h) = opened h ++ opened ns := by
  simp [opened]

@[simp]
theorem opened_cons (n : Note) (h : List Note) : opened (n :: h) = opened h ++ n.opened?.toList := by
  unfold opened
  cases hn : n.opened? with
  | none => simp [hn]
  | some part => simp [hn]

@[simp]
theorem opened_partNotes (part : Part) (l : Host) : opened (l.partNotes part) = [part] := by
  have hcode : opened (part.code.notes Resources.natives Resources.seen l.machine) = [] := by
    unfold opened
    rw [List.reverse_eq_nil_iff, List.filterMap_eq_nil_iff]
    intro n hn
    rcases code_notes part l n hn with rfl | ⟨id, time, delay, f, attached, rfl⟩
    · rfl
    · rfl
  unfold Host.partNotes
  rw [opened_cons, opened_append, hcode]
  rfl

/-- Once `start` has begun, only what the event loop dispatches and `stop` can follow. -/
theorem Sequence.after_start {before after : List Part} {part : Part} {f : Callback}
    (hsequence : Sequence (before ++ part :: after)) (hstart : .start f ∈ before) :
    part.dispatched = true ∨ ∃ g, part = .stop g := by
  -- The top level and `start` are the first two parts.
  have htail : ∀ g rest, before ++ part :: after = [.top, .start g] ++ rest → part ∈ rest := by
    intro g rest heq
    match before, hstart, heq with
    | [a], hstart, heq =>
      cases List.mem_singleton.1 hstart
      cases heq
    | a :: b :: before, _, heq =>
      have hrest : before ++ part :: after = rest := by
        simpa using (List.cons.inj (List.cons.inj heq).2).2
      rw [← hrest]
      simp
  generalize hparts : before ++ part :: after = parts at hsequence
  cases hsequence with
  | unrunnable => simp at hparts
  | top =>
    cases before with
    | nil => cases hstart
    | cons a before => simp at hparts
  | looping g events hevents => exact Or.inl (hevents part (htail g events hparts))
  | stopped g events s hevents =>
    rw [List.append_assoc] at hparts
    rcases List.mem_append.1 (htail g _ hparts) with hpart | hpart
    · exact Or.inl (hevents part hpart)
    · exact Or.inr ⟨s, List.mem_singleton.1 hpart⟩

section

variable {r next : HostRun} {a : Act} {ns h : List Note}

/-- Every part that begins in an act comes to its end in it. -/
theorem Does.opened_eq (hdoes : Does r a ns next) :
    opened ns = (milestones ns).filterMap Milestone.part? := by
  cases hdoes with
  | rests => rfl
  | asked => rfl
  | signalled => rfl
  | turned ns g _ htakes =>
    cases htakes with
    | leaves => rfl
    | rests => rfl
    | runs part l => simp [Milestone.part?]
    | fires id t timers l => simp [Milestone.part?]
    | misses => rfl
  | launched file ns next _ hlaunches =>
    cases hlaunches with
    | unrunnable => rfl
    | _ => simp [milestones_append, Milestone.part?, Note.milestone?, Note.opened?, List.filterMap]
  | quit ns g _ _ hquits =>
    cases hquits with
    | uncallable => rfl
    | ran => simp [milestones_append, Milestone.part?, Note.milestone?, Note.opened?, List.filterMap]
  | finished => rfl

theorem part?_ranAll (events : List Dispatched) :
    (ranAll events).filterMap Milestone.part? = events.map (·.1) := by
  induction events with
  | nil => rfl
  | cons e events ih => simpa [ranAll, Milestone.part?] using ih

/-- The parts of a run that has come to its event loop. -/
theorem part?_course (v w : Value) (f : Callback) (events : List Dispatched)
    (rest : List Milestone) :
    List.filterMap Milestone.part?
        ([.ran .top (.ok v), .found "start" (.callable f), .ran (.start f) (.ok w)] ++
          ranAll events ++ rest) =
      [.top, .start f] ++ events.map (·.1) ++ rest.filterMap Milestone.part? := by
  rw [List.filterMap_append, List.filterMap_append, part?_ranAll]
  rfl

/-- The parts of a run begin in one of the orders. -/
theorem Underway.sequence {file : ScriptFile} (hr : Underway file r h)
    (hopened : opened h = (milestones h).filterMap Milestone.part?) : Sequence (opened h) := by
  have hdispatched : ∀ events : List Dispatched, (∀ e ∈ events, e.1.dispatched = true) →
      ∀ part ∈ events.map (·.1), part.dispatched = true := by
    intro events hevents part hpart
    rcases List.mem_map.1 hpart with ⟨e, he, rfl⟩
    exact hevents e he
  have hended : ∀ status, r.status? = some status → Sequence (opened h) := by
    intro status hstatus
    have hout := hr.ended status hstatus
    rw [hopened]
    generalize milestones h = ms at hout
    cases hout with
    | unrunnable => exact .unrunnable
    | topMisread => exact .top
    | topRaised => exact .top
    | topExited => exact .top
    | unstarted => exact .top
    | startRaised v f => exact .looping f [] (by simp)
    | startExited v f => exact .looping f [] (by simp)
    | unstopped v w f events entry _ hevents =>
      have hnone : List.filterMap Milestone.part? [.left, .found "stop" entry] = [] := rfl
      rw [part?_course, hnone, List.append_nil]
      exact .looping f _ (hdispatched events hevents)
    | stopped v w f events g result _ hevents =>
      rw [part?_course]
      exact .stopped f _ g (hdispatched events hevents)
  cases hstage : r.stage with
  | launching f =>
    rw [hopened, (hr.launching f hstage).2.1]
    exact .unrunnable
  | looping =>
    rcases hr.looping hstage with ⟨-, v, w, f, events, hl⟩
    have hleft : (if r.host.phase = .stopRequested then [Milestone.left] else []).filterMap
        Milestone.part? = [] := by
      split
      · rfl
      · rfl
    rw [hopened, hl.course, part?_course, hleft, List.append_nil]
    exact .looping f _ (hdispatched events hl.dispatched)
  | closing status => exact hended status (by simp [status?, hstage])
  | finished status => exact hended status (by simp [status?, hstage])

end

theorem signalled_notMem_partNotes (part : Part) (l : Host) : .signalled ∉ l.partNotes part := by
  unfold Host.partNotes
  simp only [List.mem_cons, List.mem_append, List.not_mem_nil, or_false, reduceCtorEq, false_or]
  intro hmem
  rcases code_notes part l .signalled hmem with heq | ⟨id, time, delay, f, attached, heq⟩
  · cases heq
  · cases heq

/-! ## When a part begins -/

/-- What holds of each part that begins and of what was noted before it. -/
def EachPart (P : Part → List Note → Prop) (h : List Note) : Prop :=
  Throughout (fun n past => ∀ part, n.opened? = some part → P part past) h

namespace EachPart

variable {P : Part → List Note → Prop} {h ns : List Note}

theorem cons (hall : EachPart P h) {n : Note} (hn : n.opened? = none) : EachPart P (n :: h) := by
  refine throughout_cons.2 ⟨?_, hall⟩
  intro part hpart
  cases hn.symm.trans hpart

theorem append (hall : EachPart P h) (hns : ∀ n ∈ ns, n.opened? = none) :
    EachPart P (ns ++ h) := by
  induction ns with
  | nil => exact hall
  | cons n ns ih => exact (ih fun m hm => hns m (List.mem_cons_of_mem n hm)).cons (hns n (by simp))

theorem part (hall : EachPart P h) {part : Part} (hpart : P part h) (l : Host) :
    EachPart P (l.partNotes part ++ h) := by
  have hbegan : EachPart P (.began part l.now :: h) := by
    refine throughout_cons.2 ⟨?_, hall⟩
    rintro other ⟨⟩
    exact hpart
  unfold Host.partNotes
  rw [List.cons_append, List.append_assoc]
  refine (hbegan.append ?_).cons rfl
  intro n hn
  rcases code_notes part l n hn with rfl | ⟨id, time, delay, f, attached, rfl⟩
  · rfl
  · rfl

/-- Parts begin as they should if the parts that the event loop dispatches do. -/
theorem does (hall : EachPart P h) {r next : HostRun} {a : Act} (hdoes : Does r a ns next)
    (hother : ∀ part past, part.dispatched = false → P part past)
    (hturn : ∀ part, a = .turn → r.host.phase = .running → r.host.resources.stopping = false →
      part ∈ opened ns → P part h) : EachPart P (ns ++ h) := by
  cases hdoes with
  | rests => exact hall
  | asked => exact hall.cons rfl
  | signalled => exact hall.cons rfl
  | turned ns g hphase htakes =>
    cases htakes with
    | leaves => exact hall.cons rfl
    | rests => exact hall
    | runs part l _ hgoing => exact hall.part (hturn part rfl hphase hgoing (by simp)) l
    | fires id t timers l _ hgoing => exact hall.part (hturn _ rfl hphase hgoing (by simp)) l
    | misses => exact hall
  | launched file ns next _ hlaunches =>
    cases hlaunches with
    | unrunnable => exact hall.cons rfl
    | topFailed l => exact (hall.part (hother _ _ rfl) l).cons rfl
    | topExited l => exact (hall.part (hother _ _ rfl) l).cons rfl
    | unstarted l => exact ((hall.part (hother _ _ rfl) l).cons rfl).cons rfl
    | startFailed l k =>
      rw [List.cons_append, List.append_assoc, List.append_assoc]
      exact (((hall.part (hother _ _ rfl) l).cons rfl).part (hother _ _ rfl) k).cons rfl
    | startExited l k =>
      rw [List.cons_append, List.append_assoc, List.append_assoc]
      exact (((hall.part (hother _ _ rfl) l).cons rfl).part (hother _ _ rfl) k).cons rfl
    | entered l k =>
      rw [List.append_assoc, List.append_assoc]
      exact ((hall.part (hother _ _ rfl) l).cons rfl).part (hother _ _ rfl) k
  | quit ns g _ _ hquits =>
    cases hquits with
    | uncallable => exact (hall.cons rfl).cons rfl
    | ran f =>
      rw [List.cons_append, List.append_assoc]
      exact ((hall.cons rfl).part (hother _ _ rfl) r.host).cons rfl
  | finished => exact hall

end EachPart
end HostRun

/-! ## Turns of a loop that is to stop -/

namespace Host

open HostRun (Note opened signalled_notMem_partNotes)

variable {h g : Host} {ns : List Note}

theorem Takes.signalled_notMem (htakes : Takes h ns g) : .signalled ∉ ns := by
  cases htakes with
  | leaves => simp
  | rests => simp
  | runs part l => exact signalled_notMem_partNotes part l
  | fires id t timers l => exact signalled_notMem_partNotes _ l
  | misses => simp

/-- A turn leaves a signal pending. -/
theorem Takes.signal (htakes : Takes h ns g) :
    g.loop.terminationSignal = h.loop.terminationSignal := by
  cases htakes with
  | leaves _ _ hg => exact hg.signal
  | rests _ hg => exact hg.signal
  | runs part l _ _ _ _ hl hg =>
    rw [hg.signal, Part.finish_loop]
    exact hl.signal
  | fires id t timers l _ _ _ hl _ hg =>
    rw [hg.signal, Part.finish_loop]
    exact hl.signal
  | misses id timers _ _ _ hg => exact hg.signal

/-- A loop that is asked to stop is left, whatever is ready. -/
theorem turnCourse_stopping (hstopping : h.resources.stopping = true) : h.turnCourse = [.left] := by
  have hlisten := h.listen_alike.stopping.trans hstopping
  simp only [turnCourse, nextTurn, hlisten, if_true]

/-- A signal is found when nothing is ready. -/
theorem turnCourse_signalled (hsignal : h.loop.terminationSignal = true)
    (hready : h.listen.loop.ready = [])
    (hdue : (h.resources.timers.popExpired h.now).1 = none) : h.turnCourse = [.left] := by
  have hlisten := h.listen_alike.signal.trans hsignal
  rw [← h.listen_timers, ← h.listen_alike.now] at hdue
  rcases hpop : h.listen.resources.timers.popExpired h.listen.now with ⟨due, timers⟩
  rw [hpop] at hdue
  subst hdue
  have hlook : Host.look (h.listen.withTimers timers) =
      (.leave, ((h.listen.withTimers timers).inWorld fun w =>
        w.info "Termination signal received" []).stop) := if_pos hlisten
  unfold withTimers at hlook
  by_cases hstopping : h.listen.resources.stopping = true
  · simp only [turnCourse, nextTurn, hstopping, if_true]
  · simp only [turnCourse, nextTurn, hstopping, hready, hpop, hlook]
    rfl

/-- The part that an event makes the host run is what begins. -/
theorem opened_eventNotes {e : LoopEvent} {part : Part} (hpart : part ∈ opened (h.eventNotes e)) :
    ∃ l, h.partOf e = some (part, l) := by
  unfold eventNotes at hpart
  cases hof : h.partOf e with
  | none =>
    rw [hof] at hpart
    cases hpart
  | some p =>
    rw [hof, HostRun.opened_partNotes, List.mem_singleton] at hpart
    rw [hpart]
    exact ⟨p.2, rfl⟩

/-- No event of the bus gets ahead of a signal. -/
theorem fromBus_of_signalled (hsignal : h.loop.terminationSignal = true) {part : Part}
    (hpart : part ∈ opened h.turnCourse) : part.fromBus = false := by
  -- The loop looks for signals first, so it does not come to the events of the bus.
  have hlook : ∀ (b : BusEvent) (k g : Host), k.look = (.dispatch (.bus b), g) →
      k.loop ≠ h.listen.loop := by
    intro b k g hnext hk
    rw [look, hk, if_pos (h.listen_alike.signal.trans hsignal)] at hnext
    cases hnext
  have hevent : ∃ k e, (∀ b, e ≠ .bus b) ∧ part ∈ opened (eventNotes k e) := by
    unfold turnCourse nextTurn at hpart
    simp only at hpart
    split at hpart
    · rename_i e k hnext
      refine ⟨k, e, ?_, hpart⟩
      rintro b rfl
      split at hnext
      · cases hnext
      · split at hnext
        · cases hnext
        · split at hnext
          · cases hnext
          · exact hlook b _ k hnext rfl
    · simp [Note.opened?] at hpart
    · simp at hpart
  rcases hevent with ⟨k, e, hbus, hpart⟩
  rcases opened_eventNotes hpart with ⟨l, hof⟩
  cases e with
  | timer id =>
    rcases Option.map_eq_some_iff.1 hof with ⟨t, -, heq⟩
    cases heq
    rfl
  | childEnded pid status =>
    unfold partOf at hof
    simp only at hof
    split at hof
    · cases hof
    · cases hof
      rfl
  | bus b => exact absurd rfl (hbus b)

end Host

/-! ## Runs -/

namespace HostRun

/-- What is known of a run with a history that is to stop. -/
structure Halting (file : ScriptFile) (r : HostRun) (h : List Note) : Prop where
  underway : Underway file r h
  emptied : Emptied r
  opened_eq : opened h = (milestones h).filterMap Milestone.part?
  dispatched : EachPart (fun part past => part.dispatched = true → ∀ n ∈ past, n.stops = false) h
  /-- A signal is not forgotten while the run goes on. -/
  signal : r.status? = none → .signalled ∈ h → r.host.loop.terminationSignal = true
  unheard : EachPart (fun part past => part.fromBus = true → .signalled ∉ past) h

namespace Halting

variable {file : ScriptFile} {r : HostRun} {h : List Note}

/-- The event loop is asked to stop exactly if it is noted. -/
theorem stopping_iff (hr : Halting file r h) (hphase : r.host.phase = .running) :
    r.host.resources.stopping = true ↔ ∃ n ∈ h, n.stops = true := by
  rcases hr.underway.looping (hr.underway.staged.running hphase) with ⟨-, v, w, f, events, hl⟩
  exact hl.watched.stopping

theorem status_of_running (hr : Halting file r h) (hphase : r.host.phase = .running) :
    r.status? = none := by
  simp [status?, hr.underway.staged.running hphase]

theorem fresh (config : HostConfig) (transport : Transport) (world : World) (file : ScriptFile) :
    Halting file (HostRun.fresh config transport world file) [] where
  underway := underway_run config transport world file []
  emptied := emptied_of_open (Or.inr ⟨file, rfl⟩)
  opened_eq := rfl
  dispatched := throughout_nil
  signal := fun _ hmem => by cases hmem
  unheard := throughout_nil

/-- A signal that arrived is still pending after an act that does not end the run. -/
theorem signal_act (hr : Halting file r h) (a : Act) (hopen : (r.act a).status? = none)
    (hmem : .signalled ∈ courseNotes r a ++ h) : (r.act a).host.loop.terminationSignal = true := by
  have hdoes := HostRun.does hr.underway.staged a
  generalize courseNotes r a = ns at hmem hdoes
  generalize r.act a = next at hopen hdoes
  cases hdoes with
  | rests _ g _ _ _ _ hsignal =>
    rw [hsignal]
    exact hr.signal hopen hmem
  | asked =>
    refine hr.signal hopen ?_
    simpa using hmem
  | signalled => rfl
  | turned ns g hphase htakes =>
    have hpast : .signalled ∈ h := by
      rcases List.mem_append.1 hmem with hmem | hmem
      · exact absurd hmem htakes.signalled_notMem
      · exact hmem
    rw [htakes.signal]
    exact hr.signal hopen hpast
  | launched file ns next hstage hlaunches =>
    cases hlaunches with
    | entered l k g v w f _ hl _ hk _ hg =>
      have hpast : .signalled ∈ h := by
        simpa [signalled_notMem_partNotes] using hmem
      have hstart := hr.signal (by simp [status?, hstage]) hpast
      exact (hg.signal.trans (hk.signal.trans hl.signal)).trans hstart
    | _ => cases hopen
  | quit => cases hopen
  | finished => cases hopen

/-- Every act keeps what is known of the run. -/
theorem act (hr : Halting file r h) (a : Act) :
    Halting file (r.act a) (courseNotes r a ++ h) := by
  have hdoes := HostRun.does hr.underway.staged a
  have hunder := hr.underway.does hdoes
  refine ⟨hunder, hr.emptied.act hr.underway.staged a, ?_, ?_, hr.signal_act a, ?_⟩
  · rw [opened_append, milestones_append, List.filterMap_append, hr.opened_eq, hdoes.opened_eq]
  · refine hr.dispatched.does hdoes ?_ ?_
    · intro part past hpart hdispatched
      cases hpart.symm.trans hdispatched
    · -- The event loop dispatches only if it is not asked to stop.
      rintro part rfl hphase hgoing - - n hn
      by_contra hstops
      have hstopping := (hr.stopping_iff hphase).2 ⟨n, hn, by simpa using hstops⟩
      cases hstopping.symm.trans hgoing
  · refine hr.unheard.does hdoes ?_ ?_
    · intro part past hpart hbus
      cases hpart.symm.trans (Part.dispatched_of_fromBus hbus)
    · rintro part rfl hphase - hpart hbus hsignalled
      have hsignal := hr.signal (hr.status_of_running hphase) hsignalled
      have hcourse : courseNotes r .turn = r.host.turnCourse := if_pos hphase
      rw [hcourse] at hpart
      cases (Host.fromBus_of_signalled hsignal hpart).symm.trans hbus

end Halting

/-- What a request to stop means for a run with a history. -/
structure Halted (r : HostRun) (h : List Note) : Prop where
  /-- The top level and `start` come first, then what the event loop dispatches, then `stop`. -/
  order : Sequence (opened h)
  /-- Once a stop is requested, the event loop dispatches nothing. -/
  dispatched : EachPart (fun part past => part.dispatched = true → ∀ n ∈ past, n.stops = false) h
  /-- Once `start` has begun and a stop is requested, nothing begins but `stop`. -/
  only_stop : EachPart (fun part past => (∃ f, .start f ∈ opened past) →
    (∃ n ∈ past, n.stops = true) → ∃ g, part = .stop g) h
  /-- A loop that is asked to stop is left at its next turn, whatever is ready. -/
  leaves : r.host.phase = .running → (∃ n ∈ h, n.stops = true) → r.host.turnCourse = [.left]
  /-- Once a signal has arrived, no hook and no method begins. -/
  unheard : EachPart (fun part past => part.fromBus = true → .signalled ∉ past) h
  /-- A signal makes the loop leave at the first turn that finds no child and no timer ready. -/
  heeds : r.host.phase = .running → .signalled ∈ h → r.host.listen.loop.ready = [] →
    (r.host.resources.timers.popExpired r.host.now).1 = none → r.host.turnCourse = [.left]
  /-- What was waiting is dropped when the run ends. -/
  emptied : Emptied r

theorem Halting.only_stop {file : ScriptFile} {r : HostRun} {h : List Note}
    (hr : Halting file r h) : EachPart (fun part past => (∃ f, .start f ∈ opened past) →
      (∃ n ∈ past, n.stops = true) → ∃ g, part = .stop g) h := by
  rintro n past hpast part hpart ⟨f, hstart⟩ ⟨m, hm, hstops⟩
  have hsequence := hr.underway.sequence hr.opened_eq
  rcases hpast with ⟨later, rfl⟩
  rw [opened_append, opened_cons, hpart, List.append_assoc] at hsequence
  rcases hsequence.after_start hstart with hdispatched | hstop
  · have hquiet := hr.dispatched n past ⟨later, rfl⟩ part hpart hdispatched m hm
    cases hquiet.symm.trans hstops
  · exact hstop

/-- Whatever a run goes through and whatever is ready: once a stop is requested, nothing is handed
to the script any more, only `stop` is still to come once `start` has begun, and what was waiting is
dropped when the run ends. -/
theorem halted (config : HostConfig) (transport : Transport) (world : World) (file : ScriptFile)
    (acts : List Act) :
    let p := course.run (fresh config transport world file) acts
    Halted p.1 p.2 := by
  intro p
  have hp : Halting file p.1 p.2 :=
    course.run_invariant (Halting.fresh config transport world file) (fun _ _ a hr => hr.act a) acts
  refine ⟨hp.underway.sequence hp.opened_eq, hp.dispatched, hp.only_stop, ?_, hp.unheard, ?_,
    hp.emptied⟩
  · intro hphase hstops
    exact Host.turnCourse_stopping ((hp.stopping_iff hphase).2 hstops)
  · intro hphase hsignalled hready hdue
    have hsignal := hp.signal (hp.status_of_running hphase) hsignalled
    exact Host.turnCourse_signalled hsignal hready hdue

/-- A script whose top level asks the event loop to stop. -/
def earlyScript : Program where
  top := [.native none "uloop_end" []]
  functions := [⟨"start", 0, []⟩]

/-- A script that starts two timers that are due at once. -/
def dueScript : Program where
  functions := [
    ⟨"start", 0, [[.native none "uloop_timeout" [.function "tick" [], .constant (.int 0)],
      .native none "uloop_timeout" [.function "tick" [], .constant (.int 0)]]]⟩,
    ⟨"tick", 0, []⟩]

def Note.isSignal : Note → Bool
  | .signalled => true
  | _ => false

/-- The parts that begin in a run after the latest note of a kind, if there is one. -/
def openedAfter (kind : Note → Bool) (p : Program) (acts : List Act) : List Part :=
  let h := (course.run (fresh {} (.memory {}) {} (.program p)) acts).2
  if h.any kind then opened (h.takeWhile fun n => !kind n) else []

/-- `start` begins although the top level has asked the loop to stop, and the second timer fires
although a signal has arrived in the meantime. -/
theorem opened_after_request :
    ((openedAfter Note.stops earlyScript [.proceed]).any fun part => part.entry? = some .start) =
        true ∧
      (openedAfter Note.isSignal dueScript [.proceed, .turn, .terminate, .turn]).any
        (·.dispatched) = true := by
  decide +kernel

end HostRun
end ScriptService
