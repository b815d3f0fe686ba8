import ScriptService.Proofs.Host.Entries
import ScriptService.Proofs.Host.Release
import ScriptService.Proofs.Script.Reach

/-!
# What a host keeps alive

Between two dispatches, a host keeps alive what the global scope, the linked timers, the watched
children and the published service of its script lead to, and nothing else. Which timers are linked
and which children are watched is what the history says, so an entry keeps its values from the call
that made it until its end, and a call that was rejected keeps none. After the release, nothing is
kept.

Main statement: `Host.values_held`.
-/

namespace ScriptService

open HostRun (Note timerNotes)

/-! ## Ends of entries -/

namespace TimerList

/-- A timer whose function returned no delay is never linked again, since its number is not given to
another one. -/
theorem Lawful.unlinked {now : Nat} {h : List Note} (hlawful : Lawful now h) {id time : Nat}
    {result : Except Fault Value} (hended : .returned id time result ∈ h)
    (hdelay : delay? result = none) : linked? id h = none := by
  induction hlawful with
  | init => cases hended
  | wait _ _ ih => exact ih hended
  | create hlawful i delay callback attached hnew ih =>
    rcases List.mem_cons.1 hended with heq | hended
    · cases heq
    · have hne : i ≠ id := by
        rintro rfl
        exact hnew (hlawful.mem_createdIds hended)
      rw [linked?, if_neg hne]
      exact ih hended
  | fire _ _ _ _ _ _ ih =>
    rcases List.mem_cons.1 hended with heq | hended
    · cases heq
    · exact ih hended
  | «return» _ other _ ih =>
    rw [linked?]
    split
    · rfl
    · rename_i hlives
      rcases List.mem_cons.1 hended with heq | hended
      · cases heq
        exact absurd ⟨rfl, hdelay⟩ hlives
      · exact ih hended
  | clear => rfl

/-- The values that timers hold are the functions of the linked ones and what is attached to
them. -/
theorem Kept.mem_held_iff {list : TimerList} {h : List Note} (hk : Kept list h) {v : Value} :
    v ∈ list.held ↔
      ∃ id f attached, linked? id h = some (f, attached) ∧ v ∈ f.toValue :: attached.toList := by
  unfold TimerList.held
  rw [List.mem_flatMap]
  constructor
  · rintro ⟨t, ht, hv⟩
    refine ⟨t.id, t.callback, t.attached, ?_, hv⟩
    rw [← hk.entries, (get?_eq_some_iff hk.unique).2 ⟨ht, rfl⟩]
    rfl
  · rintro ⟨id, f, attached, hlinked, hv⟩
    rw [← hk.entries] at hlinked
    obtain ⟨t, hget, heq⟩ := Option.map_eq_some_iff.1 hlinked
    cases heq
    exact ⟨t, ((get?_eq_some_iff hk.unique).1 hget).1, hv⟩

end TimerList

namespace ChildList

/-- A child whose function was called is watched no more; only another child can be watched under
its number. -/
theorem watched?_of_called {later past : List Note} {pid status : Int} {f : Callback}
    {args : List Value} (hnew : ∀ callback attached, .started pid callback attached ∉ later) :
    watched? pid (later ++ .called pid status f args :: past) = none := by
  induction later with
  | nil => rw [List.nil_append, watched?, if_pos rfl]
  | cons n later ih =>
    have hrest := ih fun callback attached hmem =>
      hnew callback attached (List.mem_cons_of_mem n hmem)
    cases n with
    | started p callback attached =>
      have hne : p ≠ pid := by
        rintro rfl
        exact hnew callback attached List.mem_cons_self
      rw [List.cons_append, watched?, if_neg hne]
      exact hrest
    | called p other g values =>
      rw [List.cons_append, watched?]
      split
      · rfl
      · exact hrest
    | ended p how => exact hrest
    | lost p => exact hrest
    | collected p other => exact hrest
    | released => rfl

/-- The values that children hold are the functions of the watched ones and what is attached to
them. -/
theorem Listed.mem_held_iff {list : ChildList} {h : List Note} (hl : Listed list h) {v : Value} :
    v ∈ ChildList.held list ↔ ∃ pid f attached, watched? pid h = some (f, attached) ∧
      v ∈ f.toValue :: attached.toList := by
  unfold ChildList.held Child.held
  rw [List.mem_flatMap]
  constructor
  · rintro ⟨c, hc, hv⟩
    refine ⟨c.pid, c.callback, c.attached, ?_, hv⟩
    rw [← hl.entries, ← List.head?_filter, filter_key_eq hl.nodup hc]
    rfl
  · rintro ⟨pid, f, attached, hwatched, hv⟩
    exact ⟨_, List.mem_of_find?_eq_some (hl.find?_of_watched hwatched), hv⟩

end ChildList

/-! ## Rejected calls -/

namespace Resources

/-- Whether a call asks for a timer or a child and cannot have it: a timer needs a function and a
delay, a child a function and an array, and the system has to start the child. -/
def Rejects (r : Resources) (name : String) (args : List Value) : Prop :=
  match name, args with
  | "uloop_timeout", callback :: delay :: _ => callback.callback? = none ∨ delay.int? = none
  | "uloop_process", callback :: argv :: _ =>
    callback.callback? = none ∨ argv.array? = none ∨
      ∃ words e, argv.array? = some words ∧
        (Child.fork r.world (words.map Value.text)).1 = .error e
  | _, _ => False

section

variable {r s : Resources} {name : String} {args : List Value} {result : Except Fault Value}

/-- What becomes of a call that asks for a timer or a child. A rejected one returns the refusal and
leaves what the host keeps as it is; it is rejected exactly if no new entry is noted. -/
structure Answered (r : Resources) (name : String) (args : List Value)
    (result : Except Fault Value) (s : Resources) : Prop where
  refused : r.Rejects name args → result = .ok refusal ∧ s.held = r.held
  noted : r.Rejects name args ↔ seen name args r = [] ∧ childrenSeen name args r = []

theorem answered_timeout (r : Resources) (callback delay : Value) (attached : Option Value) :
    Answered r "uloop_timeout" (callback :: delay :: attached.toList)
      (.ok (r.timeout callback delay attached).1) (r.timeout callback delay attached).2 := by
  have hseen : seen "uloop_timeout" (callback :: delay :: attached.toList) r =
      r.timeoutNotes callback delay attached := by
    cases attached with
    | _ => rfl
  have hchildren : childrenSeen "uloop_timeout" (callback :: delay :: attached.toList) r = [] := by
    cases attached with
    | _ => rfl
  have hrejects : r.Rejects "uloop_timeout" (callback :: delay :: attached.toList) ↔
      callback.callback? = none ∨ delay.int? = none := Iff.rfl
  rw [timeout]
  refine ⟨?_, ?_⟩
  · rw [hrejects]
    rintro (hnone | hnone)
    · rw [hnone]
      exact ⟨rfl, rfl⟩
    · rw [hnone]
      cases callback.callback? with
      | _ => exact ⟨rfl, rfl⟩
  · rw [hrejects, hseen, hchildren, timeoutNotes]
    cases callback.callback? with
    | none => simp
    | some f =>
      cases delay.int? with
      | _ => simp

theorem answered_process (r : Resources) (callback argv : Value) (attached : Option Value) :
    Answered r "uloop_process" (callback :: argv :: attached.toList)
      (.ok (r.process callback argv attached).1) (r.process callback argv attached).2 := by
  have hseen : seen "uloop_process" (callback :: argv :: attached.toList) r = [] := by
    cases attached with
    | _ => rfl
  have hchildren : childrenSeen "uloop_process" (callback :: argv :: attached.toList) r =
      r.processNotes callback argv attached := by
    cases attached with
    | _ => rfl
  have hrejects : r.Rejects "uloop_process" (callback :: argv :: attached.toList) ↔
      callback.callback? = none ∨ argv.array? = none ∨
        ∃ words e, argv.array? = some words ∧
          (Child.fork r.world (words.map Value.text)).1 = .error e := Iff.rfl
  rw [process]
  refine ⟨?_, ?_⟩
  · rw [hrejects]
    rintro (hnone | hnone | ⟨words, e, hargv, hfork⟩)
    · rw [hnone]
      exact ⟨rfl, rfl⟩
    · rw [hnone]
      cases callback.callback? with
      | _ => exact ⟨rfl, rfl⟩
    · rw [hargv]
      cases callback.callback? with
      | none => exact ⟨rfl, rfl⟩
      | some f =>
        rcases hresult : Child.fork r.world (words.map Value.text) with ⟨forked, next⟩
        rw [hresult] at hfork
        cases hfork
        simp only [hresult, true_and]
        rfl
  · rw [hrejects, hseen, hchildren, processNotes]
    cases callback.callback? with
    | none => simp
    | some f =>
      cases argv.array? with
      | none => simp
      | some words =>
        cases hfork : (Child.fork r.world (words.map Value.text)).1 with
        | error e => simp [hfork]
        | ok pid => simp [hfork, Kernel.forkNotes]

/-- Every call that asks for a timer or a child is answered so. -/
theorem answered_of_invoke (hname : name = "uloop_timeout" ∨ name = "uloop_process")
    (hinvoke : invoke name args r = some (result, s)) : Answered r name args result s := by
  unfold invoke at hinvoke
  simp only at hinvoke
  split at hinvoke
  · rename_i callback delay
    cases hinvoke
    exact r.answered_timeout callback delay none
  · rename_i callback delay v
    cases hinvoke
    exact r.answered_timeout callback delay (some v)
  · rename_i callback argv
    cases hinvoke
    exact r.answered_process callback argv none
  · rename_i callback argv v
    cases hinvoke
    exact r.answered_process callback argv (some v)
  · simp at hname
  · simp at hname
  · simp at hname
  · -- The functions that log have other names.
    obtain ⟨severity, hseverity, -⟩ := Option.bind_eq_some_iff.1 hinvoke
    have hnone : Severity.ofFunction? "uloop_timeout" = none ∧
        Severity.ofFunction? "uloop_process" = none := ⟨rfl, rfl⟩
    rcases hname with rfl | rfl
    · rw [hnone.1] at hseverity
      cases hseverity
    · rw [hnone.2] at hseverity
      cases hseverity
  · cases hinvoke

end

end Resources

namespace Host

/-! ## Values between two dispatches -/

/-- Where a host keeps values of its script. -/
inductive Holder where
  | globals
  | timer (id : Nat)
  | child (pid : Int)
  | service
  deriving DecidableEq, Inhabited

/-- What a host keeps where, by its histories: the global values, the functions and the attached
values of linked timers and of watched children, and the functions of the active service. -/
inductive Holds (h : Host) (course : List Note) (children : List ChildList.Note) :
    Holder → Value → Prop where
  | globals {name : String} {v : Value} (hmem : (name, v) ∈ h.script.globals) :
      Holds h course children .globals v
  | timer {id : Nat} {f : Callback} {attached : Option Value} {v : Value}
      (hlinked : TimerList.linked? id (timerNotes course) = some (f, attached))
      (hv : v ∈ f.toValue :: attached.toList) : Holds h course children (.timer id) v
  | child {pid : Int} {f : Callback} {attached : Option Value} {v : Value}
      (hwatched : ChildList.watched? pid children = some (f, attached))
      (hv : v ∈ f.toValue :: attached.toList) : Holds h course children (.child pid) v
  | method {d : ServiceDeclaration} {m : Method} {f : Callback} (hactive : h.activeService? = some d)
      (hm : m ∈ d.methods) (hf : m.callback = some f) : Holds h course children .service f.toValue
  | connect {d : ServiceDeclaration} {f : Callback} (hactive : h.activeService? = some d)
      (hf : d.connect = some f) : Holds h course children .service f.toValue

/-- What a host with these histories keeps alive, and what has ended. -/
structure Retains (h : Host) (course : List Note) (children : List ChildList.Note) : Prop where
  /-- Alive are the objects that kept values lead to, each of them once, and no others. -/
  alive : ∃ objects : List (Nat × String), objects.Nodup ∧
    (∀ o, o ∈ objects ↔ ∃ holder v, Holds h course children holder v ∧ v.Reaches o) ∧
      h.alive.Perm (objects.map (·.2))
  /-- A timer whose function returned no delay, raised or exited keeps nothing. -/
  ended : ∀ id f args (time : Nat) result, .ended (.timer id f args) time result ∈ course →
    TimerList.delay? result = none → ∀ v, ¬ Holds h course children (.timer id) v
  /-- A child whose status was passed on keeps nothing; its number can only stand for another one.
  -/
  dispatched : ∀ later past pid status f args,
    children = later ++ .called pid status f args :: past →
      (∀ callback attached, .started pid callback attached ∉ later) →
        ∀ v, ¬ Holds h course children (.child pid) v

section

variable {h : Host} {course : List Note} {children : List ChildList.Note}

theorem mem_service_iff (hs : h.Served) {v : Value} :
    v ∈ h.resources.service.toList.flatMap (·.held) ↔ Holds h course children .service v := by
  rw [List.mem_flatMap]
  constructor
  · rintro ⟨d, hd, hv⟩
    have hactive : h.activeService? = some d := by
      rw [← hs]
      simpa using hd
    obtain ⟨f, hf, rfl⟩ := List.mem_map.1 hv
    rcases List.mem_append.1 hf with hf | hf
    · obtain ⟨m, hm, hcallback⟩ := List.mem_filterMap.1 hf
      exact .method hactive hm hcallback
    · exact .connect hactive (by simpa using hf)
  · intro hholds
    cases hholds with
    | @method d m f hactive hm hf =>
      refine ⟨d, by simpa using hs.trans hactive, List.mem_map.2 ⟨f, ?_, rfl⟩⟩
      exact List.mem_append_left _ (List.mem_filterMap.2 ⟨m, hm, hf⟩)
    | @connect d f hactive hf =>
      refine ⟨d, by simpa using hs.trans hactive, List.mem_map.2 ⟨f, ?_, rfl⟩⟩
      exact List.mem_append_right _ (by simpa using hf)

/-- The host keeps what its histories say. -/
theorem mem_held_iff (ht : h.Timed course) (hc : ChildList.Listed h.resources.children children)
    (hs : h.Served) {v : Value} : v ∈ h.script.held ++ h.resources.held ↔
      ∃ holder, Holds h course children holder v := by
  rw [Resources.held, List.mem_append, List.mem_append, List.mem_append, ht.kept.mem_held_iff,
    hc.mem_held_iff, mem_service_iff hs, Script.held, List.mem_map]
  constructor
  · rintro (⟨⟨name, w⟩, hmem, rfl⟩ | (⟨id, f, attached, hlinked, hv⟩ |
      ⟨pid, f, attached, hwatched, hv⟩) | hservice)
    · exact ⟨.globals, .globals hmem⟩
    · exact ⟨.timer id, .timer hlinked hv⟩
    · exact ⟨.child pid, .child hwatched hv⟩
    · exact ⟨.service, hservice⟩
  · rintro ⟨holder, hholds⟩
    cases holder with
    | globals =>
      cases hholds with
      | @globals name _ hmem => exact .inl ⟨(name, v), hmem, rfl⟩
    | timer id =>
      cases hholds with
      | @timer _ f attached _ hlinked hv => exact .inr (.inl (.inl ⟨id, f, attached, hlinked, hv⟩))
    | child pid =>
      cases hholds with
      | @child _ f attached _ hwatched hv =>
        exact .inr (.inl (.inr ⟨pid, f, attached, hwatched, hv⟩))
    | service => exact .inr (.inr hholds)

theorem retains (ht : h.Timed course) (hc : ChildList.Listed h.resources.children children)
    (hs : h.Served) : Retains h course children := by
  refine ⟨?_, ?_, ?_⟩
  · obtain ⟨objects, hnodup, hobjects, hperm⟩ :=
      Value.liveLabels_perm (h.script.held ++ h.resources.held ++ [])
    refine ⟨objects, hnodup, fun o => ?_, hperm⟩
    rw [hobjects, List.append_nil]
    constructor
    · rintro ⟨v, hv, hreaches⟩
      obtain ⟨holder, hholds⟩ := (mem_held_iff ht hc hs).1 hv
      exact ⟨holder, v, hholds, hreaches⟩
    · rintro ⟨holder, v, hholds, hreaches⟩
      exact ⟨v, (mem_held_iff ht hc hs).2 ⟨holder, hholds⟩, hreaches⟩
  · intro id f args time result hended hdelay v hholds
    have hreturned : .returned id time result ∈ timerNotes course :=
      List.mem_filterMap.2 ⟨_, hended, rfl⟩
    cases hholds with
    | timer hlinked =>
      rw [ht.lawful.unlinked hreturned hdelay] at hlinked
      cases hlinked
  · intro later past pid status f args hsplit hnew v hholds
    cases hholds with
    | child hwatched =>
      rw [hsplit, ChildList.watched?_of_called hnew] at hwatched
      cases hwatched

end

/-! ## After the release -/

section

variable {h g : Host} {op : Operation} {result : Except HostError Unit} {ns : List Note}

/-- Only the release leads into the last phase. -/
theorem Applies.not_tornDown (happlies : Applies h op result ns g) (hop : op.isRelease = false)
    (hphase : h.phase ≠ .tornDown) : g.phase ≠ .tornDown := by
  cases happlies with
  | refused => exact hphase
  | unloaded => exact hphase
  | loaded => simp
  | executed _ _ _ _ hg => simp [hg]
  | unstarted => exact hphase
  | started _ _ _ _ _ hg =>
    rw [hg]
    split
    · simp
    · simp
  | ran _ _ _ _ hg =>
    rcases hg with hg | hg
    · simp [hg]
    · simp [hg]
  | unstopped _ _ _ hg => simp [hg]
  | stopped _ _ _ _ hg => simp [hg]
  | released _ _ _ hrelease => simp [hop] at hrelease
  | waited _ _ _ hkeeps => rwa [hkeeps.phase]

/-- A released host that is asked for anything keeps holding nothing. -/
theorem Bare.apply (hb : h.Bare) (op : Operation) : (h.apply op).2.Bare := by
  have hrefused : ∀ {phase name}, op.own? = some (phase, name) → phase ≠ .tornDown →
      (h.apply op).2.Bare := by
    intro phase name hown hphase
    have hother : h.phase ≠ phase := by
      rw [hb.phase]
      exact hphase.symm
    rw [(apply_refused hown hother).1]
    exact hb
  cases op with
  | load file => exact hrefused rfl (by simp)
  | execute => exact hrefused rfl (by simp)
  | start => exact hrefused rfl (by simp)
  | run acts => exact hrefused rfl (by simp)
  | shutdown => exact hrefused rfl (by simp)
  | teardown =>
    have hsame : h.teardown = h := if_pos hb.phase
    show h.teardown.Bare
    rw [hsame]
    exact hb
  | close acts =>
    have hsame : h.closeWhile acts = h := if_pos hb.phase
    show (h.closeWhile acts).Bare
    rw [hsame]
    exact hb
  | meanwhile a => exact hb.waited a

/-- A release leaves nothing, wherever the host is. -/
theorem bare_of_release (hb : h.phase = .tornDown → h.Bare) (hop : op.isRelease = true) :
    (h.apply op).2.Bare := by
  by_cases hphase : h.phase = .tornDown
  · exact (hb hphase).apply op
  · cases op with
    | teardown => exact teardown_bare hphase
    | close acts => exact closeWhile_bare hphase acts
    | _ => cases hop

theorem run_bare (hb : h.Bare) (ops : List Operation) : (operated.run h ops).1.Bare :=
  @Observed.run_invariant _ _ _ operated (fun g _ => g.Bare) h hb (fun _ _ op hg => hg.apply op) ops

theorem run_bare_of_tornDown (hphase : h.phase ≠ .tornDown) (ops : List Operation) :
    (operated.run h ops).1.phase = .tornDown → (operated.run h ops).1.Bare := by
  refine @Observed.run_invariant _ _ _ operated (fun g _ => g.phase = .tornDown → g.Bare) h
    (fun hother => absurd hother hphase) ?_ ops
  intro g past op hg htorn
  by_cases hbefore : g.phase = .tornDown
  · exact (hg hbefore).apply op
  · cases hop : op.isRelease with
    | true => exact bare_of_release hg hop
    | false => exact absurd htorn ((g.applies op).not_tornDown hop hbefore)

end

/--
However a host is used, and in every run of a script's file, what the host keeps alive between two
dispatches is what the global scope, the linked timers, the watched children and the active service
lead to, by what was noted of them; this also holds at any time while the host is closed. A call for
a timer or a child that is rejected returns the refusal and keeps nothing. A release in any phase
leaves no timer, child, event, service, global value and program, and nothing is alive, whatever
happens afterwards.
-/
theorem values_held (config : HostConfig) (transport : Transport) (world : World)
    (ops : List Operation) :
    let h := (operated.run (new config transport world) ops).1
    let course := (operated.run (new config transport world) ops).2
    let children := (reared.run (new config transport world) ops).2
    Retains h course children ∧
      (∀ acts, Retains (waited.run h.beginClose acts).1
        ((waited.run h.beginClose acts).2 ++ .released :: course)
        ((childrenWaited.run h.beginClose acts).2 ++ .released :: children)) ∧
      (∀ file acts, Retains
        (HostRun.course.run (HostRun.fresh config transport world file) acts).1.host
        (HostRun.course.run (HostRun.fresh config transport world file) acts).2
        (HostRun.parentage.run (HostRun.fresh config transport world file) acts).2) ∧
      (∀ name args r result s, name = "uloop_timeout" ∨ name = "uloop_process" →
        Resources.invoke name args r = some (result, s) → r.Answered name args result s) ∧
      ∀ op, op.isRelease = true → ∀ more,
        (operated.run (h.apply op).2 more).1.Bare ∧
          (operated.run (h.apply op).2 more).1.alive = [] := by
  intro h course children
  have ht : h.Timed course := timed_operated config transport world ops
  have hc : h.Tended ChildList.Numbered children := tended_operated config transport world ops
  have hs : h.Served := served_operated config transport world ops
  refine ⟨retains ht hc.tended.inStep.listed hs, fun acts => ?_, fun file acts => ?_, ?_, ?_⟩
  · have htimers : h.beginClose.Timed (.released :: course) := ht.releaseLocal
    have hchildren : h.beginClose.resources.Tended ChildList.Numbered [] (.released :: children) :=
      hc.releaseLocal
    have hservice : h.beginClose.Served := hs
    exact retains (htimers.waited_run acts) (tended_waited_run hchildren acts).inStep.listed
      (hservice.keeps (waited_run h.beginClose acts).1)
  · have htimely := HostRun.timely_run config transport world file acts
    have hlisted := ((HostRun.raised_run ChildList.invariant_numbered config transport world file
      acts).tended trivial).inStep.listed
    -- Both ways to observe a run see it go the same way.
    have hact : HostRun.parentage.act = HostRun.course.act := rfl
    rw [Observed.run_fst_eq hact] at hlisted
    exact retains htimely.timed hlisted (HostRun.declared_run config transport world file acts)
  · intro name args r result s hname hinvoke
    exact Resources.answered_of_invoke hname hinvoke
  · intro op hop more
    have hbare : (h.apply op).2.Bare :=
      bare_of_release (run_bare_of_tornDown (by simp [new]) ops) hop
    have hstays := run_bare hbare more
    exact ⟨hstays, hstays.toReleased.alive_eq_nil⟩

/-- A script with a global object. Its `start` starts a timer that brings objects along, and asks
for another one without a function. -/
def keepingScript : Program where
  globals := [("kept", .object "global")]
  functions := [
    ⟨"start", 0, [[
      .native none "uloop_timeout"
        [.function "once" [.object "curried"], .constant (.int 5), .object "private"],
      .native none "uloop_timeout" [.constant .unit, .constant (.int 5), .object "rejected"]]]⟩,
    ⟨"once", 2, [[]]⟩]

/-- The labels of what a host keeps, in the order in which it keeps them. -/
def keptLabels (h : Host) : List String :=
  (Value.objectsOfItems (h.script.held ++ h.resources.held)).map (·.2)

example :
    let h := (operated.run (new {} default {}) [.load (.program keepingScript), .execute, .start]).1
    keptLabels h = ["global", "curried", "private"] ∧
      keptLabels (h.apply (.run [.turn, .wait 5, .turn])).2 = ["global"] ∧
        keptLabels (h.apply .teardown).2 = [] := by
  decide +kernel

end Host
end ScriptService
