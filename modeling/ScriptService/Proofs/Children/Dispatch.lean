import ScriptService.Proofs.Children.Kept
import ScriptService.Proofs.Host.Steady

/-!
# Children and the event loop

What script code, the events of the loop and its turns make of the children of a host, told for
every invariant that what happens to children keeps. A sweep only happens when no status is ready:
the entry of a child whose status waits is still in the list, and a second sweep would report it
once more.

Main statements: `Resources.Tended.code`, `Host.Tended.childEnded` and `Host.Tended.turn`.
-/

namespace ScriptService

open ChildList (Invariant pending sweepNotes)

/-! ## Logs and processes -/

namespace Logger

theorem kernel_emit (l : Logger) (w : World) (severity : Severity) (text : String) :
    (l.emit w severity text).kernel = w.kernel := by
  unfold emit
  cases l.identity with
  | none => rfl
  | some identity =>
    simp only
    split <;> split <;> split <;> rfl

theorem kernel_replace (l : Logger) (w : World) (d : LogDeclaration) :
    (l.replace w d).2.kernel = w.kernel := by
  unfold replace openOn close
  simp only
  split <;> split <;> split <;> rfl

end Logger

/-- A child is forked, or nothing happens to processes. -/
theorem Child.fork_cases (w : World) (argv : List String) :
    (∃ e next, Child.fork w argv = (.error e, next) ∧
        next.kernel.processes = w.kernel.processes) ∨
      w.kernel.nextPlan.forks = true ∧ ∃ next, Child.fork w argv = (.ok w.kernel.nextPid, next) ∧
        next.kernel = w.kernel.fork.2 := by
  unfold Child.fork World.fork
  by_cases hrefused : argv.isEmpty ∨ argv.any (·.toList.contains '\x00')
  · rw [if_pos hrefused]
    exact Or.inl ⟨_, _, rfl, rfl⟩
  · rw [if_neg hrefused, Kernel.fork]
    cases hforks : w.kernel.nextPlan.forks with
    | false => exact Or.inl ⟨_, _, rfl, rfl⟩
    | true => exact Or.inr ⟨rfl, _, rfl, rfl⟩

/-! ## What script code does to children -/

namespace Resources

variable {fine : List ChildList.Note → Prop}
  {inv : ChildList → List Process → List ChildList.Note → Prop} {ready : List (Int × Int)}
  {r s : Resources} {h ns : List ChildList.Note}

/-- What is noted of children when a script asks for one. -/
def processNotes (callback argv : Value) (attached : Option Value) (r : Resources) :
    List ChildList.Note :=
  match callback.callback?, argv.array? with
  | some f, some argv =>
    match (Child.fork r.world (argv.map Value.text)).1 with
    | .ok _ => r.world.kernel.forkNotes f attached
    | .error _ => []
  | _, _ => []

/-- What is noted of children when a script calls a function of the host. -/
def childrenSeen (name : String) (args : List Value) (r : Resources) : List ChildList.Note :=
  match name, args with
  | "uloop_process", [callback, argv] => r.processNotes callback argv none
  | "uloop_process", [callback, argv, v] => r.processNotes callback argv (some v)
  | _, _ => []

/-- What a function of the host does to children. -/
inductive Rears (r : Resources) : List ChildList.Note → Resources → Prop where
  | started (f : Callback) (attached : Option Value) (w : World)
      (hforks : r.world.kernel.nextPlan.forks = true) (hkernel : w.kernel = r.world.kernel.fork.2) :
      Rears r (r.world.kernel.forkNotes f attached)
        { r with
          world := w
          children := ChildList.track r.children ⟨r.world.kernel.nextPid, f, attached⟩ }
  | other (s : Resources) (hchildren : s.children = r.children)
      (hprocesses : s.world.kernel.processes = r.world.kernel.processes) : Rears r [] s

theorem rears_process (r : Resources) (callback argv : Value) (attached : Option Value) :
    Rears r (r.processNotes callback argv attached) (r.process callback argv attached).2 := by
  unfold processNotes process
  cases callback.callback? with
  | none => exact .other r rfl rfl
  | some f =>
    cases argv.array? with
    | none => exact .other r rfl rfl
    | some argv =>
      rcases Child.fork_cases r.world (argv.map Value.text) with
        ⟨e, next, hfork, hsame⟩ | ⟨hforks, next, hfork, hkernel⟩
      · simp only [hfork]
        exact .other _ rfl hsame
      · simp only [hfork]
        exact .started f attached next hforks hkernel

/-- Of all functions that the host offers, one starts children. -/
theorem rears {name : String} {args : List Value} {result : Except Fault Value}
    (hinvoke : invoke name args r = some (result, s)) : Rears r (childrenSeen name args r) s := by
  unfold invoke at hinvoke
  simp only at hinvoke
  split at hinvoke
  · cases hinvoke
    refine .other _ ?_ ?_
    · unfold timeout
      split <;> rfl
    · unfold timeout
      split <;> rfl
  · cases hinvoke
    refine .other _ ?_ ?_
    · unfold timeout
      split <;> rfl
    · unfold timeout
      split <;> rfl
  · cases hinvoke
    exact r.rears_process _ _ none
  · cases hinvoke
    exact r.rears_process _ _ (some _)
  · cases hinvoke
    exact .other _ rfl rfl
  · cases hinvoke
    exact .other _ rfl rfl
  · cases hinvoke
    exact .other _ rfl rfl
  · rename_i v _
    rcases Option.bind_eq_some_iff.1 hinvoke with ⟨severity, -, hgive⟩
    cases hgive
    -- The functions that log have other names than the one that starts children.
    have hseen : childrenSeen name [v] r = [] := by
      unfold childrenSeen
      split
      · simp_all
      · simp_all
      · rfl
    rw [hseen]
    exact .other _ rfl (by rw [log, Logger.kernel_emit])
  · cases hinvoke

/-- The children of a script are in step with a history, and given statuses wait to be passed on. -/
structure Tended (inv : ChildList → List Process → List ChildList.Note → Prop)
    (ready : List (Int × Int)) (r : Resources) (h : List ChildList.Note) : Prop where
  inStep : inv r.children r.world.kernel.processes h
  queued : pending h = ready

theorem Tended.same (hr : r.Tended inv ready h) (hchildren : s.children = r.children)
    (hprocesses : s.world.kernel.processes = r.world.kernel.processes) : s.Tended inv ready h := by
  refine ⟨?_, hr.queued⟩
  rw [hchildren, hprocesses]
  exact hr.inStep

theorem Rears.released_notMem (hrears : Rears r ns s) : .released ∉ ns := by
  cases hrears with
  | started f attached w _ _ => simp [Kernel.forkNotes, ChildList.released_notMem_notes]
  | other _ _ _ => exact List.not_mem_nil

theorem Tended.rears (hinv : Invariant fine inv) (hr : r.Tended inv ready h)
    (hrears : Rears r ns s) (hfine : fine (ns ++ h)) : s.Tended inv ready (ns ++ h) := by
  cases hrears with
  | started f attached w hforks hkernel =>
    have hstart := hinv.start hr.inStep hforks f attached hfine
    rw [← hkernel] at hstart
    refine ⟨hstart, ?_⟩
    rw [Kernel.forkNotes, List.append_assoc, ChildList.pending_notes]
    exact hr.queued
  | other _ hchildren hprocesses => exact hr.same hchildren hprocesses

/-- Script code keeps its children in step, as long as the history is fine. -/
theorem Tended.code (hinv : Invariant fine inv) {code : Code Value} (hcode : code.Parametric)
    {m : Machine Resources} {past : List ChildList.Note} (hm : m.host.Tended inv ready past)
    (hfine : fine (code.notes natives childrenSeen m ++ past)) :
    ((code Resources natives).run.run m).2.host.Tended inv ready
      (code.notes natives childrenSeen m ++ past) := by
  refine Code.keeps hcode (fun s h => fine h → s.Tended inv ready h) ?_ ?_ (fun _ => hm) hfine
  · intro name args s h result next hs hinvoke hnext
    exact (hs (hinv.of_append _ hnext)).rears hinv (Resources.rears hinvoke) hnext
  · intro e s h hs hnext
    exact (hs hnext).same rfl rfl

end Resources

/-! ## Events -/

namespace Host

variable {fine : List ChildList.Note → Prop}
  {inv : ChildList → List Process → List ChildList.Note → Prop} {past : List ChildList.Note}

/-- The children of a host are in step with a history, and the statuses that the loop has ready are
those that wait to be passed on. -/
structure Tended (inv : ChildList → List Process → List ChildList.Note → Prop) (h : Host)
    (past : List ChildList.Note) : Prop where
  tended : h.resources.Tended inv h.loop.ready past
  /-- Nothing is ready before the loop listens. -/
  idle : h.loop.started = false → h.loop.ready = []

/-- A loop that has a status ready listens already. -/
theorem Tended.started {h : Host} (hh : h.Tended inv past) {p : Int × Int}
    {rest : List (Int × Int)} (hready : h.loop.ready = p :: rest) : h.loop.started = true := by
  by_contra hidle
  have hnone := hh.idle (by simpa using hidle)
  rw [hready] at hnone
  cases hnone

/-- Two hosts with the same children and the same statuses ready. -/
structure SameChildren (g h : Host) : Prop where
  children : g.resources.children = h.resources.children
  processes : g.world.kernel.processes = h.world.kernel.processes
  ready : g.loop.ready = h.loop.ready
  started : g.loop.started = h.loop.started

theorem SameChildren.refl (h : Host) : h.SameChildren h := ⟨rfl, rfl, rfl, rfl⟩

theorem SameChildren.trans {k g h : Host} (hkg : k.SameChildren g) (hgh : g.SameChildren h) :
    k.SameChildren h :=
  ⟨hkg.children.trans hgh.children, hkg.processes.trans hgh.processes, hkg.ready.trans hgh.ready,
    hkg.started.trans hgh.started⟩

theorem Tended.same {g h : Host} (hh : h.Tended inv past) (hg : g.SameChildren h) :
    g.Tended inv past := by
  refine ⟨?_, ?_⟩
  · rw [hg.ready]
    exact hh.tended.same hg.children hg.processes
  · rw [hg.started, hg.ready]
    exact hh.idle

/-- What is noted of children while a part runs. -/
def partChildNotes (h : Host) (part : Part) : List ChildList.Note :=
  part.code.notes Resources.natives Resources.childrenSeen h.machine

theorem Tended.run (hinv : Invariant fine inv) {h : Host} (hh : h.Tended inv past) (part : Part)
    (hfine : fine (h.partChildNotes part ++ past)) :
    (part.run h).2.Tended inv (h.partChildNotes part ++ past) :=
  ⟨hh.tended.code hinv part.parametric hfine, hh.idle⟩

/-- Script code releases nothing. -/
theorem released_notMem_partChildNotes (h : Host) (part : Part) :
    .released ∉ h.partChildNotes part := by
  have hkept : ∀ past : List ChildList.Note, .released ∉ past →
      .released ∉ h.partChildNotes part ++ past := by
    intro past hpast
    unfold partChildNotes
    refine Code.keeps part.parametric
      (fun (_ : Resources) (past : List ChildList.Note) => .released ∉ past) ?_ ?_ hpast
    · intro name args s past result next hpast hinvoke
      exact List.not_mem_append (Resources.rears hinvoke).released_notMem hpast
    · intro e s past hpast
      exact hpast
  exact fun hmem => hkept [] List.not_mem_nil (List.mem_append_left [] hmem)

theorem report_sameChildren (h : Host) (site : String) (e : ScriptError) :
    (h.report site e).SameChildren h := by
  cases e with
  | _ => exact ⟨rfl, rfl, rfl, rfl⟩

theorem Calls.sameChildren {h next : Host} {site : String} {f : Callback} {args held : List Value}
    (hcalls : Calls h site f args held next) {part : Part}
    (hcode : h.call f args held = h.perform (part.code Resources Resources.natives)) :
    next.SameChildren (part.run h).2 := by
  cases hcalls with
  | returned v _ hcall =>
    rw [hcode] at hcall
    rw [Part.eq_run part hcall]
    exact SameChildren.refl _
  | failed e next hcall =>
    rw [hcode] at hcall
    rw [← Part.eq_run part hcall]
    exact report_sameChildren next site e

theorem fireTimer_sameChildren {h : Host} {id : Nat} {t : Timer}
    (hget : h.resources.timers.get? id = some t) :
    (h.fireTimer id).SameChildren (Part.run (.timer id t.callback t.attached.toList) h).2 := by
  have hfires := h.fires id
  generalize h.fireTimer id = g at hfires
  cases hfires with
  | unlinked hnone => exact absurd (hnone.symm.trans hget) (by simp)
  | rearmed u v delay next hu hcall hint =>
    cases Option.some.inj (hu.symm.trans hget)
    rw [← Part.eq_run (.timer id t.callback t.attached.toList) hcall]
    exact ⟨rfl, rfl, rfl, rfl⟩
  | finished u v next hu hcall hint =>
    cases Option.some.inj (hu.symm.trans hget)
    rw [← Part.eq_run (.timer id t.callback t.attached.toList) hcall]
    exact ⟨rfl, rfl, rfl, rfl⟩
  | failed u e next hu hcall =>
    cases Option.some.inj (hu.symm.trans hget)
    rw [← Part.eq_run (.timer id t.callback t.attached.toList) hcall]
    exact (report_sameChildren _ _ e).trans ⟨rfl, rfl, rfl, rfl⟩

theorem noteSent_sameChildren (h : Host) (sent : Bool) (id : RequestId) :
    (h.noteSent sent id).SameChildren h := by
  unfold noteSent
  split
  · exact SameChildren.refl h
  · exact ⟨rfl, rfl, rfl, rfl⟩

/-- What is noted when a status is passed on. -/
def calledNotes (h : Host) : LoopEvent → List ChildList.Note
  | .childEnded pid status =>
    match (ChildList.take h.resources.children pid).1 with
    | some c => [.called pid status c.callback (ChildList.arguments status c.attached)]
    | none => []
  | .timer _ => []
  | .bus _ => []

/-- What is noted of children when an event is dispatched. -/
def eventChildNotes (h : Host) (e : LoopEvent) : List ChildList.Note :=
  match h.partOf e with
  | some (part, l) => l.partChildNotes part ++ h.calledNotes e
  | none => []

/-! ## Paths -/

section

variable {h g : Host} {ns : List ChildList.Note}

/-- What the launch of a script, the call of `stop` and most events are made of: parts that run,
with what is noted of children, and changes that neither touch the children nor send a signal. -/
inductive Path (h : Host) : List ChildList.Note → Host → Prop where
  | begins : Path h [] h
  | still {ns : List ChildList.Note} {g g' : Host} (hpath : Path h ns g)
      (hchildren : g'.SameChildren g) (hsignals : g'.SameSignals g) : Path h ns g'
  | ran {ns : List ChildList.Note} {g : Host} (hpath : Path h ns g) (part : Part) :
      Path h (g.partChildNotes part ++ ns) (part.run g).2

theorem Path.sameSignals (hpath : Path h ns g) : g.SameSignals h := by
  induction hpath with
  | begins => exact SameSignals.refl h
  | still _ _ hsignals ih => exact hsignals.trans ih
  | ran _ part ih => exact (steady_run part _).toSameSignals.trans ih

theorem Path.tended (hpath : Path h ns g) (hinv : Invariant fine inv) (hh : h.Tended inv past)
    (hfine : fine (ns ++ past)) : g.Tended inv (ns ++ past) := by
  induction hpath with
  | begins => exact hh
  | still _ hchildren _ ih => exact (ih hfine).same hchildren
  | ran _ part ih =>
    rw [List.append_assoc] at hfine ⊢
    exact (ih (hinv.of_append _ hfine)).run hinv part hfine

theorem Path.released_notMem (hpath : Path h ns g) : .released ∉ ns := by
  induction hpath with
  | begins => exact List.not_mem_nil
  | still _ _ _ ih => exact ih
  | ran _ part ih => exact List.not_mem_append (released_notMem_partChildNotes _ part) ih

/-- A part has run, and besides nothing has happened that matters. -/
theorem path_of_run (part : Part) (hchildren : g.SameChildren (part.run h).2)
    (hsignals : g.SameSignals h) : Path h (h.partChildNotes part) g := by
  have hran : Path h (h.partChildNotes part ++ []) (part.run h).2 := Path.begins.ran part
  rw [List.append_nil] at hran
  exact hran.still hchildren (hsignals.trans (steady_run part h).toSameSignals.symm)

/-- What changes no child and sends no signal. -/
theorem path_of_same (hchildren : g.SameChildren h) (hsignals : g.SameSignals h) : Path h [] g :=
  Path.begins.still hchildren hsignals

end

theorem path_fireTimer (h : Host) (id : Nat) :
    Path h (h.eventChildNotes (.timer id)) (h.fireTimer id) := by
  have hsignals : (h.fireTimer id).SameSignals h := (steady_dispatch h (.timer id)).toSameSignals
  unfold eventChildNotes partOf
  cases hget : h.resources.timers.get? id with
  | none =>
    have hsame : h.fireTimer id = h := by simp [Host.fireTimer, hget]
    rw [hsame]
    simp only [hget, Option.map_none]
    exact .begins
  | some t =>
    simp only [hget, Option.map_some, calledNotes, List.append_nil]
    exact path_of_run _ (fireTimer_sameChildren hget) hsignals

theorem path_connected (h : Host) :
    Path h (h.eventChildNotes (.bus .connected)) h.connected := by
  have hsignals : h.connected.SameSignals h := (steady_dispatch h (.bus .connected)).toSameSignals
  have hhooks := h.hooks
  unfold eventChildNotes partOf
  generalize h.connected = g at hhooks hsignals
  cases hhooks with
  | none hhook =>
    rw [hhook]
    exact .begins
  | hook f g hhook hcalls =>
    simp only [hhook, Option.map_some, calledNotes, List.append_nil]
    exact path_of_run (.hook f) (hcalls.sameChildren rfl) hsignals

/-- What a call that is answered leaves of the children. -/
theorem answered_sameChildren (h : Host) (machine : Machine Resources) (client : Client)
    (sent : Bool) (id : RequestId) (error : Option ScriptError) :
    SameChildren (error.elim (noteSent { h with machine, client } sent id)
      ((noteSent { h with machine, client } sent id).report "bus method")) { h with machine } := by
  have hsent := noteSent_sameChildren { h with machine, client } sent id
  have hclient : SameChildren { h with machine, client } { h with machine } := ⟨rfl, rfl, rfl, rfl⟩
  cases error with
  | none => exact hsent.trans hclient
  | some e => exact (report_sameChildren _ "bus method" e).trans (hsent.trans hclient)

theorem path_answerCall (h : Host) (r : Request) :
    Path h (h.eventChildNotes (.bus (.call r))) (h.answerCall r) := by
  have hsignals : (h.answerCall r).SameSignals h :=
    (steady_dispatch h (.bus (.call r))).toSameSignals
  have hanswers := h.answers r
  unfold eventChildNotes partOf
  generalize h.answerCall r = g at hanswers hsignals
  cases hanswers with
  | unserved hservice =>
    rw [hservice]
    exact .begins
  | served d dispatch machine sent client hservice hanswer hreply =>
    have hleft := answered_sameChildren h machine client sent r.id dispatch.error
    rw [hservice]
    -- A call that does not reach a function runs no code.
    have hrefused : (r.object ≠ d.object ∨ d.callback? r.method = none) →
        Path h [] (dispatch.error.elim (noteSent { h with machine, client } sent r.id)
          ((noteSent { h with machine, client } sent r.id).report "bus method")) := by
      intro hrefused
      rcases answer_refused hrefused hanswer with ⟨rfl, -⟩
      exact path_of_same hleft hsignals
    by_cases hobject : r.object = d.object
    · cases hmethod : d.callback? r.method with
      | none =>
        simp only [hobject, if_true, hmethod, Option.map_none]
        exact hrefused (Or.inr hmethod)
      | some f =>
        simp only [hobject, if_true, hmethod, Option.map_some, calledNotes, List.append_nil]
        have hmachine : { h with machine } =
            (Part.run (.method f (r.data.toList.map Value.ofTable)) h).2 := by
          rcases answer_part hobject hmethod hanswer with ⟨v, hrun, -⟩ | ⟨fault, hrun, -⟩
          · rw [hrun]
          · rw [hrun]
        exact path_of_run _ (hmachine ▸ hleft) hsignals
    · simp only [hobject, if_false]
      exact hrefused (Or.inl hobject)

/-- Of all events, only the end of a child does more to children than to run a part. -/
theorem path_dispatch (h : Host) {e : LoopEvent} (he : ∀ pid status, e ≠ .childEnded pid status) :
    Path h (h.eventChildNotes e) (h.dispatch e) := by
  cases e with
  | timer id => exact h.path_fireTimer id
  | childEnded pid status => exact absurd rfl (he pid status)
  | bus e =>
    cases e with
    | connected => exact h.path_connected
    | disconnected =>
      exact path_of_same ⟨rfl, rfl, rfl, rfl⟩ (steady_dispatch h (.bus .disconnected)).toSameSignals
    | call r => exact h.path_answerCall r

/-- What the host makes of the end of a child's function: a fault is reported, and that is all. -/
def childReturned : Except ScriptError Value × Host → Host
  | (.ok _, h) => h
  | (.error e, h) => h.report "process callback" e

theorem childEnded_eq {h : Host} {pid status : Int} {c : Child} {children : ChildList}
    (htake : ChildList.take h.resources.children pid = (some c, children)) :
    h.childEnded pid status = childReturned ((h.withResources fun r => { r with children }).call
      c.callback (.int (.ofInt status) :: c.attached.toList) c.held) := by
  unfold Host.childEnded
  split
  · rename_i hnone
    rw [htake] at hnone
    cases hnone
  · rename_i hsome
    rw [htake] at hsome
    cases hsome
    rfl

/-- The function of a child runs as a part; what comes of it besides leaves the children alone. -/
theorem childReturned_sameChildren (l : Host) (f : Callback) (args held : List Value) :
    (childReturned (l.call f args held)).SameChildren (Part.run (.child f args held) l).2 := by
  rcases hcall : l.call f args held with ⟨result, next⟩
  cases result with
  | ok v =>
    have hcalls : Calls l "process callback" f args held next := .returned v next hcall
    exact hcalls.sameChildren rfl
  | error e => exact (Calls.failed e next hcall).sameChildren rfl

/-- The first status that is ready is passed on to the function of the child that has the number,
which is watched no more when the function is called. -/
theorem Tended.childEnded (hinv : Invariant fine inv) {h : Host} (hh : h.Tended inv past)
    {pid status : Int} {rest : List (Int × Int)} (hready : h.loop.ready = (pid, status) :: rest)
    (hfine : fine (eventChildNotes { h with loop := { h.loop with ready := rest } }
      (.childEnded pid status) ++ past)) :
    (Host.childEnded { h with loop := { h.loop with ready := rest } } pid status).Tended inv
      (eventChildNotes { h with loop := { h.loop with ready := rest } } (.childEnded pid status) ++
        past) := by
  have hpending := hh.tended.queued.trans hready
  obtain ⟨c, htake, hcalled⟩ := hinv.call hh.tended.inStep hpending
  have htake' : ChildList.take (resources { h with loop := { h.loop with ready := rest } }).children
      pid = (some c, h.resources.children.filter fun d => d.pid != pid) := htake
  unfold eventChildNotes partOf calledNotes at hfine ⊢
  simp only [htake', List.append_assoc, List.singleton_append] at hfine ⊢
  rw [childEnded_eq htake']
  -- The function runs on a host that does not watch the child any more.
  have hl : Host.Tended inv (withResources { h with loop := { h.loop with ready := rest } } fun r =>
      { r with children := h.resources.children.filter fun d => d.pid != pid })
      (.called pid status c.callback (ChildList.arguments status c.attached) :: past) := by
    refine ⟨⟨hcalled, ?_⟩, ?_⟩
    · rw [pending, hpending]
      rfl
    · intro hidle
      exact absurd ((hh.started hready).symm.trans hidle) (by decide)
  have hran :=
    hl.run hinv (.child c.callback (.int (.ofInt status) :: c.attached.toList) c.held) hfine
  exact hran.same (childReturned_sameChildren _ _ _ _)

/-! ## Turns -/

/-- What is noted of the statuses that the loop has ready more than before. -/
def sweptNotes (before after : Host) : List ChildList.Note :=
  sweepNotes (after.loop.ready.drop before.loop.ready.length)

/-- What is noted of children when the loop does what it found to do. -/
def foundNotes (before after : Host) : LoopTurn → List ChildList.Note
  | .dispatch e => after.eventChildNotes e
  | .lookAgain => before.sweptNotes after
  | .leave => []
  | .wait => []

/-- What is noted of children in a turn of the event loop. -/
def turnChildNotes (h : Host) : List ChildList.Note :=
  h.listen.foundNotes h.nextTurn.2 h.nextTurn.1 ++ h.sweptNotes h.listen

theorem released_notMem_eventChildNotes (h : Host) (e : LoopEvent) :
    .released ∉ h.eventChildNotes e := by
  have hcalled : .released ∉ h.calledNotes e := by
    unfold calledNotes
    split
    · split <;> simp
    · exact List.not_mem_nil
    · exact List.not_mem_nil
  unfold eventChildNotes
  split
  · exact List.not_mem_append (released_notMem_partChildNotes _ _) hcalled
  · exact List.not_mem_nil

/-- In a turn nothing is released. -/
theorem released_notMem_turnChildNotes (h : Host) : .released ∉ h.turnChildNotes := by
  have hswept : ∀ g : Host, .released ∉ h.listen.sweptNotes g :=
    fun g => ChildList.released_notMem_sweepNotes _
  refine List.not_mem_append ?_ (ChildList.released_notMem_sweepNotes _)
  unfold foundNotes
  split
  · exact released_notMem_eventChildNotes _ _
  · exact hswept _
  · exact List.not_mem_nil
  · exact List.not_mem_nil

/-- A sweep happens when no status is ready. -/
theorem Tended.collectEnds (hinv : Invariant fine inv) {h : Host} (hh : h.Tended inv past)
    (hready : h.loop.ready = []) (hstarted : h.loop.started = true) :
    h.collectEnds.Tended inv (h.sweptNotes h.collectEnds ++ past) := by
  have hfound : h.collectEnds.loop.ready = (ChildList.reap h.resources.children h.world).1 := by
    simp [Host.collectEnds, hready, inWorld, withResources]
  have hswept : h.sweptNotes h.collectEnds =
      sweepNotes (ChildList.reap h.resources.children h.world).1 := by
    rw [sweptNotes, hfound, hready]
    rfl
  have hnone := hh.tended.queued.trans hready
  rw [hswept]
  refine ⟨⟨?_, ?_⟩, ?_⟩
  · have hinStep : inv h.resources.children h.world.kernel.processes past := hh.tended.inStep
    exact hinv.reap hinStep hnone
  · rw [ChildList.pending_sweepNotes, hnone, hfound]
    rfl
  · intro hidle
    exact absurd (hidle.symm.trans hstarted) (by simp)

theorem listen_started (h : Host) : h.listen.loop.started = true := by
  unfold listen
  split
  · assumption
  · rfl

/-- Nothing is ready yet when the loop begins to listen. -/
theorem Tended.listen (hinv : Invariant fine inv) {h : Host} (hh : h.Tended inv past) :
    h.listen.Tended inv (h.sweptNotes h.listen ++ past) := by
  unfold Host.listen
  by_cases hstarted : h.loop.started = true
  · have hnone : h.sweptNotes h = [] := by simp [sweptNotes, sweepNotes]
    rw [if_pos hstarted, hnone]
    exact hh
  · rw [if_neg hstarted]
    have hready : h.loop.ready = [] := hh.idle (by simpa using hstarted)
    have hbegun : Host.Tended inv { h with loop := { h.loop with started := true } } past :=
      ⟨hh.tended, fun hidle => by cases hidle⟩
    exact hbegun.collectEnds hinv hready rfl

/-- What the loop finds by looking leaves the children in step. -/
theorem Tended.looks (hinv : Invariant fine inv) {h g : Host} {turn : LoopTurn}
    (hh : h.Tended inv past) (hstarted : h.loop.started = true) (hready : h.loop.ready = [])
    (hlooks : Looks h turn g) (hfine : fine (h.foundNotes g turn ++ past)) :
    (g.carryOut turn).Tended inv (h.foundNotes g turn ++ past) := by
  cases hlooks with
  | terminated => exact hh.same ⟨rfl, rfl, rfl, rfl⟩
  | collected =>
    have hsame : SameChildren
        (h.inWorld fun w => { w with kernel := { w.kernel with childSignal := false } }) h :=
      ⟨rfl, rfl, rfl, rfl⟩
    exact (hh.same hsame).collectEnds hinv hready hstarted
  | heard e client hattached hnext =>
    have hsame : SameChildren { h with client } h := ⟨rfl, rfl, rfl, rfl⟩
    exact (path_dispatch _ (by simp)).tended hinv (hh.same hsame) hfine
  | idle => exact hh

/-- A turn of the event loop leaves the children in step. -/
theorem Tended.turn (hinv : Invariant fine inv) {h : Host} (hh : h.Tended inv past)
    (hfine : fine (h.turnChildNotes ++ past)) : h.turn.2.Tended inv (h.turnChildNotes ++ past) := by
  have hlisten := hh.listen hinv
  have hstarted := h.listen_started
  have hturns := h.turns
  rw [turn_eq]
  unfold turnChildNotes at hfine ⊢
  rw [List.append_assoc] at hfine ⊢
  generalize h.nextTurn.1 = turn at hturns hfine ⊢
  generalize h.nextTurn.2 = g at hturns hfine ⊢
  cases hturns with
  | stopped hstop => exact hlisten.same ⟨rfl, rfl, rfl, rfl⟩
  | ended pid status ready hstop hready => exact hlisten.childEnded hinv hready hfine
  | due id timers hstop hready hdue =>
    have hsame : SameChildren (h.listen.withResources fun r => { r with timers }) h.listen :=
      ⟨rfl, rfl, rfl, rfl⟩
    exact (path_dispatch _ (by simp)).tended hinv (hlisten.same hsame) hfine
  | looked timers turn g hstop hready hdue hlook =>
    have hsame : SameChildren (h.listen.withResources fun r => { r with timers }) h.listen :=
      ⟨rfl, rfl, rfl, rfl⟩
    exact (hlisten.same hsame).looks hinv hstarted hready hlook hfine

end Host
end ScriptService
