import ScriptService.Proofs.Host.Paths

/-!
# Children over whole runs

Whatever a script does and whatever happens around it, the children of a run are in step with a
lawful history, as long as the system gives the number of no watched child to another one and nobody
else waits for the host's children: the function of each child is called at most once, with the
status that says how that child ended, and no status that was collected gets lost while the event
loop runs.

Main statement: `HostRun.children_lawful`.
-/

namespace ScriptService

open ChildList (Invariant Orderly Undisturbed sweepNotes)

/-! ## Acts -/

namespace HostRun

variable {fine : List ChildList.Note → Prop}
  {inv : ChildList → List Process → List ChildList.Note → Prop} {past : List ChildList.Note}

/-- What is noted of children in an act. -/
def childNotes (r : HostRun) : Act → List ChildList.Note
  | .turn => if r.host.phase = .running then r.host.turnChildNotes else []
  | .proceed => r.proceedChildNotes
  | .child index state _ => r.host.world.kernel.changeNotes index state
  | _ => []

/-- Runs whose children are observed. -/
def parentage : Observed HostRun Act ChildList.Note := ⟨act, childNotes⟩

/-- The children of a run are in step with a history, and given statuses are ready until everything
is released. -/
structure Tended (inv : ChildList → List Process → List ChildList.Note → Prop) (r : HostRun)
    (h : List ChildList.Note) : Prop where
  inStep : inv r.host.resources.children r.host.world.kernel.processes h
  watched : r.isOpen = true → r.host.Tended inv h
  going : r.isOpen = true → .released ∉ h

theorem tended_of_open {r : HostRun} {h : List ChildList.Note} (hh : r.host.Tended inv h)
    (hgoing : .released ∉ h) : Tended inv r h :=
  ⟨hh.tended.inStep, fun _ => hh, fun _ => hgoing⟩

/-- Where the way leads that a run goes on by, the children are in step. -/
theorem tended_of_leads (hinv : Invariant fine inv) {h : Host} {ns : List ChildList.Note}
    {next : HostRun} (hleads : h.Leads ns next) (hh : h.Tended inv past)
    (hgoing : .released ∉ past) (hfine : fine (ns ++ past)) : Tended inv next (ns ++ past) := by
  cases hleads with
  | loops hpath =>
    exact tended_of_open (hpath.tended hinv hh hfine)
      (List.not_mem_append hpath.released_notMem hgoing)
  | ends hpath status =>
    -- A run that begins to release everything watches no child any more.
    have hended := hpath.tended hinv hh (hinv.of_append [.released] hfine)
    exact ⟨hinv.release hended.tended.inStep _, nofun, nofun⟩

theorem Tended.goes (hinv : Invariant fine inv) {r next : HostRun} {ns : List ChildList.Note}
    (hr : Tended inv r past) (hgoes : Goes r ns next) (hfine : fine (ns ++ past)) :
    Tended inv next (ns ++ past) := by
  cases hgoes with
  | leads hopen hleads =>
    exact tended_of_leads hinv hleads (hr.watched hopen) (hr.going hopen) hfine
  | closes status hstage => exact ⟨hr.inStep, nofun, nofun⟩
  | rests => exact hr

/-- An act that leaves the children and the statuses alone. -/
theorem Tended.same {r : HostRun} (hr : Tended inv r past) {g : Host}
    (hg : g.SameChildren r.host) : Tended inv { r with host := g } past := by
  refine ⟨?_, fun hopen => (hr.watched hopen).same hg, hr.going⟩
  show inv g.resources.children g.world.kernel.processes past
  rw [hg.children, hg.processes]
  exact hr.inStep

/-- A child changes its state. -/
theorem Tended.change (hinv : Invariant fine inv) {r : HostRun} (hr : Tended inv r past)
    (index : Nat) (state : ChildState) (announced : Bool)
    (hfine : fine (r.host.world.kernel.changeNotes index state ++ past)) :
    Tended inv (r.act (.child index state announced))
      (r.host.world.kernel.changeNotes index state ++ past) := by
  have hchange : inv r.host.resources.children
      (r.host.world.kernel.change index state).2.processes _ :=
    hinv.change hr.inStep index state hfine
  refine ⟨hchange, fun hopen => ⟨⟨hchange, ?_⟩, (hr.watched hopen).idle⟩, fun hopen => ?_⟩
  · rw [ChildList.pending_changeNotes]
    exact (hr.watched hopen).tended.queued
  · exact List.not_mem_append (ChildList.released_notMem_changeNotes _ _ _) (hr.going hopen)

/-- Every act leaves the children of a run in step, as long as the history is fine. -/
theorem Tended.act (hinv : Invariant fine inv) {r : HostRun} (hr : Tended inv r past)
    (hstaged : Staged r) (a : Act) (hfine : fine (childNotes r a ++ past)) :
    Tended inv (r.act a) (childNotes r a ++ past) := by
  cases a with
  | move => exact hr.same ⟨rfl, rfl, rfl, rfl⟩
  | turn =>
    unfold childNotes at hfine ⊢
    unfold HostRun.act turnLoop
    by_cases hphase : r.host.phase = .running
    · simp only [hphase, if_true] at hfine ⊢
      have hopen : r.isOpen = true := by simp [isOpen, hstaged.running hphase]
      exact tended_of_open ((hr.watched hopen).turn hinv hfine)
        (List.not_mem_append r.host.released_notMem_turnChildNotes (hr.going hopen))
    · simp only [hphase, if_false]
      exact hr
  | proceed => exact hr.goes hinv (goes_proceed hstaged) hfine
  | wait time => exact hr.same ⟨rfl, rfl, rfl, rfl⟩
  | meet m => exact hr.same ⟨rfl, rfl, rfl, rfl⟩
  | beside m => exact hr.same ⟨rfl, rfl, rfl, rfl⟩
  | stop => exact hr.same ⟨rfl, rfl, rfl, rfl⟩
  | terminate => exact hr.same ⟨rfl, rfl, rfl, rfl⟩
  | child index state announced => exact hr.change hinv index state announced hfine

/-- The phase of the host fits the stage of the run, and its children are in step as long as the
history is fine. -/
structure Raised (fine : List ChildList.Note → Prop)
    (inv : ChildList → List Process → List ChildList.Note → Prop) (r : HostRun)
    (h : List ChildList.Note) : Prop where
  staged : Staged r
  tended : fine h → Tended inv r h

theorem raised_run (hinv : Invariant fine inv) (config : HostConfig) (transport : Transport)
    (world : World) (file : ScriptFile) (acts : List Act) :
    Raised fine inv (parentage.run (fresh config transport world file) acts).1
      (parentage.run (fresh config transport world file) acts).2 := by
  refine parentage.run_invariant ?_ ?_ acts
  · refine ⟨staged_fresh config transport world file, fun _ => tended_of_open ?_ List.not_mem_nil⟩
    exact ⟨⟨hinv.init _, rfl⟩, fun _ => rfl⟩
  · intro r h a hr
    refine ⟨hr.staged.does (does hr.staged a), fun hfine => ?_⟩
    exact (hr.tended (hinv.of_append _ hfine)).act hinv hr.staged a hfine

/-! ## The law -/

/-- The host that passes on the status of a child: the child is watched no more, and its status is
no more ready. -/
def passing (h : Host) (pid : Int) (rest : List (Int × Int)) : Host :=
  { h.withResources fun r => { r with children := r.children.filter fun c => c.pid != pid } with
    loop := { h.loop with ready := rest } }

/-- The next turn passes on a status: the function of the child is called once, after the child was
unlinked, and whatever comes of the call, the child stays so. -/
def PassesOn (r : HostRun) (h : List ChildList.Note) (pid status : Int)
    (rest : List (Int × Int)) : Prop :=
  ∃ callback attached, ChildList.watched? pid h = some (callback, attached) ∧
    (r.act .turn).host = Host.childReturned ((passing r.host pid rest).call callback
      (.int (.ofInt status) :: attached.toList) (callback.toValue :: attached.toList)) ∧
      childNotes r .turn = (passing r.host pid rest).partChildNotes
        (.child callback (.int (.ofInt status) :: attached.toList)
          (callback.toValue :: attached.toList)) ++
        [.called pid status callback (.int (.ofInt status) :: attached.toList)]

theorem Tended.passed {r : HostRun} {h : List ChildList.Note} (hr : Tended Orderly r h)
    (hopen : r.isOpen = true) {pid status : Int} {rest : List (Int × Int)}
    (hphase : r.host.phase = .running) (hstop : r.host.resources.stopping = false)
    (hready : r.host.loop.ready = (pid, status) :: rest) : PassesOn r h pid status rest := by
  have hhost := hr.watched hopen
  have horderly := hhost.tended.inStep
  rcases horderly.kept.call horderly.lawful (hhost.tended.queued.trans hready) with
    ⟨c, htake, hwatched, -, -⟩
  -- The loop listens already, so the turn sweeps up nothing new.
  have hlisten : r.host.listen = r.host := by rw [Host.listen, if_pos (hhost.started hready)]
  have hnext : r.host.nextTurn = (.dispatch (.childEnded pid status),
      { r.host with loop := { r.host.loop with ready := rest } }) := by
    unfold Host.nextTurn
    simp only [hlisten, hstop, Bool.false_eq_true, if_false, hready]
  refine ⟨c.callback, c.attached, hwatched, ?_, ?_⟩
  · have hact : (r.act .turn).host =
        Host.childEnded { r.host with loop := { r.host.loop with ready := rest } } pid status := by
      unfold HostRun.act turnLoop Host.turn
      rw [if_pos hphase, onHost, hnext]
      rfl
    exact hact.trans (Host.childEnded_eq htake)
  · have hnone : r.host.sweptNotes r.host = [] := by simp [Host.sweptNotes, sweepNotes]
    have hnotes : childNotes r .turn = Host.eventChildNotes
        { r.host with loop := { r.host.loop with ready := rest } } (.childEnded pid status) := by
      have hturn : childNotes r .turn = r.host.turnChildNotes := if_pos hphase
      rw [hturn, Host.turnChildNotes, hnext, hlisten, hnone, List.append_nil]
      rfl
    have hchildren : Host.resources { r.host with loop := { r.host.loop with ready := rest } } =
        r.host.resources := rfl
    rw [hnotes]
    unfold Host.eventChildNotes Host.partOf Host.calledNotes
    simp only [hchildren, htake]
    rfl

end HostRun
end ScriptService
