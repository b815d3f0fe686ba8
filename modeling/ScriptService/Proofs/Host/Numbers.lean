import ScriptService.Proofs.Children.Numbers
import ScriptService.Proofs.Host.Children

/-!
# Numbers of children over whole runs

Whatever numbers the system gives to the children of a host, and whoever else waits for them: the
list of children stays in step with a possible history. A started child is added to the list and
leaves the entries of other numbers alone; but the entry of its own number, if there is one, is
replaced, even when the child of that entry still waits for its call (`HostRun.replaced_waiting`).

Main statement: `HostRun.children_numbered`.
-/

namespace ScriptService

open ChildList (watched? Collected)

/-! ## Starting children -/

/-- A started child is in the list, which keeps the entries of all other numbers. -/
structure ChildList.Linked (before after : ChildList) (c : Child) : Prop where
  /-- Only an entry of the same number goes. -/
  entries : after = before.filter (fun d => d.pid != c.pid) ++ [c]
  /-- If there is none, every entry is kept, and one is added. -/
  added : c.pid ∉ before.pids → after = before ++ [c]

theorem ChildList.linked_track (list : ChildList) (c : Child) : Linked list (track list c) c := by
  refine ⟨rfl, ?_⟩
  intro hnew
  have hall : list.filter (fun d => d.pid != c.pid) = list := by
    rw [List.filter_eq_self]
    intro d hd
    have hne : d.pid ≠ c.pid := fun hpid => hnew (List.mem_map.2 ⟨d, hd, hpid⟩)
    simpa using hne
  rw [track, hall]

namespace Resources

variable {r s : Resources}

/-- A call that asks for a child, and succeeds, links it under the number that the system gives. -/
theorem linked_of_process {callback argv : Value} {attached : Option Value}
    (hprocess : r.process callback argv attached = (.int 0, s)) :
    ∃ f, callback.callback? = some f ∧
      ChildList.Linked r.children s.children ⟨r.world.kernel.nextPid, f, attached⟩ := by
  unfold process at hprocess
  cases hf : callback.callback? with
  | none => simp [hf, refusal] at hprocess
  | some f =>
    cases hargv : argv.array? with
    | none => simp [hf, hargv, refusal] at hprocess
    | some words =>
      simp only [hf, hargv] at hprocess
      rcases Child.fork_cases r.world (words.map Value.text) with
        ⟨e, next, hfork, -⟩ | ⟨-, next, hfork, -⟩
      · simp [hfork, refusal] at hprocess
      · simp only [hfork] at hprocess
        cases hprocess
        exact ⟨f, rfl, ChildList.linked_track _ _⟩

end Resources

namespace HostRun

/-! ## What holds of all numbers -/

/-- What holds of the children of a run with a history, whatever numbers they got. -/
structure ChildrenNumbered (r : HostRun) (h : List ChildList.Note) : Prop where
  /-- The list holds, for each number, the child that got it last and was not called yet. -/
  watched : ∀ pid, (r.host.resources.children.find? fun c => c.pid == pid).map
    (fun c => (c.callback, c.attached)) = watched? pid h
  unique : r.host.resources.children.pids.Nodup
  /-- A status that is passed on was collected from a watched child, and not passed on before. It is
  passed on to the function of that child, with the value attached to it, if no child was given its
  number in between. -/
  passed : ∀ later pid status f args past, h = later ++ .called pid status f args :: past →
    ∃ callback attached between before,
      Collected pid status (callback, attached) between before past ∧
        ((∀ g v, .started pid g v ∉ between) →
          f = callback ∧ args = .int (.ofInt status) :: attached.toList)

/--
A script that asks for a child, and is told that it runs, has it linked under the number that the
system gave it; only an entry of the same number goes, so if there is none, all entries are kept and
one is added. Over whole runs, whatever the script does and whatever numbers the system gives, a
status is passed on to the child that it was collected from, unless its number was given again in
between.
-/
theorem children_numbered (config : HostConfig) (transport : Transport) (world : World)
    (file : ScriptFile) (acts : List Act) :
    (∀ (r s : Resources) (callback argv : Value) (attached : Option Value),
      Resources.invoke "uloop_process" (callback :: argv :: attached.toList) r =
          some (.ok (.int 0), s) →
        ∃ f, callback.callback? = some f ∧
          ChildList.Linked r.children s.children ⟨r.world.kernel.nextPid, f, attached⟩) ∧
      ChildrenNumbered (parentage.run (fresh config transport world file) acts).1
        (parentage.run (fresh config transport world file) acts).2 := by
  refine ⟨?_, ?_⟩
  · intro r s callback argv attached hinvoke
    have hprocess : r.process callback argv attached = (.int 0, s) := by
      cases attached with
      | none => simpa [Resources.invoke, Prod.ext_iff] using hinvoke
      | some v => simpa [Resources.invoke, Prod.ext_iff] using hinvoke
    exact Resources.linked_of_process hprocess
  · have hraised := raised_run ChildList.invariant_numbered config transport world file acts
    generalize parentage.run (fresh config transport world file) acts = p at hraised
    have hnumbered := (hraised.tended trivial).inStep
    refine ⟨hnumbered.listed.entries, hnumbered.listed.nodup, ?_⟩
    rintro later pid status f args past hsplit
    have hpossible := hnumbered.possible
    rw [hsplit] at hpossible
    exact hpossible.called

/-! ## A number that is given again -/

/-- The numbers of children in a list, each with the name of its function. -/
def linkedNames (list : ChildList) : List (Int × String) := list.map fun c => (c.pid, c.callback.name)

/-- The starts, collections and calls of a history, in order: the number, the status that was
collected or passed on, and the name of the function that was linked or called. -/
def chronicle (h : List ChildList.Note) : List (Int × Option Int × Option String) :=
  h.reverse.filterMap fun
    | .started pid f _ => some (pid, none, some f.name)
    | .collected pid status => some (pid, some status, none)
    | .called pid status f _ => some (pid, some status, some f.name)
    | _ => none

/-- A script that starts two children, of which the function of the first one starts a third one. -/
def heirScript : Program where
  functions := [
    ⟨"start", 0, [[
      .native none "uloop_process" [.function "first" [], .array [.constant (.string "a")]],
      .native none "uloop_process" [.function "second" [], .array [.constant (.string "b")]]]]⟩,
    ⟨"first", 1, [[
      .native none "uloop_process" [.function "third" [], .array [.constant (.string "c")]]]]⟩,
    ⟨"second", 1, [[]]⟩,
    ⟨"third", 1, [[]]⟩]

/-- Two children have ended before the loop listens, so one sweep collects both statuses. The system
is then free to give their numbers again, and the third child gets that of the second one. -/
def heirWorld : World where
  kernel := { plans := [{ start := .exited 1 }, { start := .exited 2 }, { pid := some 1002 }] }

/-- The run of the script after some acts. -/
def heirRun (acts : List Act) : HostRun × List ChildList.Note :=
  parentage.run (fresh {} (.memory {}) heirWorld (.program heirScript)) acts

/-- While the status of the second child waits to be passed on, the third one takes its place in the
list: the function of the second child is never called, and that of the third one gets the status of
the second. -/
theorem replaced_waiting :
    linkedNames (heirRun [.proceed]).1.host.resources.children =
        [(1001, "first"), (1002, "second")] ∧
      linkedNames (heirRun [.proceed, .turn]).1.host.resources.children = [(1002, "third")] ∧
      linkedNames (heirRun [.proceed, .turn, .turn]).1.host.resources.children = [] ∧
      chronicle (heirRun [.proceed, .turn, .turn]).2 =
        [(1001, none, some "first"), (1002, none, some "second"), (1001, some 1, none),
          (1002, some 2, none), (1001, some 1, some "first"), (1002, none, some "third"),
          (1002, some 2, some "third")] := by
  decide +kernel

end HostRun
end ScriptService
