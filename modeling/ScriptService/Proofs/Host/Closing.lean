import ScriptService.Proofs.Host.Attendance
import ScriptService.Proofs.Session.Closing

/-!
# Replies at the end of a run

A run that leaves the event loop closes the link of its session, and waits until the session has
ended. The calls that were dispatched before are answered on the way out, if their connections stay
up and the session is not ended by force; and no further call reaches the host.

Main statement: `HostRun.concluded`.
-/

namespace ScriptService

open Session (Answered Closing Punctual Timely ledger)

namespace HostRun

/-! ## The invariant -/

section

variable {r : HostRun} {ns h : List Deed}

/-- At no time do more than 2 ^ 32 calls that have arrived wait for their dispatch, so that their
numbers tell them apart. -/
def Roomy (h : List Deed) : Prop :=
  ∀ past, past <:+ h →
    (ledger (sessionFacts past)).arrivals.length ≤ (dispatches past).length + UInt32.size

theorem Roomy.of_append (hroom : Roomy (ns ++ h)) : Roomy h :=
  fun past hpast => hroom past (hpast.trans (List.suffix_append ns h))

/-- There is room for all calls of a run in which no more arrive than there are numbers. -/
theorem roomy_of_length_le
    (hlength : (ledger (sessionFacts h)).arrivals.length ≤ UInt32.size) : Roomy h := by
  intro past hpast
  have hfacts : sessionFacts past <:+ sessionFacts h := hpast.filterMap Deed.fact?
  exact ((Session.length_arrivals_le hfacts).trans hlength).trans (Nat.le_add_left _ _)

/-- The invariant of a run. -/
structure Concluding (r : HostRun) (h : List Deed) : Prop where
  attending : Attending r h
  punctual : ∀ s, r.host.client.session = some s → Punctual s (sessionFacts h)
  closing : Roomy h → ∀ s, r.host.client.session = some s →
    Closing s (sessionFacts h) (dispatches h)

theorem Concluding.act (hc : Concluding r h) (a : Act) :
    Concluding (r.act a) (r.deeds a ++ h) := by
  have hserves := serves hc.attending.hosted a
  have hattending := hc.attending.act a
  generalize r.deeds a = ns at hserves hattending ⊢
  generalize r.act a = next at hserves hattending ⊢
  cases hs : r.host.client.session with
  | none =>
    -- Nothing was noted before the session begins.
    obtain rfl := hc.attending.absent hs
    obtain ⟨rfl, hbegins⟩ := hserves.begins hs
    refine ⟨hattending, ?_, ?_⟩
    · intro t ht
      obtain ⟨d, retry, rfl, -⟩ := hbegins t ht
      exact Session.punctual_init d.exported retry
    · intro _ t ht
      obtain ⟨d, retry, rfl, -⟩ := hbegins t ht
      exact Session.closing_init d.exported retry
  | some s =>
    obtain ⟨t, ht, hdeals⟩ := hserves.deals hc.attending.hosted hs
    have hsingle := (hc.attending.present s hs).1.single
    refine ⟨hattending, ?_, ?_⟩
    · intro u hu
      obtain rfl := Option.some.inj (ht.symm.trans hu)
      rw [sessionFacts_append]
      exact (hc.punctual s hs).deals hsingle hdeals
    · intro hroom u hu
      obtain rfl := Option.some.inj (ht.symm.trans hu)
      have hnow := hroom _ (List.suffix_refl _)
      rw [sessionFacts_append, dispatches_append] at hnow ⊢
      exact (hc.closing hroom.of_append s hs).deals hdeals hnow

theorem concluding_run (config : HostConfig) (transport : Transport) (world : World)
    (file : ScriptFile) (acts : List Act) :
    Concluding (attendance.run (fresh config transport world file) acts).1
      (attendance.run (fresh config transport world file) acts).2 := by
  have hstart : Concluding (fresh config transport world file) [] := by
    refine ⟨attending_run config transport world file [], ?_, ?_⟩
    · intro s hs
      cases hs
    · intro _ s hs
      cases hs
  exact attendance.run_invariant hstart (fun r h a hc => hc.act a) acts

end

/-! ## What a run makes of the calls that it dispatched -/

/-- In every run, no call is forwarded once the link is closed, and what is read and written goes
over the connection that is open. When a run has ended, and its session was not ended by force,
every call that was dispatched is answered, on the connection that it came on and in the order of
the dispatches, unless that connection was lost. The answers are matched by numbers of 32 bits, so
the run has to be roomy for this: at no time more than 2 ^ 32 calls that have arrived wait for their
dispatch. -/
theorem concluded (config : HostConfig) (transport : Transport) (world : World) (file : ScriptFile)
    (acts : List Act) :
    let p := attendance.run (fresh config transport world file) acts
    Throughout Timely (sessionFacts p.2) ∧
      (Roomy p.2 → p.1.isFinished = true → .forced ∉ sessionFacts p.2 →
        Answered (ledger (sessionFacts p.2)) (dispatches p.2)) := by
  intro p
  have hconcluding : Concluding p.1 p.2 := concluding_run config transport world file acts
  cases hs : p.1.host.client.session with
  | none =>
    rw [hconcluding.attending.absent hs]
    refine ⟨throughout_nil, fun _ _ _ => ⟨List.prefix_rfl, fun _ _ => rfl⟩⟩
  | some s =>
    refine ⟨(hconcluding.punctual s hs).timely, ?_⟩
    intro hroom hfinished hforced
    obtain ⟨status, hstage⟩ : ∃ status, p.1.stage = .finished status := by
      unfold isFinished at hfinished
      cases hstage : p.1.stage with
      | finished status => exact ⟨status, rfl⟩
      | _ => simp [hstage] at hfinished
    have hover := hconcluding.attending.hosted.finished status hstage s hs
    exact (hconcluding.closing hroom s hs).answered hover hforced

/-- A script whose method leaves the event loop, and returns a result. -/
def quitScript : Program where
  globals := [("ubus", .map
    [("methods", .map [("quit", .map [("cb", .function "quit" [])])]),
      ("object", .constant (.string "demo"))])]
  functions := [⟨"start", 0, [[]]⟩,
    ⟨"quit", 0, [[.native none "uloop_end" [], .give (.table [("n", .callCount)])]]⟩]

/-- A call is made and dispatched; another one waits on the connection when the loop is left. -/
def quitActs : List Act :=
  [.proceed, .move, .move, .beside (.call "alice" "demo" "quit" none), .move, .turn, .turn,
    .beside (.call "bob" "demo" "quit" none), .turn, .proceed, .move, .move, .move, .proceed]

/-- The call that left the loop is answered before the connection is dropped, and the other one does
not arrive. -/
theorem concluded_quit :
    let p := attendance.run (fresh {} (.memory {}) {} (.program quitScript)) quitActs
    (dispatches p.2).map (·.1.id) = [0] ∧
      ((ledger (sessionFacts p.2)).writtenTo 1).map (·.id) = [0] ∧
        Throughout Timely (sessionFacts p.2) ∧
          Answered (ledger (sessionFacts p.2)) (dispatches p.2) := by
  intro p
  have hdispatched : (dispatches p.2).map (·.1.id) = [0] := by decide +kernel
  have hwritten : ((ledger (sessionFacts p.2)).writtenTo 1).map (·.id) = [0] := by decide +kernel
  have hfinished : p.1.isFinished = true := by decide +kernel
  have hroom : Roomy p.2 := by
    apply roomy_of_length_le
    have hlength : (ledger (sessionFacts p.2)).arrivals.length = 1 := by decide +kernel
    rw [hlength]
    decide
  have hforced : .forced ∉ sessionFacts p.2 := by
    have hnone : ((sessionFacts p.2).all fun f => !(f matches .forced)) = true := by
      decide +kernel
    intro hmem
    cases List.all_eq_true.1 hnone _ hmem
  have hconcluded := concluded {} (.memory {}) {} (.program quitScript) quitActs
  exact ⟨hdispatched, hwritten, hconcluded.1, hconcluded.2 hroom hfinished hforced⟩

end HostRun
end ScriptService
