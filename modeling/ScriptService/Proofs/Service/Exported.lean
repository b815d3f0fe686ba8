import ScriptService.Bus.Memory
import ScriptService.Proofs.Attempt
import ScriptService.Proofs.Script.Formed
import ScriptService.Service

/-!
# What is exported

A service exports the methods that it can dispatch: a name is on the list that the bus gets exactly
if a call of it is not answered with "method not found". So the bus turns away by itself just the
calls that the host would turn away.

Main statement: `ServiceDeclaration.exported_iff_dispatched`.
-/

namespace ScriptService

/-! ## Reading a declaration -/

namespace Declaration

theorem fields_eq_ok {name : String} {v : Value} {given : Fields Value}
    (h : fields name v = .ok given) : v.map? = some given := by
  unfold fields at h
  cases hmap : v.map? with
  | none => rw [hmap] at h; cases h
  | some found =>
    rw [hmap] at h
    cases h
    rfl

theorem field_eq_ok {α : Type} {name : String} {given : Fields Value} {key expected : String}
    {view : Value → Option α} {a : α} (h : field name given key expected view = .ok a) :
    ∃ v, Fields.get? given key = some v ∧ view v = some a := by
  unfold field at h
  cases hget : Fields.get? given key with
  | none => rw [hget] at h; cases h
  | some v =>
    cases hview : view v with
    | none => rw [hget] at h; simp [hview] at h
    | some b =>
      rw [hget] at h
      simp only [hview] at h
      cases h
      exact ⟨v, rfl, hview⟩

end Declaration

namespace Value

/-- The methods that a global value declares. -/
def declaredMethods? (v : Value) : Option (Fields Value) := do
  (← Fields.get? (← v.map?) "methods").map?

/-- The function that a global value binds to a method: the `cb` of the field of that name. -/
def boundTo? (v : Value) (method : String) : Option Callback := do
  let entry ← Fields.get? (← v.declaredMethods?) method
  (← Fields.get? (← entry.map?) "cb").callback?

theorem WellFormed.declaredMethods? {v : Value} {methods : Fields Value} (hv : v.WellFormed)
    (h : v.declaredMethods? = some methods) : Fields.Ascending methods := by
  simp only [Value.declaredMethods?, Option.bind_eq_bind, Option.bind_eq_some_iff] at h
  obtain ⟨given, hgiven, entry, hentry, hmethods⟩ := h
  have hentries := hv.of_map? hgiven
  cases hentries with
  | map hnames hfields =>
    have hmap := (hfields _ (Fields.mem_of_get?_eq_some hentry)).of_map? hmethods
    cases hmap with
    | map hascending _ => exact hascending

end Value

namespace ServiceDeclaration

variable {v : Value} {d : ServiceDeclaration}

/-- What a declaration that can be used holds. -/
theorem ofValue?_eq_ok (h : ofValue? v = .ok d) :
    ∃ methods, v.declaredMethods? = some methods ∧ d.methods = methods.map methodOf := by
  obtain ⟨given, hfields, h⟩ := bind_eq_ok_iff.1 h
  obtain ⟨object, -, h⟩ := bind_eq_ok_iff.1 h
  obtain ⟨methods, hmethods, h⟩ := bind_eq_ok_iff.1 h
  cases h
  obtain ⟨entry, hentry, hmap⟩ := Declaration.field_eq_ok hmethods
  refine ⟨methods, ?_, rfl⟩
  simp [Value.declaredMethods?, Declaration.fields_eq_ok hfields, hentry, hmap]

/-- A method is looked up among the fields of the declaration. -/
theorem find?_map_methodOf (methods : Fields Value) (name : String) :
    (methods.map methodOf).find? (fun m => m.name == name) =
      (Fields.get? methods name).map fun entry => methodOf (name, entry) := by
  induction methods with
  | nil => rfl
  | cons f rest ih =>
    rcases f with ⟨n, entry⟩
    by_cases hn : n = name
    · subst hn
      simp [Fields.get?, methodOf]
    · have hother : (name == n) = false := by simpa using fun h => hn h.symm
      have hskip : ((methodOf (n, entry)).name == name) = false := by simpa [methodOf] using hn
      rw [List.map_cons, List.find?_cons, hskip, ih]
      simp [Fields.get?, List.lookup_cons, hother]

/-- A call runs the function that the global value binds to its method. -/
theorem callback?_of_ofValue? (h : ofValue? v = .ok d) (method : String) :
    d.callback? method = v.boundTo? method := by
  obtain ⟨methods, hdeclared, hmethods⟩ := ofValue?_eq_ok h
  unfold callback? method?
  rw [hmethods, find?_map_methodOf]
  cases hget : Fields.get? methods method with
  | none => simp [Value.boundTo?, hdeclared, hget]
  | some entry => simp [Value.boundTo?, hdeclared, hget, methodOf]

/-! ## What is exported -/

theorem names_sublist (d : ServiceDeclaration) :
    d.exported.methods.Sublist (d.methods.map (·.name)) :=
  List.Sublist.map _ List.filter_sublist

/-- The names of the methods are those of the fields. -/
theorem ascending_of_ofValue? (hv : v.WellFormed) (h : ofValue? v = .ok d) :
    (d.methods.map (·.name)).Pairwise (· < ·) := by
  obtain ⟨methods, hdeclared, hmethods⟩ := ofValue?_eq_ok h
  have hnames : d.methods.map (·.name) = Fields.keys methods := by
    rw [hmethods, List.map_map]
    rfl
  rw [hnames]
  exact hv.declaredMethods? hdeclared

/-- With distinct names, the first method of a name is the only one. -/
theorem mem_exported_iff {d : ServiceDeclaration} (hnames : (d.methods.map (·.name)).Nodup)
    {method : String} : method ∈ d.exported.methods ↔ d.callback? method ≠ none := by
  unfold exported callback? method?
  generalize d.methods = methods at hnames
  induction methods with
  | nil => simp
  | cons m rest ih =>
    rw [List.map_cons, List.nodup_cons] at hnames
    by_cases hm : m.name = method
    · -- No later method has the name.
      subst hm
      have hlater : m.name ∉ (rest.filter (·.callback.isSome)).map (·.name) :=
        fun hmem => hnames.1 ((List.Sublist.map _ List.filter_sublist).mem hmem)
      cases hbound : m.callback with
      | none => simpa [hbound] using hlater
      | some f => simp [hbound]
    · have hskip : (m.name == method) = false := by simpa using hm
      have hhead : method ∈ ((m :: rest).filter (·.callback.isSome)).map (·.name) ↔
          method ∈ (rest.filter (·.callback.isSome)).map (·.name) := by
        cases hbound : m.callback with
        | none => simp [hbound]
        | some f => simp [hbound, Ne.symm hm]
      rw [List.find?_cons, hskip]
      exact hhead.trans (ih hnames.2)

end ServiceDeclaration

/-! ## What is dispatched -/

namespace Dispatch

variable {σ : Type} {natives : Natives σ}

theorem run_status_eq_iff {d : ServiceDeclaration} {method : String} {data : Option Table}
    {m : Machine σ} :
    (run natives d method data m).1.status = .methodNotFound ↔ d.callback? method = none := by
  unfold run
  cases d.callback? method with
  | none => simp
  | some f =>
    simp only
    split <;> simp

end Dispatch

namespace MemoryBus

/-- The bus answers a call of a registered object by itself if the object does not have the method.
Otherwise nobody is given a reply. -/
theorem call_eq_tell_iff {bus : MemoryBus} {object : String} {reg : Registration}
    (hreg : bus.registration? object = some reg) (caller : Caller) (method : String)
    (data : Option Table) :
    bus.call caller object method data =
        bus.tell caller (.replied ⟨bus.nextId, .methodNotFound, none⟩) ↔
      method ∉ reg.object.methods := by
  have hhas : reg.object.hasMethod method = true ↔ method ∈ reg.object.methods := by
    simp [ObjectSpec.hasMethod]
  rw [← hhas]
  unfold call
  constructor
  · intro heq hmethod
    simp only [hreg, hmethod, if_true] at heq
    cases hend : bus.endpoint? reg.owner with
    | none =>
      rw [hend] at heq
      simp [tell] at heq
    | some e =>
      -- A call that is accepted gets a number, and the next one is another.
      rw [hend] at heq
      have hid := congrArg MemoryBus.nextId heq
      simp [tell] at hid
  · intro hmethod
    simp [hreg, hmethod]

end MemoryBus

namespace ServiceDeclaration

/-- A method is exported exactly if a call of it is dispatched; the names that are exported are
distinct and in order. So a bus on which the service is registered answers just those calls by
itself with "method not found" that the host would answer so. -/
theorem exported_iff_dispatched {v : Value} (hv : v.WellFormed) {d : ServiceDeclaration}
    (hd : ofValue? v = .ok d) {σ : Type} (natives : Natives σ) :
    (∀ method data m,
      method ∈ d.exported.methods ↔
        (Dispatch.run natives d method data m).1.status ≠ .methodNotFound) ∧
      d.exported.methods.Nodup ∧ d.exported.methods.Pairwise (· < ·) ∧
      ∀ (bus : MemoryBus) (reg : Registration), bus.registration? d.object = some reg →
        reg.object = d.exported → ∀ caller method data id m,
          bus.call caller d.object method data =
              bus.tell caller (.replied ⟨bus.nextId, .methodNotFound, none⟩) ↔
            (Dispatch.answer natives d ⟨id, d.object, method, data⟩ m).1.status =
              .methodNotFound := by
  have hascending := ascending_of_ofValue? hv hd
  have hnames : (d.methods.map (·.name)).Nodup := hascending.nodup
  have hexported : ∀ method (data : Option Table) (m : Machine σ), method ∈ d.exported.methods ↔
      (Dispatch.run natives d method data m).1.status ≠ .methodNotFound := by
    intro method data m
    rw [Ne, Dispatch.run_status_eq_iff]
    exact mem_exported_iff hnames
  refine ⟨hexported, hnames.sublist d.names_sublist, hascending.sublist d.names_sublist, ?_⟩
  intro bus reg hreg hobject caller method data id m
  rw [MemoryBus.call_eq_tell_iff hreg, hobject, hexported method data m, Ne, Decidable.not_not]
  simp [Dispatch.answer]

/-- A global value with a method bound to a function and two that are not. -/
def sampleGlobal : Value :=
  .map [("methods", .map [("broken", .map [("cb", .int 7)]), ("odd", .unit),
      ("ping", .shared (.map [("cb", .function "pong" [])]))]),
    ("object", .string "demo")]

theorem sampleGlobal_wellFormed : sampleGlobal.WellFormed := by
  have hping : Value.WellFormed (.shared (.map [("cb", .function "pong" [])])) := by
    refine .shared (.map (List.pairwise_singleton _ _) ?_)
    simp only [List.forall_mem_singleton]
    exact .function "pong" (by simp)
  have hbroken : Value.WellFormed (.map [("cb", .int 7)]) := by
    refine .map (List.pairwise_singleton _ _) ?_
    simp only [List.forall_mem_singleton]
    exact .int 7
  have hmethods : Value.WellFormed (.map [("broken", .map [("cb", .int 7)]), ("odd", .unit),
      ("ping", .shared (.map [("cb", .function "pong" [])]))]) := by
    refine .map (by simp only [Fields.Ascending, Fields.keys]; decide) ?_
    simp only [List.forall_mem_cons]
    exact ⟨hbroken, .unit, hping, by simp⟩
  refine .map (by simp only [Fields.Ascending, Fields.keys]; decide) ?_
  simp only [List.forall_mem_cons]
  exact ⟨hmethods, .string "demo", by simp⟩

/-- The bus on which the service of the sample is registered. -/
def sampleBus : MemoryBus := (({} : MemoryBus).connect.2.addObject 1 ⟨"demo", ["ping"]⟩).2

theorem exported_iff_dispatched_sample :
    ∃ d, ofValue? sampleGlobal = .ok d ∧ d.exported.methods = ["ping"] ∧
      sampleBus.call "alice" "demo" "broken" none =
        sampleBus.tell "alice" (.replied ⟨0, .methodNotFound, none⟩) := by
  have hexported := exported_iff_dispatched sampleGlobal_wellFormed rfl
    (⟨fun _ _ _ => none, fun _ s => s, fun _ => []⟩ : Natives Unit)
  have hcalled := hexported.2.2.2 sampleBus ⟨⟨"demo", ["ping"]⟩, 1⟩ rfl rfl
  exact ⟨_, rfl, rfl, (hcalled "alice" "broken" none 0 ⟨{}, ()⟩).2 rfl⟩

end ServiceDeclaration
end ScriptService
