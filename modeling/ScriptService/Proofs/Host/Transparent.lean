import ScriptService.Proofs.Host.Timers
import ScriptService.Proofs.Script.Cells

/-!
# Values in shared cells

A script may put any part of a value into a shared cell; it does so whenever a closure captures a
variable. Nothing that the host does with a value depends on it: payloads, declarations, tables,
timers and their functions come out the same. Only what is merely stored keeps its cells.

Main statement: `Value.transparent`.
-/

namespace ScriptService

/-! ## Declarations -/

namespace Declaration

theorem fields_erase (name : String) (v : Value) :
    fields name v.erase = (fields name v).map Value.eraseFields := by
  rw [fields, fields, Value.map?_erase]
  cases v.map? with
  | none => rfl
  | some given => rfl

/-- A field can be read before or after the cells are removed if its view can. -/
theorem field_erase {α : Type} {view : Value → Option α} {g : α → α}
    (hview : ∀ v : Value, view v.erase = (view v).map g) (name : String) (given : Fields Value)
    (key expected : String) :
    field name (Value.eraseFields given) key expected view =
      (field name given key expected view).map g := by
  rw [field, field, Value.get?_eraseFields]
  cases Fields.get? given key with
  | none => rfl
  | some v =>
    simp only [Option.map_some, hview]
    cases view v with
    | none => rfl
    | some a => rfl

theorem string_erase (name : String) (given : Fields Value) (key : String) :
    field name (Value.eraseFields given) key "a string" Value.string? =
      field name given key "a string" Value.string? := by
  have hview : ∀ v : Value, v.erase.string? = v.string?.map id := by
    intro v
    rw [Value.string?_erase, Option.map_id_fun, id]
  rw [field_erase hview]
  cases field name given key "a string" Value.string? with
  | error e => rfl
  | ok s => rfl

end Declaration

/-- A method without the shared cells in what its function holds. -/
def Method.erase (m : Method) : Method := ⟨m.name, m.callback.map Callback.erase⟩

namespace ServiceDeclaration

/-- A declaration without the shared cells in what its functions hold. -/
def erase (d : ServiceDeclaration) : ServiceDeclaration :=
  ⟨d.object, d.methods.map Method.erase, d.connect.map Callback.erase⟩

theorem callbackAt_erase (given : Fields Value) (key : String) :
    (Fields.get? (Value.eraseFields given) key).bind Value.callback? =
      ((Fields.get? given key).bind Value.callback?).map Callback.erase := by
  rw [Value.get?_eraseFields]
  cases Fields.get? given key with
  | none => rfl
  | some v => exact Value.callback?_erase v

theorem methodOf_erase (name : String) (v : Value) :
    methodOf (name, v.erase) = (methodOf (name, v)).erase := by
  show Method.mk name (v.erase.map?.bind fun given =>
      (Fields.get? given "cb").bind Value.callback?) =
    ⟨name, (v.map?.bind fun given => (Fields.get? given "cb").bind Value.callback?).map
      Callback.erase⟩
  rw [Value.map?_erase]
  cases v.map? with
  | none => rfl
  | some given => exact congrArg (Method.mk name) (callbackAt_erase given "cb")

/-- The declaration of a service can be read before or after the cells are removed. -/
theorem ofValue?_erase (v : Value) : ofValue? v.erase = (ofValue? v).map erase := by
  unfold ofValue?
  rw [Declaration.fields_erase]
  cases Declaration.fields global v with
  | error e => rfl
  | ok given =>
    show (Declaration.field global (Value.eraseFields given) "object" "a string" Value.string? >>=
      _) = Except.map erase
        (Declaration.field global given "object" "a string" Value.string? >>= _)
    rw [Declaration.string_erase]
    cases Declaration.field global given "object" "a string" Value.string? with
    | error e => rfl
    | ok object =>
      show (Declaration.field global (Value.eraseFields given) "methods" "an object map"
        Value.map? >>= _) = Except.map erase
          (Declaration.field global given "methods" "an object map" Value.map? >>= _)
      rw [Declaration.field_erase Value.map?_erase]
      cases Declaration.field global given "methods" "an object map" Value.map? with
      | error e => rfl
      | ok methods =>
        have hmethods : (Value.eraseFields methods).map methodOf =
            (methods.map methodOf).map Method.erase := by
          rw [Value.eraseFields_eq_map, List.map_map, List.map_map]
          exact List.map_congr_left fun f _ => methodOf_erase f.1 f.2
        show Except.ok (ServiceDeclaration.mk object ((Value.eraseFields methods).map methodOf)
          ((Fields.get? (Value.eraseFields given) "connect").bind Value.callback?)) = _
        rw [hmethods, callbackAt_erase]
        rfl

end ServiceDeclaration

/-- The declaration of a log can be read before or after the cells are removed. -/
theorem LogDeclaration.ofValue?_erase (v : Value) : ofValue? v.erase = ofValue? v := by
  unfold ofValue?
  rw [Declaration.fields_erase]
  cases Declaration.fields global v with
  | error e => rfl
  | ok given =>
    show (Declaration.field global (Value.eraseFields given) "identity" "a string" Value.string?
      >>= _) = (Declaration.field global given "identity" "a string" Value.string? >>= _)
    rw [Declaration.string_erase]
    cases Declaration.field global given "identity" "a string" Value.string? with
    | error e => rfl
    | ok identity =>
      show (Declaration.field global (Value.eraseFields given) "channels" "an array of strings"
        Value.array? >>= _) =
          (Declaration.field global given "channels" "an array of strings" Value.array? >>= _)
      rw [Declaration.field_erase Value.array?_erase]
      cases Declaration.field global given "channels" "an array of strings" Value.array? with
      | error e => rfl
      | ok names =>
        have hnames : (Value.eraseItems names).filterMap Value.string? =
            names.filterMap Value.string? := by
          rw [Value.eraseItems_eq_map, List.filterMap_map]
          exact List.filterMap_congr fun w _ => Value.string?_erase w
        show Except.ok (LogDeclaration.mk identity
          (.ofNames ((Value.eraseItems names).filterMap Value.string?))) = _
        rw [hnames]
        rfl

/-! ## Timers -/

/-- A timer without the shared cells in what its function holds. -/
def Timer.erase (t : Timer) : Timer := { t with callback := t.callback.erase }

namespace Resources

/-- The resources without the shared cells in what the functions of timers hold. -/
def eraseTimers (r : Resources) : Resources :=
  { r with timers := { r.timers with timers := r.timers.timers.map Timer.erase } }

/-- The delay of a timer may be in a cell. -/
theorem timeout_delay {v w : Value} (h : w.erase = v.erase) (callback : Value)
    (attached : Option Value) (r : Resources) :
    r.timeout callback w attached = r.timeout callback v attached := by
  rw [timeout, timeout, ← Value.int?_erase w, h, Value.int?_erase]

/-- So may its function, and what the function holds. -/
theorem timeout_callback {v w : Value} (h : w.erase = v.erase) (delay : Value)
    (attached : Option Value) (r : Resources) :
    (r.timeout w delay attached).1 = (r.timeout v delay attached).1 ∧
      (r.timeout w delay attached).2.eraseTimers = (r.timeout v delay attached).2.eraseTimers := by
  have hcallback : w.callback?.map Callback.erase = v.callback?.map Callback.erase := by
    rw [← Value.callback?_erase, h, Value.callback?_erase]
  rw [timeout, timeout]
  cases hv : v.callback? with
  | none =>
    rw [hv, Option.map_none, Option.map_eq_none_iff] at hcallback
    rw [hcallback]
    exact ⟨rfl, rfl⟩
  | some f =>
    rw [hv, Option.map_some, Option.map_eq_some_iff] at hcallback
    obtain ⟨f', hw, herase⟩ := hcallback
    rw [hw]
    cases delay.int? with
    | none => exact ⟨rfl, rfl⟩
    | some d =>
      refine ⟨rfl, ?_⟩
      -- The lists of timers differ in the last entry only.
      simp only [eraseTimers, TimerList.schedule, List.map_append, List.map_singleton, Timer.erase,
        herase]

end Resources

/-- The integer that a timer's function returned may be in a cell. -/
theorem HostRun.timerEnded_ok {v w : Value} (h : w.erase = v.erase) (id : Nat) (host : Host) :
    timerEnded id (.ok w, host) = timerEnded id (.ok v, host) := by
  unfold timerEnded
  simp only
  rw [← Value.int?_erase w, h, Value.int?_erase]

/-! ## The law -/

namespace Value

/-- All that is made of one value is made of another one, up to the cells in what is stored. -/
structure Transparent (v w : Value) : Prop where
  sent : w.toAttribute? = v.toAttribute?
  payload : w.toTable? = v.toTable?
  callback : w.callback?.map Callback.erase = v.callback?.map Callback.erase
  service : (ServiceDeclaration.ofValue? w).map ServiceDeclaration.erase =
    (ServiceDeclaration.ofValue? v).map ServiceDeclaration.erase
  log : LogDeclaration.ofValue? w = LogDeclaration.ofValue? v
  /-- A list of pairs makes the same table, or is refused for the same reason. -/
  pairs : w.array?.map (fun items => (tableOfPairs items).map eraseFields) =
    v.array?.map fun items => (tableOfPairs items).map eraseFields
  built : ∀ fields, ((TableCall.build (some w)).run fields).map TableCall.eraseResult =
    ((TableCall.build (some v)).run fields).map TableCall.eraseResult
  delay : ∀ callback attached (r : Resources),
    r.timeout callback w attached = r.timeout callback v attached
  timeout : ∀ delay attached (r : Resources),
    (r.timeout w delay attached).1 = (r.timeout v delay attached).1 ∧
      (r.timeout w delay attached).2.eraseTimers = (r.timeout v delay attached).2.eraseTimers
  /-- A timer whose function returned one of the values goes on as if it had returned the other. -/
  rearmed : ∀ (g g' h : Host) (id : Nat) (t t' : Timer),
    g.resources.timers.get? id = some t → g.call t.callback t.attached.toList [] = (.ok v, h) →
      g'.resources.timers.get? id = some t' →
        g'.call t'.callback t'.attached.toList [] = (.ok w, h) → g'.fireTimer id = g.fireTimer id

theorem transparent_of_erase_eq {v w : Value} (h : w.erase = v.erase) : Transparent v w where
  sent := by rw [← toAttribute?_erase, h, toAttribute?_erase]
  payload := by rw [← toTable?_erase, h, toTable?_erase]
  callback := by rw [← callback?_erase, h, callback?_erase]
  service := by rw [← ServiceDeclaration.ofValue?_erase, h, ServiceDeclaration.ofValue?_erase]
  log := by rw [← LogDeclaration.ofValue?_erase, h, LogDeclaration.ofValue?_erase]
  pairs := by
    have hmade : ∀ u : Value, u.array?.map (fun items => (tableOfPairs items).map eraseFields) =
        u.erase.array?.map tableOfPairs := by
      intro u
      rw [array?_erase, Option.map_map]
      exact congrArg (Option.map · u.array?) (funext fun items => (tableOfPairs_erase items).symm)
    rw [hmade, h, ← hmade]
  built fields := by rw [← TableCall.run_build_erase, h, TableCall.run_build_erase]
  delay := Resources.timeout_delay h
  timeout := Resources.timeout_callback h
  rearmed g g' host id t t' hget hcall hget' hcall' := by
    rw [HostRun.fireTimer_eq hget, HostRun.fireTimer_eq hget', hcall, hcall',
      HostRun.timerEnded_ok h]

/-- Whichever parts of a value are put into shared cells, all that is made of it is the same. -/
theorem transparent {v w : Value} (h : Wraps v w) : Transparent v w :=
  transparent_of_erase_eq h.erase_eq

/-- The declaration of a service whose name, whose function's curried value and which as a whole sit
in shared cells. -/
theorem transparent_declaration :
    let ping := fun (curried : Value) => Value.map [("cb", .function "pong" [curried])]
    let declared := fun (curried object : Value) =>
      Value.map [("methods", .map [("ping", ping curried)]), ("object", object)]
    let v := declared (.int 1) (.string "demo")
    let w := Value.shared (declared (.shared (.int 1)) (.shared (.string "demo")))
    Wraps v w ∧ ServiceDeclaration.ofValue? w =
      .ok ⟨"demo", [⟨"ping", some ⟨"pong", [.shared (.int 1)]⟩⟩], none⟩ ∧ Transparent v w := by
  intro ping declared v w
  have hobject : WrapsOne v (declared (.int 1) (.shared (.string "demo"))) :=
    .mapField [("methods", .map [("ping", ping (.int 1))])] "object" [] (.here _)
  have hcurried : WrapsOne (declared (.int 1) (.shared (.string "demo")))
      (declared (.shared (.int 1)) (.shared (.string "demo"))) :=
    .mapField [] "methods" [("object", .shared (.string "demo"))]
      (.mapField [] "ping" [] (.mapField [] "cb" [] (.curried "pong" [] [] (.here _))))
  have hwraps : Wraps v w := ((Relation.ReflTransGen.single hobject).tail hcurried).tail (.here _)
  exact ⟨hwraps, rfl, transparent hwraps⟩

end Value
end ScriptService
