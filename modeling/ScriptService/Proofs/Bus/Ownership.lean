import ScriptService.Proofs.Bus.Outcomes

/-!
# Ownership of a name

One client of the bus publishes an object under a name that no other client uses. While it holds a
connection, the name is registered on that connection or not at all, and the calls of the object
that have no outcome wait there; when it drops the connection, none of them is left.

Main statements: `MemoryBus.Owned.act` and `MemoryBus.Owned.drop`.
-/

namespace ScriptService.MemoryBus

/-! ## What an act can add -/

theorem mem_of_registration? {bus : MemoryBus} {object : String} {reg : Registration}
    (h : bus.registration? object = some reg) :
    reg ∈ bus.registrations ∧ reg.object.name = object :=
  ⟨List.mem_of_find?_eq_some h, by simpa using List.find?_some h⟩

/-- Only registering an object adds a registration. -/
theorem mem_registrations_act {bus : MemoryBus} {m : Act} {reg : Registration}
    (h : reg ∈ (bus.act m).registrations) :
    reg ∈ bus.registrations ∨ ∃ c object, m = .addObject c object ∧ reg = ⟨object, c⟩ := by
  cases m with
  | connect => exact Or.inl h
  | addObject c object =>
    rcases bus.addObject_cases c object with ⟨hact, -⟩ | ⟨e, -, -, hact, -⟩
    · rw [hact] at h
      exact Or.inl h
    · rw [hact] at h
      rcases List.mem_append.1 h with hold | hnew
      · exact Or.inl (List.mem_filter.1 hold).1
      · exact Or.inr ⟨c, object, rfl, List.mem_singleton.1 hnew⟩
  | receive c =>
    rcases bus.receive_cases c with ⟨hact, -, -⟩ | ⟨e, r, rest, -, -, hreceive, -⟩
    · rw [hact] at h
      exact Or.inl h
    · rw [act, hreceive] at h
      exact Or.inl h
  | reply c r =>
    simp only [act, reply] at h
    split at h
    · exact Or.inl h
    · exact Or.inl h
  | drop c => exact Or.inl (List.mem_filter.1 h).1
  | call caller object method data =>
    rcases bus.call_cases caller object method data with ⟨outcome, -, hcall⟩ |
      ⟨reg', e, -, -, -, -, hcall⟩
    · rw [act, hcall] at h
      exact Or.inl h
    · rw [act, hcall] at h
      exact Or.inl h
  | await caller object =>
    simp only [act, awaitObject] at h
    split at h
    · exact Or.inl h
    · exact Or.inl h
  | disconnectAll => cases h

theorem mem_registrations_drop {bus : MemoryBus} {c : ConnectionId} {reg : Registration}
    (h : reg ∈ (bus.act (.drop c)).registrations) : reg ∈ bus.registrations ∧ reg.owner ≠ c := by
  have hmem := List.mem_filter.1 h
  exact ⟨hmem.1, by simpa using hmem.2⟩

/-- What the notes of an act say. -/
inductive Noted (bus : MemoryBus) (m : Act) : Note → Prop where
  /-- The call went to the owner of a registration of its object. -/
  | accepted (a : Call) (reg : Registration) (hreg : reg ∈ bus.registrations)
      (hname : reg.object.name = a.request.object) (howner : reg.owner = a.owner) :
      Noted bus m (.accepted a)
  | failed (caller : Caller) (object method : String) (e : BusError) :
      Noted bus m (.rejected caller object method (.failed e))
  /-- The bus itself replies that the object has no such method. -/
  | refused (caller : Caller) (object method : String) (r : Reply) (reg : Registration)
      (hreg : reg ∈ bus.registrations) (hname : reg.object.name = object)
      (hmethod : reg.object.hasMethod method = false) :
      Noted bus m (.rejected caller object method (.replied r))
  | received (c : ConnectionId) (r : Request) : Noted bus m (.received c r)
  | cut (w : WaitingCall) : Noted bus m (.answered w.id w.caller (.failed .disconnected))
  | replied (c : ConnectionId) (r : Reply) (w : WaitingCall) (hm : m = .reply c r)
      (hw : w ∈ bus.waiting) (hid : w.id = r.id) :
      Noted bus m (.answered r.id w.caller (.replied r))
  | told (caller : Caller) (methods : List String) : Noted bus m (.told caller methods)
  | lost (c : Option ConnectionId) : Noted bus m (.lost c)

theorem noted_of_failNotes {bus : MemoryBus} {m : Act} {which : WaitingCall → Bool} {n : Note}
    (h : n ∈ bus.failNotes which) : Noted bus m n := by
  rcases mem_failNotes.1 h with ⟨w, -, -, rfl⟩
  exact .cut w

theorem noted_of_callNotes {bus : MemoryBus} {m : Act} {caller : Caller} {object method : String}
    {data : Option Table} {n : Note} (h : n ∈ bus.callNotes caller object method data) :
    Noted bus m n := by
  unfold callNotes at h
  cases hreg : bus.registration? object with
  | none =>
    rw [hreg] at h
    rw [List.mem_singleton.1 h]
    exact .failed ..
  | some reg =>
    have hfound := mem_of_registration? hreg
    rw [hreg] at h
    cases hmethod : reg.object.hasMethod method with
    | false =>
      simp only [hmethod, Bool.false_eq_true, if_false] at h
      rw [List.mem_singleton.1 h]
      exact .refused _ _ _ _ reg hfound.1 hfound.2 hmethod
    | true =>
      simp only [hmethod, if_true] at h
      split at h
      · rw [List.mem_singleton.1 h]
        exact .failed ..
      · rcases List.mem_cons.1 h with rfl | hfail
        · exact .accepted _ reg hfound.1 hfound.2 rfl
        · exact noted_of_failNotes hfail

theorem noted {bus : MemoryBus} {m : Act} {n : Note} (h : n ∈ bus.notes m) : Noted bus m n := by
  cases m with
  | connect => cases h
  | addObject c object =>
    rcases bus.addObject_cases c object with ⟨-, hnotes⟩ | ⟨e, -, -, -, hnotes⟩
    · rw [hnotes] at h
      cases h
    · rw [hnotes, List.mem_reverse] at h
      rcases List.mem_map.1 h with ⟨w, -, rfl⟩
      exact .told ..
  | receive c =>
    rcases bus.receive_cases c with ⟨-, hnotes, -⟩ | ⟨e, r, rest, -, -, -, hnotes⟩
    · rw [hnotes] at h
      cases h
    · rw [hnotes] at h
      rw [List.mem_singleton.1 h]
      exact .received c r
  | reply c r =>
    cases hw : bus.waiting.find? fun w => w.id == r.id with
    | none =>
      simp only [notes, hw] at h
      cases h
    | some w =>
      have hid : w.id = r.id := by simpa using List.find?_some hw
      simp only [notes, hw] at h
      rw [List.mem_singleton.1 h]
      exact .replied c r w rfl (List.mem_of_find?_eq_some hw) hid
  | drop c =>
    rcases List.mem_append.1 h with hfail | hlost
    · exact noted_of_failNotes hfail
    · rw [List.mem_singleton.1 hlost]
      exact .lost _
  | call caller object method data => exact noted_of_callNotes h
  | await caller object =>
    cases hm : bus.methods? object with
    | none =>
      simp only [notes, hm] at h
      cases h
    | some methods =>
      simp only [notes, hm] at h
      rw [List.mem_singleton.1 h]
      exact .told ..
  | disconnectAll =>
    rcases List.mem_append.1 h with hfail | hlost
    · exact noted_of_failNotes hfail
    · rw [List.mem_singleton.1 hlost]
      exact .lost _

/-- A waiting call gets a reply only from one who replies under its number. -/
theorem replied_of_answered {bus : MemoryBus} {m : Act} {id : RequestId} {caller : Caller}
    {q : Reply} (h : .answered id caller (.replied q) ∈ bus.notes m) :
    id = q.id ∧ ∃ c, m = .reply c q ∧ ∃ w ∈ bus.waiting, w.id = q.id ∧ w.caller = caller := by
  cases noted h with
  | replied c q w hm hw hid => exact ⟨rfl, c, hm, w, hw, hid, rfl⟩

/-- A call that has no outcome after an act had none before, unless the act accepted it. -/
theorem mem_openCalls_act {bus : MemoryBus} {m : Act} {h : List Note} {a : Call}
    (ha : a ∈ openCalls (bus.notes m ++ h)) :
    a ∈ openCalls h ∨
      ∃ reg ∈ bus.registrations, reg.object.name = a.request.object ∧ reg.owner = a.owner := by
  have hopen := mem_openCalls.1 ha
  rw [calls_append, answeredIds_append] at hopen
  rcases List.mem_append.1 hopen.1 with hold | hnew
  · exact Or.inl (mem_openCalls.2 ⟨hold, fun hid => hopen.2 (List.mem_append_right _ hid)⟩)
  · cases noted (mem_calls.1 hnew) with
    | accepted _ reg hreg hname howner => exact Or.inr ⟨reg, hreg, hname, howner⟩

/-- Dropping a connection leaves no call that waits for it. -/
theorem owner_ne_of_drop {bus : MemoryBus} {h : List Note} (hr : Resolved bus h)
    {c : ConnectionId} {a : Call} (ha : a ∈ openCalls (bus.notes (.drop c) ++ h)) :
    a ∈ openCalls h ∧ a.owner ≠ c := by
  have hnone : calls (bus.notes (.drop c)) = [] := by
    simp [notes, calls_append, calls_failNotes, calls]
  have hopen := mem_openCalls.1 ha
  rw [calls_append, hnone, List.append_nil, answeredIds_append] at hopen
  have hbefore : a.request.id ∉ answeredIds h := fun hid => hopen.2 (List.mem_append_right _ hid)
  refine ⟨mem_openCalls.2 ⟨hopen.1, hbefore⟩, ?_⟩
  -- A call that waited for the connection has failed.
  intro howner
  apply hopen.2
  rw [notes, answeredIds_append]
  refine List.mem_append_left _ (List.mem_append_left _ ?_)
  rw [mem_answeredIds_failNotes]
  exact ⟨a.waiting, hr.mem_waiting.2 ⟨a, hopen.1, hbefore, rfl⟩, by simp [Call.waiting, howner],
    rfl⟩

/-! ## The invariant -/

/-- The name belongs to the client that holds the connection `held` and publishes `object`. -/
structure Owned (name : String) (held : Option ConnectionId) (object : Option ObjectSpec)
    (bus : MemoryBus) (h : List Note) : Prop where
  registrations : ∀ reg ∈ bus.registrations, reg.object.name = name →
    held = some reg.owner ∧ object = some reg.object
  waiting : ∀ a ∈ openCalls h, a.request.object = name → held = some a.owner
  /-- The bus itself replies only to calls of methods that the object does not have. -/
  refused : ∀ caller method r, .rejected caller name method (.replied r) ∈ h →
    ∃ spec, object = some spec ∧ spec.hasMethod method = false

theorem owned_init (name : String) : Owned name none none {} [] where
  registrations := fun reg hreg => by cases hreg
  waiting := fun a ha => by cases ha
  refused := fun caller method r hmem => by cases hmem

section

variable {name : String} {held : Option ConnectionId} {object : Option ObjectSpec}
  {bus : MemoryBus} {h : List Note}

/-- Every act keeps the invariant, if nobody but the owner of the name registers it. -/
theorem Owned.act (ho : Owned name held object bus h) (m : Act)
    (hadd : ∀ c spec, m = .addObject c spec → spec.name = name →
      held = some c ∧ object = some spec) :
    Owned name held object (bus.act m) (bus.notes m ++ h) where
  registrations := by
    intro reg hreg hname
    rcases mem_registrations_act hreg with hold | ⟨c, spec, hm, rfl⟩
    · exact ho.registrations reg hold hname
    · exact hadd c spec hm hname
  waiting := by
    intro a ha hname
    rcases mem_openCalls_act ha with hold | ⟨reg, hreg, hobject, howner⟩
    · exact ho.waiting a hold hname
    · -- A call that was accepted went to whoever has the name.
      rw [← howner]
      exact (ho.registrations reg hreg (hobject.trans hname)).1
  refused := by
    intro caller method r hmem
    rcases List.mem_append.1 hmem with hnew | hold
    · cases noted hnew with
      | refused _ _ _ _ reg hreg hname hmethod =>
        exact ⟨reg.object, (ho.registrations reg hreg hname).2, hmethod⟩
    · exact ho.refused caller method r hold

/-- The owner of the name drops its connection; it may hold any other one afterwards. -/
theorem Owned.drop {c : ConnectionId} (ho : Owned name (some c) object bus h)
    (hr : Resolved bus h) (held' : Option ConnectionId) :
    Owned name held' object (bus.act (.drop c)) (bus.notes (.drop c) ++ h) where
  registrations := by
    intro reg hreg hname
    have hkept := mem_registrations_drop hreg
    have howner := (ho.registrations reg hkept.1 hname).1
    exact absurd (Option.some.inj howner).symm hkept.2
  waiting := by
    intro a ha hname
    have hkept := owner_ne_of_drop hr ha
    exact absurd (Option.some.inj (ho.waiting a hkept.1 hname)).symm hkept.2
  refused := (ho.act (.drop c) (by simp)).refused

/-- While no connection is held, nothing of the name is on the bus. -/
theorem Owned.take (ho : Owned name none object bus h) (held' : Option ConnectionId) :
    Owned name held' object bus h where
  registrations := fun reg hreg hname => by cases (ho.registrations reg hreg hname).1
  waiting := fun a ha hname => by cases ho.waiting a ha hname
  refused := ho.refused

/-- An object is published for the first time. -/
theorem Owned.publish (ho : Owned name held none bus h) (spec : ObjectSpec) :
    Owned name held (some spec) bus h where
  registrations := fun reg hreg hname => by cases (ho.registrations reg hreg hname).2
  waiting := ho.waiting
  refused := fun caller method r hmem => by
    rcases ho.refused caller method r hmem with ⟨spec', hspec, -⟩
    cases hspec

end

end ScriptService.MemoryBus
