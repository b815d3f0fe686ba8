import ScriptService.Bus.Memory
import ScriptService.Proofs.History

/-!
# Calls on the in-process bus

Clients and callers act on the bus in any order. The history of a run tells which calls were
accepted for which connection, which were taken from a connection, and how each was answered.

Main statements: every act keeps the numbers of calls (`MemoryBus.Numbered`), what stands in the
inboxes (`MemoryBus.Boxed`) and the answers (`MemoryBus.answers_act`) in step with the history.
-/

namespace ScriptService.MemoryBus

/-- What can happen on the bus. -/
inductive Act where
  | connect
  | addObject (c : ConnectionId) (object : ObjectSpec)
  | receive (c : ConnectionId)
  | reply (c : ConnectionId) (r : Reply)
  | drop (c : ConnectionId)
  | call (caller : Caller) (object method : String) (data : Option Table)
  | await (caller : Caller) (object : String)
  | disconnectAll
  deriving Inhabited

def act (bus : MemoryBus) : Act → MemoryBus
  | .connect => bus.connect.2
  | .addObject c object => (bus.addObject c object).2
  | .receive c => (bus.receive c).2
  | .reply _ r => bus.reply r
  | .drop c => bus.drop c
  | .call caller object method data => bus.call caller object method data
  | .await caller object => bus.awaitObject caller object
  | .disconnectAll => bus.disconnectAll

/-- An accepted call. -/
structure Call where
  caller : Caller
  /-- The connection that the object belonged to when the call was made. -/
  owner : ConnectionId
  request : Request
  deriving Inhabited

/-- What is noted of a run. -/
inductive Note where
  /-- A call was put at the end of its owner's inbox. -/
  | accepted (call : Call)
  /-- The bus itself gave a caller its outcome. -/
  | rejected (caller : Caller) (object method : String) (outcome : Outcome)
  /-- A connection took a call from its inbox. -/
  | received (c : ConnectionId) (r : Request)
  /-- A waiting call was given its outcome. -/
  | answered (id : RequestId) (caller : Caller) (outcome : Outcome)
  /-- A caller was told of an object that it waited for. -/
  | told (caller : Caller) (methods : List String)
  /-- A connection was lost, or every connection. -/
  | lost (c : Option ConnectionId)
  deriving Inhabited

/-- The notes of the waiting calls that meet a condition and fail, latest first. -/
def failNotes (bus : MemoryBus) (which : WaitingCall → Bool) : List Note :=
  ((bus.waiting.filter which).map fun w => .answered w.id w.caller (.failed .disconnected)).reverse

/-- The notes of a call, latest first. -/
def callNotes (bus : MemoryBus) (caller : Caller) (object method : String)
    (data : Option Table) : List Note :=
  match bus.registration? object with
  | none => [.rejected caller object method (.failed (.noSuchObject object))]
  | some r =>
    if r.object.hasMethod method then
      match bus.endpoint? r.owner with
      | none => [.rejected caller object method (.failed .disconnected)]
      | some _ =>
        .accepted ⟨caller, r.owner, ⟨bus.nextId, object, method, data⟩⟩ ::
          bus.failNotes fun w => w.id == bus.nextId
    else [.rejected caller object method (.replied ⟨bus.nextId, .methodNotFound, none⟩)]

/-- The notes of an act, latest first. -/
def notes (bus : MemoryBus) : Act → List Note
  | .connect => []
  | .addObject c object =>
    match (bus.addObject c object).1 with
    | .ok _ =>
      ((bus.watchers.filter fun w => w.2 == object.name).map fun w =>
        .told w.1 object.methods).reverse
    | .error _ => []
  | .receive c =>
    match (bus.receive c).1 with
    | .call r => [.received c r]
    | _ => []
  | .reply _ r =>
    match bus.waiting.find? fun w => w.id == r.id with
    | some w => [.answered r.id w.caller (.replied r)]
    | none => []
  | .drop c => bus.failNotes (fun w => w.owner == c) ++ [.lost (some c)]
  | .call caller object method data => bus.callNotes caller object method data
  | .await caller object =>
    match bus.methods? object with
    | some methods => [.told caller methods]
    | none => []
  | .disconnectAll => bus.failNotes (fun _ => true) ++ [.lost none]

/-- The bus under observation. -/
def observed : Observed MemoryBus Act Note := ⟨act, notes⟩

/-! ## What a history says -/

/-- The accepted calls, in order. -/
def calls : List Note → List Call
  | [] => []
  | .accepted call :: past => calls past ++ [call]
  | _ :: past => calls past

/-- The numbers of the calls that were given their outcome. -/
def answeredIds : List Note → List RequestId
  | [] => []
  | .answered id _ _ :: past => id :: answeredIds past
  | _ :: past => answeredIds past

/-- The requests that a connection took, in order. -/
def receivedBy (c : ConnectionId) : List Note → List Request
  | [] => []
  | .received d r :: past => if d = c then receivedBy c past ++ [r] else receivedBy c past
  | _ :: past => receivedBy c past

/-- The answers that were given, in order. -/
def answersOf : List Note → List Answer
  | [] => []
  | .rejected caller _ _ outcome :: past => answersOf past ++ [⟨caller, outcome⟩]
  | .answered _ caller outcome :: past => answersOf past ++ [⟨caller, outcome⟩]
  | .told caller methods :: past => answersOf past ++ [⟨caller, .registered methods⟩]
  | _ :: past => answersOf past

/-- The requests that were accepted for a connection, in order. -/
def acceptedBy (c : ConnectionId) (h : List Note) : List Request :=
  ((calls h).filter fun a => a.owner == c).map (·.request)

/-- The numbers of the accepted calls, in order. -/
def callIds (h : List Note) : List RequestId := (calls h).map (·.request.id)

/-- The place of an accepted call among the waiting ones. -/
def Call.waiting (a : Call) : WaitingCall := ⟨a.request.id, a.owner, a.caller⟩

/-- The accepted calls that have no outcome yet, in order. -/
def openCalls (h : List Note) : List Call :=
  (calls h).filter fun a => !(answeredIds h).contains a.request.id

/-! ### Histories in two parts -/

theorem calls_append (ns h : List Note) : calls (ns ++ h) = calls h ++ calls ns := by
  induction ns with
  | nil => simp [calls]
  | cons n ns ih => cases n <;> simp [calls, ih]

theorem answeredIds_append (ns h : List Note) :
    answeredIds (ns ++ h) = answeredIds ns ++ answeredIds h := by
  induction ns with
  | nil => simp [answeredIds]
  | cons n ns ih => cases n <;> simp [answeredIds, ih]

theorem receivedBy_append (c : ConnectionId) (ns h : List Note) :
    receivedBy c (ns ++ h) = receivedBy c h ++ receivedBy c ns := by
  induction ns with
  | nil => simp [receivedBy]
  | cons n ns ih =>
    cases n with
    | received d r => by_cases hd : d = c <;> simp [receivedBy, hd, ih]
    | _ => simp [receivedBy, ih]

theorem answersOf_append (ns h : List Note) :
    answersOf (ns ++ h) = answersOf h ++ answersOf ns := by
  induction ns with
  | nil => simp [answersOf]
  | cons n ns ih => cases n <;> simp [answersOf, ih]

theorem acceptedBy_append (c : ConnectionId) (ns h : List Note) :
    acceptedBy c (ns ++ h) = acceptedBy c h ++ acceptedBy c ns := by
  simp [acceptedBy, calls_append]

theorem mem_calls {a : Call} {h : List Note} : a ∈ calls h ↔ .accepted a ∈ h := by
  induction h with
  | nil => simp [calls]
  | cons n h ih => cases n <;> simp [calls, ih, or_comm]

theorem mem_answeredIds {id : RequestId} {h : List Note} :
    id ∈ answeredIds h ↔ ∃ caller outcome, .answered id caller outcome ∈ h := by
  induction h with
  | nil => simp [answeredIds]
  | cons n h ih => cases n <;> simp [answeredIds, ih, eq_comm, exists_or]

theorem mem_acceptedBy {c : ConnectionId} {r : Request} {h : List Note} :
    r ∈ acceptedBy c h ↔ ∃ a ∈ calls h, a.owner = c ∧ a.request = r := by
  simp [acceptedBy, and_assoc]

/-! ### Notes of failing calls -/

theorem calls_failNotes (bus : MemoryBus) (which : WaitingCall → Bool) :
    calls (bus.failNotes which) = [] := by
  rw [List.eq_nil_iff_forall_not_mem]
  intro a ha
  simp [mem_calls, failNotes] at ha

theorem receivedBy_failNotes (bus : MemoryBus) (which : WaitingCall → Bool) (c : ConnectionId) :
    receivedBy c (bus.failNotes which) = [] := by
  unfold failNotes
  induction bus.waiting.filter which with
  | nil => rfl
  | cons w rest ih => simp [receivedBy_append, ih, receivedBy]

theorem answersOf_failNotes (bus : MemoryBus) (which : WaitingCall → Bool) :
    answersOf (bus.failNotes which) =
      (bus.waiting.filter which).map fun w => ⟨w.caller, .failed .disconnected⟩ := by
  unfold failNotes
  induction bus.waiting.filter which with
  | nil => rfl
  | cons w rest ih => simp [answersOf_append, ih, answersOf]

theorem mem_failNotes {bus : MemoryBus} {which : WaitingCall → Bool} {n : Note} :
    n ∈ bus.failNotes which ↔
      ∃ w ∈ bus.waiting, which w = true ∧ n = .answered w.id w.caller (.failed .disconnected) := by
  rw [failNotes, List.mem_reverse, List.mem_map]
  constructor
  · rintro ⟨w, hw, rfl⟩
    exact ⟨w, (List.mem_filter.1 hw).1, (List.mem_filter.1 hw).2, rfl⟩
  · rintro ⟨w, hw, hwhich, rfl⟩
    exact ⟨w, List.mem_filter.2 ⟨hw, hwhich⟩, rfl⟩

theorem mem_answeredIds_failNotes {bus : MemoryBus} {which : WaitingCall → Bool} {id : RequestId} :
    id ∈ answeredIds (bus.failNotes which) ↔ ∃ w ∈ bus.waiting, which w = true ∧ w.id = id := by
  simp only [mem_answeredIds, mem_failNotes]
  constructor
  · rintro ⟨caller, outcome, w, hw, hwhich, heq⟩
    obtain ⟨rfl, -, -⟩ := Note.answered.inj heq
    exact ⟨w, hw, hwhich, rfl⟩
  · rintro ⟨w, hw, hwhich, rfl⟩
    exact ⟨_, _, w, hw, hwhich, rfl⟩

/-! ## What an act does -/

/-- What a call does to the bus, by the notes of it. -/
theorem call_cases (bus : MemoryBus) (caller : Caller) (object method : String)
    (data : Option Table) :
    (∃ outcome, bus.callNotes caller object method data = [.rejected caller object method outcome] ∧
        bus.call caller object method data = bus.tell caller outcome) ∨
      ∃ reg e, bus.registration? object = some reg ∧ reg.object.hasMethod method = true ∧
        bus.endpoint? reg.owner = some e ∧
        bus.callNotes caller object method data =
          .accepted ⟨caller, reg.owner, ⟨bus.nextId, object, method, data⟩⟩ ::
            bus.failNotes (fun w => w.id == bus.nextId) ∧
        bus.call caller object method data =
          { (bus.setEndpoint
              { e with inbox := e.inbox ++ [⟨bus.nextId, object, method, data⟩] }).failCalls
                fun w => w.id == bus.nextId with
            nextId := bus.nextId + 1
            waiting := (bus.waiting.filter fun w => !(w.id == bus.nextId)) ++
              [⟨bus.nextId, reg.owner, caller⟩] } := by
  unfold callNotes call
  cases hreg : bus.registration? object with
  | none => exact Or.inl ⟨_, rfl, rfl⟩
  | some reg =>
    cases hmethod : reg.object.hasMethod method with
    | false => exact Or.inl ⟨.replied ⟨bus.nextId, .methodNotFound, none⟩, by simp [hmethod]⟩
    | true =>
      cases hend : bus.endpoint? reg.owner with
      | none => exact Or.inl ⟨.failed .disconnected, by simp [hmethod, hend]⟩
      | some e =>
        refine Or.inr ⟨reg, e, rfl, hmethod, hend, ?_, ?_⟩
        · simp [hmethod, hend]
        · simp [hmethod, hend, failCalls, setEndpoint]

/-- What registering an object does to the bus. -/
theorem addObject_cases (bus : MemoryBus) (c : ConnectionId) (object : ObjectSpec) :
    (bus.act (.addObject c object) = bus ∧ bus.notes (.addObject c object) = []) ∨
      ∃ e, bus.endpoint? c = some e ∧ e.registered = false ∧
        bus.act (.addObject c object) =
          { bus.setEndpoint { e with registered := true } with
            registrations := (bus.registrations.filter fun r => r.object.name != object.name) ++
              [⟨object, c⟩]
            watchers := bus.watchers.filter fun w => !(w.2 == object.name)
            answers := bus.answers ++ (bus.watchers.filter fun w => w.2 == object.name).map
              fun w => ⟨w.1, .registered object.methods⟩ } ∧
        bus.notes (.addObject c object) =
          ((bus.watchers.filter fun w => w.2 == object.name).map
            fun w => .told w.1 object.methods).reverse := by
  simp only [act, notes, addObject]
  cases hend : bus.endpoint? c with
  | none => exact Or.inl ⟨rfl, rfl⟩
  | some e =>
    cases hreg : e.registered with
    | true => exact Or.inl (by simp [hreg])
    | false =>
      refine Or.inr ⟨e, rfl, hreg, ?_, ?_⟩
      · simp [hreg, tellWatchers, List.partition_eq_filter_filter, setEndpoint, Function.comp_def]
      · simp [hreg]

/-- What taking a call does to the bus. -/
theorem receive_cases (bus : MemoryBus) (c : ConnectionId) :
    (bus.act (.receive c) = bus ∧ bus.notes (.receive c) = [] ∧
        ∀ r, (bus.receive c).1 ≠ .call r) ∨
      ∃ e r rest, bus.endpoint? c = some e ∧ e.inbox = r :: rest ∧
        bus.receive c = (.call r, bus.setEndpoint { e with inbox := rest }) ∧
        bus.notes (.receive c) = [.received c r] := by
  simp only [act, notes, receive]
  cases hend : bus.endpoint? c with
  | none => exact Or.inl (by simp)
  | some e =>
    cases hbox : e.inbox with
    | nil =>
      refine Or.inl ?_
      by_cases hclosed : (e.registered && !bus.owns c) = true
      · simp [hbox, hclosed]
      · simp [hbox, hclosed]
    | cons r rest => exact Or.inr ⟨e, r, rest, rfl, hbox, by simp [hbox]⟩

theorem calls_told (told : List (Caller × String)) (methods : List String) :
    calls ((told.map fun w => Note.told w.1 methods).reverse) = [] := by
  rw [List.eq_nil_iff_forall_not_mem]
  intro a ha
  simp [mem_calls] at ha

theorem receivedBy_told (c : ConnectionId) (told : List (Caller × String))
    (methods : List String) :
    receivedBy c ((told.map fun w => Note.told w.1 methods).reverse) = [] := by
  induction told with
  | nil => rfl
  | cons w told ih => simp [receivedBy_append, ih, receivedBy]

theorem answersOf_told (told : List (Caller × String)) (methods : List String) :
    answersOf ((told.map fun w => Note.told w.1 methods).reverse) =
      told.map fun w => ⟨w.1, .registered methods⟩ := by
  induction told with
  | nil => rfl
  | cons w told ih => simp [answersOf_append, ih, answersOf]

/-! ## Every act keeps the invariants

### Answers -/

/-- A history knows every answer that was given. -/
theorem answers_act {bus : MemoryBus} {h : List Note} (heq : bus.answers = answersOf h) (a : Act) :
    (bus.act a).answers = answersOf (bus.notes a ++ h) := by
  rw [answersOf_append, ← heq]
  cases a with
  | connect => simp [act, notes, connect, answersOf]
  | addObject c object =>
    rcases bus.addObject_cases c object with ⟨hact, hnotes⟩ | ⟨e, -, -, hact, hnotes⟩
    · simp [hact, hnotes, answersOf]
    · simp [hact, hnotes, answersOf_told]
  | receive c =>
    rcases bus.receive_cases c with ⟨hact, hnotes, -⟩ | ⟨e, r, rest, -, -, hreceive, hnotes⟩
    · simp [hact, hnotes, answersOf]
    · simp [act, hreceive, hnotes, answersOf, setEndpoint]
  | reply c r =>
    cases hw : bus.waiting.find? fun w => w.id == r.id with
    | none => simp [act, notes, MemoryBus.reply, hw, answersOf]
    | some w => simp [act, notes, MemoryBus.reply, hw, answersOf, tell]
  | drop c => simp [act, notes, drop, answersOf_append, answersOf_failNotes, failCalls, answersOf]
  | call caller object method data =>
    simp only [act, notes]
    rcases bus.call_cases caller object method data with ⟨outcome, hnotes, hcall⟩ |
      ⟨reg, e, -, -, -, hnotes, hcall⟩
    · simp [hnotes, hcall, answersOf, tell]
    · simp [hnotes, hcall, answersOf, answersOf_failNotes, failCalls, setEndpoint]
  | await caller object =>
    cases hm : bus.methods? object with
    | none => simp [act, notes, awaitObject, hm, answersOf]
    | some methods => simp [act, notes, awaitObject, hm, answersOf, tell]
  | disconnectAll =>
    simp [act, notes, disconnectAll, answersOf_append, answersOf_failNotes, failCalls, answersOf]

/-! ### Numbers -/

/-- The calls are numbered in the order in which they are accepted. -/
def Numbered (bus : MemoryBus) (h : List Note) : Prop :=
  bus.nextId = UInt32.ofNat (calls h).length ∧ callIds h = numbersGiven (calls h).length

theorem Numbered.act {bus : MemoryBus} {h : List Note} (hn : Numbered bus h) (a : Act) :
    Numbered (bus.act a) (bus.notes a ++ h) := by
  obtain ⟨hnext, hids⟩ := hn
  -- Only an accepted call moves the counter and adds to the calls.
  have hsame : ∀ {b : MemoryBus} {ns : List Note}, b.nextId = bus.nextId → calls ns = [] →
      Numbered b (ns ++ h) := by
    intro b ns hb hns
    have hcalls : calls (ns ++ h) = calls h := by simp [calls_append, hns]
    exact ⟨by rw [hb, hcalls, hnext], by rw [callIds, hcalls]; exact hids⟩
  cases a with
  | connect => exact hsame rfl rfl
  | addObject c object =>
    rcases bus.addObject_cases c object with ⟨hact, hnotes⟩ | ⟨e, -, -, hact, hnotes⟩
    · rw [hact, hnotes]
      exact ⟨hnext, hids⟩
    · rw [hact, hnotes]
      exact hsame rfl (calls_told _ _)
  | receive c =>
    rcases bus.receive_cases c with ⟨hact, hnotes, -⟩ | ⟨e, r, rest, -, -, hreceive, hnotes⟩
    · rw [hact, hnotes]
      exact ⟨hnext, hids⟩
    · rw [MemoryBus.act, hreceive, hnotes]
      exact hsame rfl rfl
  | reply c r =>
    cases hw : bus.waiting.find? fun w => w.id == r.id with
    | none => simpa [MemoryBus.act, notes, MemoryBus.reply, hw] using ⟨hnext, hids⟩
    | some w =>
      simp only [MemoryBus.act, notes, MemoryBus.reply, hw]
      exact hsame rfl rfl
  | drop c =>
    apply hsame rfl
    simp [notes, calls_append, calls_failNotes, calls]
  | call caller object method data =>
    simp only [MemoryBus.act, notes]
    rcases bus.call_cases caller object method data with ⟨outcome, hnotes, hcall⟩ |
      ⟨reg, e, -, -, -, hnotes, hcall⟩
    · rw [hnotes, hcall]
      exact hsame rfl rfl
    · rw [hnotes, hcall]
      have hcalls : calls ((.accepted ⟨caller, reg.owner, ⟨bus.nextId, object, method, data⟩⟩ ::
          bus.failNotes fun w => w.id == bus.nextId) ++ h) =
            calls h ++ [⟨caller, reg.owner, ⟨bus.nextId, object, method, data⟩⟩] := by
        rw [List.cons_append, calls, calls_append, calls_failNotes, List.append_nil]
      refine ⟨?_, ?_⟩
      · rw [hcalls, hnext]
        simp
      · rw [callIds, hcalls]
        simp only [List.map_append, List.map_cons, List.map_nil, List.length_append,
          List.length_singleton, numbersGiven_succ, hnext]
        rw [← hids, callIds]
  | await caller object =>
    cases hm : bus.methods? object with
    | none => simpa [MemoryBus.act, notes, awaitObject, hm] using ⟨hnext, hids⟩
    | some methods =>
      simp only [MemoryBus.act, notes, awaitObject, hm]
      exact hsame rfl rfl
  | disconnectAll =>
    apply hsame rfl
    simp [notes, calls_append, calls_failNotes, calls]

/-! ### Inboxes -/

/-- Every connection gets the calls that were accepted for it, in order: what it has not taken is in
its inbox. -/
structure Boxed (bus : MemoryBus) (h : List Note) : Prop where
  inbox : ∀ e ∈ bus.endpoints, receivedBy e.id h ++ e.inbox = acceptedBy e.id h
  taken : ∀ c, receivedBy c h <+: acceptedBy c h
  endpoints : ∀ e ∈ bus.endpoints, e.id ≤ bus.connects
  owners : ∀ a ∈ calls h, a.owner ≤ bus.connects

theorem mem_of_endpoint? {bus : MemoryBus} {c : ConnectionId} {e : Endpoint}
    (h : bus.endpoint? c = some e) : e ∈ bus.endpoints ∧ e.id = c :=
  ⟨List.mem_of_find?_eq_some h, by simpa using List.find?_some h⟩

theorem mem_setEndpoint {bus : MemoryBus} {e f : Endpoint}
    (h : f ∈ (bus.setEndpoint e).endpoints) : f = e ∨ f ∈ bus.endpoints ∧ f.id ≠ e.id := by
  obtain ⟨g, hg, hf⟩ := List.mem_map.1 h
  by_cases hid : g.id = e.id
  · rw [if_pos hid] at hf
    exact Or.inl hf.symm
  · rw [if_neg hid] at hf
    subst hf
    exact Or.inr ⟨hg, hid⟩

/-- Notes on neither accepting nor taking calls leave the inboxes as they are. -/
theorem Boxed.extend {bus b : MemoryBus} {h : List Note} (hb : Boxed bus h) (ns : List Note)
    (hcalls : calls ns = []) (hreceived : ∀ c, receivedBy c ns = [])
    (hends : ∀ f ∈ b.endpoints, ∃ e ∈ bus.endpoints, f.id = e.id ∧ f.inbox = e.inbox)
    (hconnects : b.connects = bus.connects) : Boxed b (ns ++ h) where
  inbox := by
    intro f hf
    obtain ⟨e, he, hid, hinbox⟩ := hends f hf
    rw [receivedBy_append, acceptedBy_append, hreceived, acceptedBy, acceptedBy, hcalls, hid,
      hinbox]
    simpa [acceptedBy] using hb.inbox e he
  taken := by
    intro c
    rw [receivedBy_append, acceptedBy_append, hreceived, acceptedBy, acceptedBy, hcalls]
    simpa [acceptedBy] using hb.taken c
  endpoints := by
    intro f hf
    obtain ⟨e, he, hid, -⟩ := hends f hf
    rw [hid, hconnects]
    exact hb.endpoints e he
  owners := by
    intro a ha
    rw [calls_append, hcalls, List.append_nil] at ha
    rw [hconnects]
    exact hb.owners a ha

theorem Boxed.connect {bus : MemoryBus} {h : List Note} (hb : Boxed bus h) :
    Boxed bus.connect.2 h where
  inbox := by
    intro e he
    rcases List.mem_append.1 he with he | he
    · exact hb.inbox e he
    · -- A new connection has a number of its own, so nothing was accepted for it.
      obtain rfl : e = { id := bus.connects + 1 } := by simpa using he
      have hnone : acceptedBy (bus.connects + 1) h = [] := by
        rw [acceptedBy, List.map_eq_nil_iff, List.filter_eq_nil_iff]
        intro a ha howner
        have hle := hb.owners a ha
        have heq : a.owner = bus.connects + 1 := by simpa using howner
        rw [heq] at hle
        exact Nat.not_succ_le_self _ hle
      have hprefix := hb.taken (bus.connects + 1)
      rw [hnone, List.prefix_nil] at hprefix
      simp [hnone, hprefix]
  taken := hb.taken
  endpoints := by
    intro e he
    rcases List.mem_append.1 he with he | he
    · exact Nat.le_succ_of_le (hb.endpoints e he)
    · obtain rfl : e = { id := bus.connects + 1 } := by simpa using he
      exact Nat.le_refl _
  owners := fun a ha => Nat.le_succ_of_le (hb.owners a ha)

theorem Boxed.receive {bus : MemoryBus} {h : List Note} (hb : Boxed bus h) {c : ConnectionId}
    {e : Endpoint} {r : Request} {rest : List Request} (hend : bus.endpoint? c = some e)
    (hbox : e.inbox = r :: rest) :
    Boxed (bus.setEndpoint { e with inbox := rest }) (.received c r :: h) := by
  obtain ⟨he, rfl⟩ := mem_of_endpoint? hend
  have heq := hb.inbox e he
  rw [hbox] at heq
  refine ⟨?_, ?_, ?_, hb.owners⟩
  · intro f hf
    rcases mem_setEndpoint hf with rfl | ⟨hf, hid⟩
    · simpa [receivedBy, acceptedBy, calls] using heq
    · have hne : e.id ≠ f.id := Ne.symm hid
      simpa [receivedBy, hne, acceptedBy, calls] using hb.inbox f hf
  · -- The call goes over from the inbox to what was received.
    intro d
    by_cases hd : e.id = d
    · subst hd
      have hprefix : receivedBy e.id h ++ [r] <+: acceptedBy e.id h := ⟨rest, by simpa using heq⟩
      simpa [receivedBy, acceptedBy, calls] using hprefix
    · simpa [receivedBy, hd, acceptedBy, calls] using hb.taken d
  · intro f hf
    rcases mem_setEndpoint hf with rfl | ⟨hf, -⟩
    · exact hb.endpoints e he
    · exact hb.endpoints f hf

theorem Boxed.accept {bus b : MemoryBus} {h : List Note} (hb : Boxed bus h) {e : Endpoint}
    (call : Call) (hend : bus.endpoint? call.owner = some e)
    (hends : b.endpoints =
      (bus.setEndpoint { e with inbox := e.inbox ++ [call.request] }).endpoints)
    (hconnects : b.connects = bus.connects) (ns : List Note) (hcalls : calls ns = [])
    (hreceived : ∀ c, receivedBy c ns = []) : Boxed b (.accepted call :: (ns ++ h)) := by
  obtain ⟨he, hid⟩ := mem_of_endpoint? hend
  have haccepted : ∀ c, acceptedBy c (.accepted call :: (ns ++ h)) =
      acceptedBy c h ++ if call.owner = c then [call.request] else [] := by
    intro c
    rw [acceptedBy, calls, calls_append, hcalls, List.append_nil]
    by_cases hc : call.owner = c
    · simp [acceptedBy, hc]
    · simp [acceptedBy, hc]
  have htaken : ∀ c, receivedBy c (.accepted call :: (ns ++ h)) = receivedBy c h := by
    intro c
    rw [receivedBy, receivedBy_append, hreceived, List.append_nil]
    simp
  refine ⟨?_, ?_, ?_, ?_⟩
  · intro f hf
    rw [hends] at hf
    rw [haccepted, htaken]
    rcases mem_setEndpoint hf with rfl | ⟨hf, hne⟩
    · simp only [hid, if_true]
      rw [← List.append_assoc, ← hid, hb.inbox e he]
    · have hown : call.owner ≠ f.id := by
        rw [← hid]
        exact Ne.symm hne
      rw [if_neg hown, List.append_nil]
      exact hb.inbox f hf
  · intro c
    rw [haccepted, htaken]
    exact (hb.taken c).trans (List.prefix_append _ _)
  · intro f hf
    rw [hends] at hf
    rw [hconnects]
    rcases mem_setEndpoint hf with rfl | ⟨hf, -⟩
    · exact hb.endpoints e he
    · exact hb.endpoints f hf
  · intro a ha
    rw [calls, calls_append, hcalls, List.append_nil] at ha
    rw [hconnects]
    rcases List.mem_append.1 ha with ha | ha
    · exact hb.owners a ha
    · obtain rfl : a = call := by simpa using ha
      rw [← hid]
      exact hb.endpoints e he

theorem Boxed.act {bus : MemoryBus} {h : List Note} (hb : Boxed bus h) (a : Act) :
    Boxed (bus.act a) (bus.notes a ++ h) := by
  have hsame : ∀ e ∈ bus.endpoints, ∃ f ∈ bus.endpoints, e.id = f.id ∧ e.inbox = f.inbox :=
    fun e he => ⟨e, he, rfl, rfl⟩
  cases a with
  | connect => exact hb.connect
  | addObject c object =>
    rcases bus.addObject_cases c object with ⟨hact, hnotes⟩ | ⟨e, hend, -, hact, hnotes⟩
    · rw [hact, hnotes]
      exact hb
    · rw [hact, hnotes]
      refine hb.extend _ (calls_told _ _) (fun c => receivedBy_told c _ _) ?_ rfl
      intro f hf
      rcases mem_setEndpoint hf with rfl | ⟨hf, -⟩
      · exact ⟨e, (mem_of_endpoint? hend).1, rfl, rfl⟩
      · exact hsame f hf
  | receive c =>
    rcases bus.receive_cases c with ⟨hact, hnotes, -⟩ | ⟨e, r, rest, hend, hbox, hreceive, hnotes⟩
    · rw [hact, hnotes]
      exact hb
    · rw [MemoryBus.act, hreceive, hnotes]
      exact hb.receive hend hbox
  | reply c r =>
    cases hw : bus.waiting.find? fun w => w.id == r.id with
    | none => simpa [MemoryBus.act, notes, MemoryBus.reply, hw] using hb
    | some w =>
      simp only [MemoryBus.act, notes, MemoryBus.reply, hw]
      exact hb.extend _ rfl (fun _ => rfl) hsame rfl
  | drop c =>
    refine hb.extend _ ?_ ?_ ?_ rfl
    · simp [notes, calls_append, calls_failNotes, calls]
    · simp [notes, receivedBy_append, receivedBy_failNotes, receivedBy]
    · intro e he
      exact hsame e (List.mem_filter.1 he).1
  | call caller object method data =>
    simp only [MemoryBus.act, notes]
    rcases bus.call_cases caller object method data with ⟨outcome, hnotes, hcall⟩ |
      ⟨reg, e, -, -, hend, hnotes, hcall⟩
    · rw [hnotes, hcall]
      exact hb.extend _ rfl (fun _ => rfl) hsame rfl
    · rw [hnotes, hcall]
      refine hb.accept ⟨caller, reg.owner, ⟨bus.nextId, object, method, data⟩⟩ hend ?_ ?_ _
        (calls_failNotes _ _) (receivedBy_failNotes _ _)
      · rfl
      · rfl
  | await caller object =>
    cases hm : bus.methods? object with
    | none =>
      simp only [MemoryBus.act, notes, awaitObject, hm]
      exact hb.extend [] rfl (fun _ => rfl) hsame rfl
    | some methods =>
      simp only [MemoryBus.act, notes, awaitObject, hm]
      exact hb.extend _ rfl (fun _ => rfl) hsame rfl
  | disconnectAll =>
    refine hb.extend _ ?_ ?_ hsame rfl
    · simp [notes, calls_append, calls_failNotes, calls]
    · simp [notes, receivedBy_append, receivedBy_failNotes, receivedBy]

end ScriptService.MemoryBus
