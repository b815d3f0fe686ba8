import ScriptService.Proofs.Bus.Ownership

/-!
# Delivery of calls

Whatever clients and callers do, every object and every waiting call belongs to a connection that
was made and not dropped. So a call of an exported method always reaches an inbox, and from then on
it waits until a reply carries its number or its connection is lost.

Main statement: `MemoryBus.delivered_run`.
-/

namespace ScriptService.MemoryBus

/-! ## Open connections -/

/-- How many connections were made, and which of them were not dropped, after one more act. -/
def connectionsAfter : Nat × List ConnectionId → Act → Nat × List ConnectionId
  | (made, open_), .connect => (made + 1, open_ ++ [made + 1])
  | (made, open_), .drop c => (made, open_.filter fun d => d != c)
  | p, _ => p

/-- The connections that a list of acts makes and does not drop, in order. -/
def openConnections (acts : List Act) : List ConnectionId :=
  (acts.foldl connectionsAfter (0, [])).2

/-- The connections that have an end on the bus. -/
def ids (bus : MemoryBus) : List ConnectionId := bus.endpoints.map (·.id)

theorem ids_setEndpoint (bus : MemoryBus) (e : Endpoint) : (bus.setEndpoint e).ids = bus.ids := by
  simp only [ids, setEndpoint, List.map_map]
  refine List.map_congr_left fun f hf => ?_
  by_cases hid : f.id = e.id
  · simp [hid]
  · simp [hid]

theorem mem_ids_of_endpoint? {bus : MemoryBus} {c : ConnectionId} {e : Endpoint}
    (h : bus.endpoint? c = some e) : c ∈ bus.ids := by
  have hfound := mem_of_endpoint? h
  exact List.mem_map.2 ⟨e, hfound.1, hfound.2⟩

theorem endpoint?_of_mem_ids {bus : MemoryBus} {c : ConnectionId} (h : c ∈ bus.ids) :
    ∃ e, bus.endpoint? c = some e := by
  rcases List.mem_map.1 h with ⟨e, he, hid⟩
  cases hend : bus.endpoint? c with
  | some f => exact ⟨f, rfl⟩
  | none =>
    have hnone := List.find?_eq_none.1 hend e he
    simp [hid] at hnone

/-- Only connecting and dropping change which connections are open. -/
theorem connections_act (bus : MemoryBus) (m : Act) :
    ((bus.act m).connects, (bus.act m).ids) = connectionsAfter (bus.connects, bus.ids) m := by
  cases m with
  | connect => simp [act, connect, ids, connectionsAfter]
  | addObject c object =>
    rcases bus.addObject_cases c object with ⟨hact, -⟩ | ⟨e, -, -, hact, -⟩
    · rw [hact]
      rfl
    · rw [hact]
      exact Prod.ext rfl (bus.ids_setEndpoint { e with registered := true })
  | receive c =>
    rcases bus.receive_cases c with ⟨hact, -, -⟩ | ⟨e, r, rest, -, -, hreceive, -⟩
    · rw [hact]
      rfl
    · rw [act, hreceive]
      exact Prod.ext rfl (bus.ids_setEndpoint { e with inbox := rest })
  | reply c r =>
    simp only [act, reply]
    split
    · rfl
    · rfl
  | drop c => simp [act, drop, failCalls, ids, connectionsAfter, List.filter_map, Function.comp_def]
  | call caller object method data =>
    rcases bus.call_cases caller object method data with ⟨outcome, -, hcall⟩ |
      ⟨reg, e, -, -, -, -, hcall⟩
    · rw [act, hcall]
      rfl
    · rw [act, hcall]
      exact Prod.ext rfl (bus.ids_setEndpoint
        { e with inbox := e.inbox ++ [⟨bus.nextId, object, method, data⟩] })
  | await caller object =>
    simp only [act, awaitObject]
    split
    · rfl
    · rfl
  | disconnectAll => rfl

theorem ids_run (acts : List Act) : (observed.run {} acts).1.ids = openConnections acts := by
  have hboth : ((observed.run {} acts).1.connects, (observed.run {} acts).1.ids) =
      acts.foldl connectionsAfter (0, []) := by
    induction acts using List.reverseRecOn with
    | nil => rfl
    | append_singleton acts m ih =>
      rw [Observed.run_append_singleton, List.foldl_append, ← ih]
      exact connections_act _ m
  exact congrArg Prod.snd hboth

/-! ## What becomes of a waiting call -/

/-- The outcome that an act gives to a waiting call, if it gives one. -/
def Act.settles : Act → WaitingCall → Option Outcome
  | .reply _ r, w => if r.id = w.id then some (.replied r) else none
  | .drop c, w => if c = w.owner then some (.failed .disconnected) else none
  | .disconnectAll, _ => some (.failed .disconnected)
  | _, _ => none

/-- What an act makes of a waiting call: the outcome that it gives to the call is told to the caller
and the call waits no more; otherwise nothing is told and the call waits on. -/
def Treats (bus : MemoryBus) (m : Act) (w : WaitingCall) : Prop :=
  match m.settles w with
  | some outcome =>
    .answered w.id w.caller outcome ∈ bus.notes m ∧ w ∉ (bus.act m).waiting
  | none => w.id ∉ answeredIds (bus.notes m) ∧ w ∈ (bus.act m).waiting

section

variable {bus : MemoryBus} {h : List Note}

/-- An act that fails some of the calls treats a call by whether it is one of them. -/
theorem treats_of_fail {m : Act} {w : WaitingCall} (hr : Resolved bus h) (hids : (callIds h).Nodup)
    (hw : w ∈ bus.waiting) (which : WaitingCall → Bool)
    (hsettles : m.settles w = if which w then some (.failed .disconnected) else none)
    (hnotes : ∃ lost, bus.notes m = bus.failNotes which ++ [.lost lost])
    (hwaiting : (bus.act m).waiting = bus.waiting.filter fun v => !which v) :
    bus.Treats m w := by
  rcases hnotes with ⟨lost, hnotes⟩
  unfold Treats
  rw [hsettles, hnotes, hwaiting]
  by_cases hwhich : which w = true
  · rw [if_pos hwhich]
    refine ⟨List.mem_append_left _ (mem_failNotes.2 ⟨w, hw, hwhich, rfl⟩), ?_⟩
    simp [hwhich]
  · rw [if_neg hwhich]
    refine ⟨?_, List.mem_filter.2 ⟨hw, by simpa using hwhich⟩⟩
    -- A call that fails has another number.
    intro hmem
    rw [answeredIds_append] at hmem
    rcases List.mem_append.1 hmem with hfail | hlost
    · rcases mem_answeredIds_failNotes.1 hfail with ⟨v, hv, hvwhich, hid⟩
      have hsame : v = w := List.inj_on_of_nodup_map (hr.nodup_waiting hids) hv hw hid
      exact hwhich (hsame ▸ hvwhich)
    · cases hlost

theorem treats_of_reply {w : WaitingCall} (hr : Resolved bus h) (hids : (callIds h).Nodup)
    (hw : w ∈ bus.waiting) (c : ConnectionId) (r : Reply) : bus.Treats (.reply c r) w := by
  unfold Treats
  by_cases hid : r.id = w.id
  · -- Numbers are unique, so the reply finds this call and no other.
    have hone : bus.waiting.find? (fun v => v.id == w.id) = some w := by
      rw [← List.head?_filter, filter_key_eq (hr.nodup_waiting hids) hw]
      rfl
    simp only [Act.settles, hid, if_true, notes, act, reply, hone]
    refine ⟨List.mem_singleton_self _, ?_⟩
    intro hmem
    have hleft := (List.mem_filter.1 hmem).2
    simp at hleft
  · simp only [Act.settles, hid, if_false, notes, act, reply]
    cases hfind : bus.waiting.find? fun v => v.id == r.id with
    | none => exact ⟨by simp [answeredIds], hw⟩
    | some v =>
      refine ⟨by simpa [answeredIds] using fun heq => hid heq.symm, ?_⟩
      exact List.mem_filter.2 ⟨hw, by simpa using fun heq => hid heq.symm⟩

/-- Every act treats every waiting call as it should, as long as numbers do not wrap around. -/
theorem treats {w : WaitingCall} (hr : Recorded bus h) (hbound : (calls h).length < UInt32.size)
    (hw : w ∈ bus.waiting) (m : Act) : bus.Treats m w := by
  have hids := hr.nodup_callIds (Nat.le_of_lt hbound)
  have hquiet : ∀ {m : Act}, m.settles w = none → answeredIds (bus.notes m) = [] →
      w ∈ (bus.act m).waiting → bus.Treats m w := by
    intro m hsettles hanswered hwaits
    unfold Treats
    rw [hsettles, hanswered]
    exact ⟨by simp, hwaits⟩
  cases m with
  | connect => exact hquiet rfl rfl hw
  | addObject c object =>
    rcases bus.addObject_cases c object with ⟨hact, hnotes⟩ | ⟨e, -, -, hact, hnotes⟩
    · exact hquiet rfl (by rw [hnotes]; rfl) (by rw [hact]; exact hw)
    · exact hquiet rfl (by rw [hnotes]; exact answeredIds_told _ _) (by rw [hact]; exact hw)
  | receive c =>
    rcases bus.receive_cases c with ⟨hact, hnotes, -⟩ | ⟨e, r, rest, -, -, hreceive, hnotes⟩
    · exact hquiet rfl (by rw [hnotes]; rfl) (by rw [hact]; exact hw)
    · exact hquiet rfl (by rw [hnotes]; rfl) (by rw [act, hreceive]; exact hw)
  | reply c r => exact treats_of_reply hr.resolved hids hw c r
  | drop c =>
    refine treats_of_fail hr.resolved hids hw (fun v => v.owner == c) ?_ ⟨some c, rfl⟩ rfl
    by_cases hc : c = w.owner
    · simp [Act.settles, hc]
    · simp [Act.settles, hc, Ne.symm hc]
  | call caller object method data =>
    rcases bus.call_cases caller object method data with ⟨outcome, hnotes, hcall⟩ |
      ⟨reg, e, -, -, -, hnotes, hcall⟩
    · exact hquiet rfl (by rw [notes, hnotes]; rfl) (by rw [act, hcall]; exact hw)
    · -- A new call has a new number, so it takes the place of none that waits.
      have hnew := hr.resolved.waiting_ne hr.numbered hbound
      refine hquiet rfl ?_ ?_
      · rw [notes, hnotes, List.eq_nil_iff_forall_not_mem]
        intro id hid
        rcases mem_answeredIds_failNotes.1 hid with ⟨v, hv, hvid, -⟩
        exact hnew v hv (by simpa using hvid)
      · rw [act, hcall]
        refine List.mem_append_left _ (List.mem_filter.2 ⟨hw, ?_⟩)
        simpa using hnew w hw
  | await caller object =>
    cases hm : bus.methods? object with
    | none => exact hquiet rfl (by simp [notes, hm, answeredIds]) (by simpa [act, awaitObject, hm])
    | some methods =>
      exact hquiet rfl (by simp [notes, hm, answeredIds]) (by simpa [act, awaitObject, hm, tell])
  | disconnectAll =>
    exact treats_of_fail hr.resolved hids hw (fun _ => true) rfl ⟨none, rfl⟩ rfl

/-- Whoever is given an outcome was waiting for it. -/
theorem settled_of_answered {m : Act} (hr : Recorded bus h)
    (hbound : (calls h).length < UInt32.size) {id : RequestId} {caller : Caller}
    {outcome : Outcome} (hmem : .answered id caller outcome ∈ bus.notes m) :
    ∃ w ∈ bus.waiting, w.id = id ∧ w.caller = caller ∧ m.settles w = some outcome := by
  have hfail : ∀ {which : WaitingCall → Bool} {ns : List Note}, (∀ n ∈ ns, ∃ l, n = .lost l) →
      .answered id caller outcome ∈ bus.failNotes which ++ ns →
        ∃ w ∈ bus.waiting, which w = true ∧ w.id = id ∧ w.caller = caller ∧
          outcome = .failed .disconnected := by
    intro which ns hns hmem
    rcases List.mem_append.1 hmem with hfail | hlost
    · rcases mem_failNotes.1 hfail with ⟨w, hw, hwhich, heq⟩
      cases heq
      exact ⟨w, hw, hwhich, rfl, rfl, rfl⟩
    · rcases hns _ hlost with ⟨l, heq⟩
      cases heq
  cases m with
  | connect => cases hmem
  | addObject c object => cases noted hmem with
    | cut w =>
      have hnone : answeredIds (bus.notes (.addObject c object)) = [] := by
        rcases bus.addObject_cases c object with ⟨-, hnotes⟩ | ⟨e, -, -, -, hnotes⟩
        · rw [hnotes]
          rfl
        · rw [hnotes]
          exact answeredIds_told _ _
      have hid := mem_answeredIds.2 ⟨_, _, hmem⟩
      rw [hnone] at hid
      cases hid
    | replied c' r w hm => cases hm
  | receive c =>
    rcases bus.receive_cases c with ⟨-, hnotes, -⟩ | ⟨e, r, rest, -, -, -, hnotes⟩
    · simp [hnotes] at hmem
    · simp [hnotes] at hmem
  | reply c r =>
    cases hfind : bus.waiting.find? fun v => v.id == r.id with
    | none => simp [notes, hfind] at hmem
    | some w =>
      have hid : w.id = r.id := by simpa using List.find?_some hfind
      simp only [notes, hfind, List.mem_singleton] at hmem
      cases hmem
      exact ⟨w, List.mem_of_find?_eq_some hfind, hid, rfl, by simp [Act.settles, hid]⟩
  | drop c =>
    rcases hfail (by simp) hmem with ⟨w, hw, howner, hid, hcaller, rfl⟩
    have hc : c = w.owner := (beq_iff_eq.1 howner).symm
    exact ⟨w, hw, hid, hcaller, by simp [Act.settles, hc]⟩
  | call caller' object method data =>
    rcases bus.call_cases caller' object method data with ⟨outcome', hnotes, -⟩ |
      ⟨reg, e, -, -, -, hnotes, -⟩
    · simp [notes, hnotes] at hmem
    · rw [notes, hnotes] at hmem
      rcases List.mem_cons.1 hmem with heq | hmem
      · cases heq
      · rcases mem_failNotes.1 hmem with ⟨w, hw, hwid, -⟩
        exact absurd (by simpa using hwid) (hr.resolved.waiting_ne hr.numbered hbound w hw)
  | await caller' object =>
    cases hm : bus.methods? object with
    | none => simp [notes, hm] at hmem
    | some methods => simp [notes, hm] at hmem
  | disconnectAll =>
    rcases hfail (by simp) hmem with ⟨w, hw, -, hid, hcaller, rfl⟩
    exact ⟨w, hw, hid, hcaller, rfl⟩

/-! ## Everything belongs to an open connection -/

/-- Every object and every waiting call belongs to an open connection, and every object has a name
of its own. -/
structure Housed (bus : MemoryBus) (h : List Note) : Prop where
  registered : ∀ reg ∈ bus.registrations, reg.owner ∈ bus.ids
  waiting : ∀ w ∈ bus.waiting, w.owner ∈ bus.ids
  names : (bus.registrations.map (·.object.name)).Nodup
  /-- A call was never refused because its object belonged to nobody. -/
  sent : ∀ caller object method, .rejected caller object method (.failed .disconnected) ∉ h

theorem housed_init : Housed {} [] where
  registered := fun reg hreg => by cases hreg
  waiting := fun w hw => by cases hw
  names := List.nodup_nil
  sent := fun caller object method hmem => by cases hmem

theorem ids_of_act (bus : MemoryBus) (m : Act) :
    (bus.act m).ids = (connectionsAfter (bus.connects, bus.ids) m).2 :=
  congrArg Prod.snd (bus.connections_act m)

/-- An open connection stays open unless it is dropped. -/
theorem mem_ids_act {m : Act} {c : ConnectionId} (hc : c ∈ bus.ids) (hm : m ≠ .drop c) :
    c ∈ (bus.act m).ids := by
  rw [ids_of_act]
  cases m with
  | connect => exact List.mem_append_left _ hc
  | drop d =>
    refine List.mem_filter.2 ⟨hc, ?_⟩
    have hne : c ≠ d := fun heq => hm (by rw [heq])
    simpa using hne
  | _ => exact hc

/-- Only an accepted call begins to wait, and only for the owner of a registration. -/
theorem mem_waiting_act {m : Act} {w : WaitingCall} (hw : w ∈ (bus.act m).waiting) :
    w ∈ bus.waiting ∨ m ≠ .drop w.owner ∧ ∃ reg ∈ bus.registrations, reg.owner = w.owner := by
  cases m with
  | connect => exact Or.inl hw
  | addObject c object =>
    rcases bus.addObject_cases c object with ⟨hact, -⟩ | ⟨e, -, -, hact, -⟩
    · rw [hact] at hw
      exact Or.inl hw
    · rw [hact] at hw
      exact Or.inl hw
  | receive c =>
    rcases bus.receive_cases c with ⟨hact, -, -⟩ | ⟨e, r, rest, -, -, hreceive, -⟩
    · rw [hact] at hw
      exact Or.inl hw
    · rw [act, hreceive] at hw
      exact Or.inl hw
  | reply c r =>
    simp only [act, reply] at hw
    split at hw
    · exact Or.inl (List.mem_filter.1 hw).1
    · exact Or.inl hw
  | drop c => exact Or.inl (List.mem_filter.1 hw).1
  | call caller object method data =>
    rcases bus.call_cases caller object method data with ⟨outcome, -, hcall⟩ |
      ⟨reg, e, hreg, -, -, -, hcall⟩
    · rw [act, hcall] at hw
      exact Or.inl hw
    · rw [act, hcall] at hw
      rcases List.mem_append.1 hw with hold | hnew
      · exact Or.inl (List.mem_filter.1 hold).1
      · have heq := List.mem_singleton.1 hnew
        exact Or.inr ⟨by simp, reg, (mem_of_registration? hreg).1, by rw [heq]⟩
  | await caller object =>
    simp only [act, awaitObject] at hw
    split at hw
    · exact Or.inl hw
    · exact Or.inl hw
  | disconnectAll => exact Or.inl (List.mem_filter.1 hw).1

theorem nodup_names_act (hnames : (bus.registrations.map (·.object.name)).Nodup) (m : Act) :
    ((bus.act m).registrations.map (·.object.name)).Nodup := by
  cases m with
  | addObject c object =>
    rcases bus.addObject_cases c object with ⟨hact, -⟩ | ⟨e, -, -, hact, -⟩
    · rw [hact]
      exact hnames
    · rw [hact]
      simp only [List.map_append, List.map_cons, List.map_nil]
      rw [List.nodup_append]
      refine ⟨(List.filter_sublist.map _).nodup hnames, by simp, ?_⟩
      -- An object of the same name was taken off the bus.
      rintro a ha b hb rfl
      rcases List.mem_map.1 ha with ⟨reg, hreg, rfl⟩
      have hother := (List.mem_filter.1 hreg).2
      simp [List.mem_singleton.1 hb] at hother
  | drop c => exact (List.filter_sublist.map _).nodup hnames
  | disconnectAll => exact List.nodup_nil
  | connect => exact hnames
  | receive c =>
    rcases bus.receive_cases c with ⟨hact, -, -⟩ | ⟨e, r, rest, -, -, hreceive, -⟩
    · rw [hact]
      exact hnames
    · rw [act, hreceive]
      exact hnames
  | reply c r =>
    simp only [act, reply]
    split
    · exact hnames
    · exact hnames
  | call caller object method data =>
    rcases bus.call_cases caller object method data with ⟨outcome, -, hcall⟩ |
      ⟨reg, e, -, -, -, -, hcall⟩
    · rw [act, hcall]
      exact hnames
    · rw [act, hcall]
      exact hnames
  | await caller object =>
    simp only [act, awaitObject]
    split
    · exact hnames
    · exact hnames

/-- A call of a registered object finds the inbox of its owner. -/
theorem Housed.sends (hh : Housed bus h) {m : Act} {caller : Caller} {object method : String} :
    .rejected caller object method (.failed .disconnected) ∉ bus.notes m := by
  intro hmem
  cases m with
  | call caller' object' method' data =>
    simp only [notes, callNotes] at hmem
    cases hreg : bus.registration? object' with
    | none => simp [hreg] at hmem
    | some reg =>
      have howner := hh.registered reg (mem_of_registration? hreg).1
      rcases endpoint?_of_mem_ids howner with ⟨e, hend⟩
      cases hmethod : reg.object.hasMethod method' with
      | false => simp [hreg, hmethod] at hmem
      | true =>
        simp only [hreg, hmethod, if_true, hend] at hmem
        rcases List.mem_cons.1 hmem with heq | hfail
        · cases heq
        · rcases mem_failNotes.1 hfail with ⟨w, -, -, heq⟩
          cases heq
  | addObject c object' =>
    rcases bus.addObject_cases c object' with ⟨-, hnotes⟩ | ⟨e, -, -, -, hnotes⟩
    · simp [hnotes] at hmem
    · simp [hnotes] at hmem
  | receive c =>
    rcases bus.receive_cases c with ⟨-, hnotes, -⟩ | ⟨e, r, rest, -, -, -, hnotes⟩
    · simp [hnotes] at hmem
    · simp [hnotes] at hmem
  | connect => cases hmem
  | reply c r =>
    simp only [notes] at hmem
    split at hmem
    · simp at hmem
    · cases hmem
  | drop c => simp [notes, mem_failNotes] at hmem
  | await caller' object' =>
    simp only [notes] at hmem
    split at hmem
    · simp at hmem
    · cases hmem
  | disconnectAll => simp [notes, mem_failNotes] at hmem

theorem Housed.act (hh : Housed bus h) (m : Act) : Housed (bus.act m) (bus.notes m ++ h) where
  registered := by
    intro reg hreg
    rcases mem_registrations_act hreg with hold | ⟨c, object, rfl, rfl⟩
    · refine mem_ids_act (hh.registered reg hold) ?_
      rintro rfl
      exact (mem_registrations_drop hreg).2 rfl
    · -- Only a connection that is open can register an object.
      rcases bus.addObject_cases c object with ⟨hact, -⟩ | ⟨e, hend, -, -, -⟩
      · rw [hact] at hreg ⊢
        exact hh.registered _ hreg
      · exact mem_ids_act (mem_ids_of_endpoint? hend) (by simp)
  waiting := by
    intro w hw
    rcases mem_waiting_act hw with hold | ⟨hm, reg, hreg, howner⟩
    · refine mem_ids_act (hh.waiting w hold) ?_
      rintro rfl
      have hleft := (List.mem_filter.1 hw).2
      simp at hleft
    · exact mem_ids_act (howner ▸ hh.registered reg hreg) hm
  names := nodup_names_act hh.names m
  sent := by
    intro caller object method hmem
    rcases List.mem_append.1 hmem with hnew | hold
    · exact hh.sends hnew
    · exact hh.sent caller object method hold

end

/-! ## Calls -/

/-- What the bus does with a call: it rejects the call and tells only the caller, or it puts the
call at the end of the inbox of the connection that owns the object, where the call waits under a
new number. -/
inductive Serves (bus : MemoryBus) (h : List Note) (caller : Caller) (object method : String)
    (data : Option Table) : Prop where
  | unknown (hreg : bus.registration? object = none)
      (hcall : bus.call caller object method data =
        bus.tell caller (.failed (.noSuchObject object)))
  | unexported (reg : Registration) (hreg : bus.registration? object = some reg)
      (hmethod : reg.object.hasMethod method = false) (hnew : bus.nextId ∉ callIds h)
      (hcall : bus.call caller object method data =
        bus.tell caller (.replied ⟨bus.nextId, .methodNotFound, none⟩))
  | accepted (reg : Registration) (e : Endpoint) (hreg : bus.registration? object = some reg)
      (hmethod : reg.object.hasMethod method = true) (hend : bus.endpoint? reg.owner = some e)
      (hnew : bus.nextId ∉ callIds h)
      (hnotes : bus.notes (.call caller object method data) =
        [.accepted ⟨caller, reg.owner, ⟨bus.nextId, object, method, data⟩⟩])
      (hcall : bus.call caller object method data =
        { bus.setEndpoint
            { e with inbox := e.inbox ++ [⟨bus.nextId, object, method, data⟩] } with
          nextId := bus.nextId + 1
          waiting := bus.waiting ++ [⟨bus.nextId, reg.owner, caller⟩] })

theorem serves {bus : MemoryBus} {h : List Note} (hr : Recorded bus h) (hh : Housed bus h)
    (hbound : (calls h).length < UInt32.size) (caller : Caller) (object method : String)
    (data : Option Table) : bus.Serves h caller object method data := by
  have hnew := hr.numbered.new_id hbound
  cases hreg : bus.registration? object with
  | none => exact .unknown hreg (by simp [call, hreg])
  | some reg =>
    cases hmethod : reg.object.hasMethod method with
    | false => exact .unexported reg hreg hmethod hnew (by simp [call, hreg, hmethod])
    | true =>
      rcases endpoint?_of_mem_ids (hh.registered reg (mem_of_registration? hreg).1) with ⟨e, hend⟩
      -- No call waits under a new number, so none is given up for the new call.
      have hother : ∀ w ∈ bus.waiting, (w.id == bus.nextId) = false := by
        intro w hw
        simpa using hr.resolved.waiting_ne hr.numbered hbound w hw
      have hkept : (bus.waiting.filter fun w => !(w.id == bus.nextId)) = bus.waiting := by
        rw [List.filter_eq_self]
        intro w hw
        simp [hother w hw]
      have hfailed : (bus.waiting.filter fun w => w.id == bus.nextId) = [] := by
        rw [List.filter_eq_nil_iff]
        intro w hw
        simp [hother w hw]
      refine .accepted reg e hreg hmethod hend hnew ?_ ?_
      · simp [notes, callNotes, hreg, hmethod, hend, failNotes, hfailed]
      · simp [call, hreg, hmethod, hend, failCalls, setEndpoint, hkept, hfailed]

/-! ## Runs -/

/-- What holds after every run of the bus, and what the next act can do. -/
structure Delivered (acts : List Act) (bus : MemoryBus) (h : List Note) : Prop where
  /-- Every object belongs to a connection that was made and not dropped. -/
  registered : ∀ reg ∈ bus.registrations, reg.owner ∈ openConnections acts
  /-- So does every waiting call. -/
  waiting : ∀ w ∈ bus.waiting, w.owner ∈ openConnections acts
  names : (bus.registrations.map (·.object.name)).Nodup
  numbers : (callIds h).Nodup
  /-- An open connection gets the calls that were accepted for it once and in order: what it has not
  taken is in its inbox. -/
  inboxes : ∀ c ∈ openConnections acts, ∃ e, bus.endpoint? c = some e ∧
    receivedBy c h ++ e.inbox = acceptedBy c h
  /-- No connection ever takes anything else. -/
  taken : ∀ c, receivedBy c h <+: acceptedBy c h
  /-- An accepted call waits and has no outcome, or waits no more and has one. -/
  outcomes : ∀ a ∈ calls h,
    a.waiting ∈ bus.waiting ∧ (answeredIds h).count a.request.id = 0 ∨
      a.waiting ∉ bus.waiting ∧ (answeredIds h).count a.request.id = 1
  /-- An outcome goes to the caller of the call, and a reply carries the number of the call. -/
  told : ∀ id caller outcome, .answered id caller outcome ∈ h →
    ∃ a ∈ calls h, a.request.id = id ∧ a.caller = caller ∧
      ∀ r, outcome = .replied r → r.id = id
  answers : bus.answers = answersOf h
  /-- The next act treats every waiting call as it should: the first reply with its number, the loss
  of its connection and the loss of all connections settle it, and nothing else does. -/
  treats : ∀ m, ∀ w ∈ bus.waiting, bus.Treats m w
  /-- The next act tells nobody else an outcome. -/
  settled : ∀ m id caller outcome, .answered id caller outcome ∈ bus.notes m →
    ∃ w ∈ bus.waiting, w.id = id ∧ w.caller = caller ∧ m.settles w = some outcome
  /-- Dropping a connection takes away what is its own and nothing else. -/
  dropped : ∀ c,
    (bus.drop c).registrations = bus.registrations.filter (fun reg => reg.owner != c) ∧
      (bus.drop c).waiting = bus.waiting.filter (fun w => !(w.owner == c)) ∧
        (bus.drop c).endpoints = bus.endpoints.filter (fun e => e.id != c)
  serves : ∀ caller object method data, bus.Serves h caller object method data
  /-- No call of a registered object ever failed to be sent. -/
  sent : ∀ caller object method, .rejected caller object method (.failed .disconnected) ∉ h

theorem recorded_run {acts : List Act}
    (hbound : (calls (observed.run {} acts).2).length ≤ UInt32.size) :
    Recorded (observed.run {} acts).1 (observed.run {} acts).2 := by
  induction acts using List.reverseRecOn with
  | nil => exact recorded_init
  | append_singleton acts m ih =>
    rw [Observed.run_append_singleton] at hbound ⊢
    refine (ih ?_).act m hbound
    have hsplit := congrArg List.length
      (calls_append (observed.notes (observed.run {} acts).1 m) (observed.run {} acts).2)
    simp only [Observed.after, List.length_append] at hbound hsplit
    omega

theorem housed_run (acts : List Act) :
    Housed (observed.run {} acts).1 (observed.run {} acts).2 :=
  observed.run_invariant housed_init (fun _ _ m hh => hh.act m) acts

/-- An accepted call has an outcome exactly if it does not wait. -/
theorem Resolved.outcome {bus : MemoryBus} {h : List Note} (hr : Resolved bus h) {a : Call}
    (ha : a ∈ calls h) :
    a.waiting ∈ bus.waiting ∧ (answeredIds h).count a.request.id = 0 ∨
      a.waiting ∉ bus.waiting ∧ (answeredIds h).count a.request.id = 1 := by
  by_cases hanswered : a.request.id ∈ answeredIds h
  · right
    refine ⟨?_, List.count_eq_one_of_mem hr.once hanswered⟩
    intro hw
    rcases hr.mem_waiting.1 hw with ⟨b, hb, hopen, hsame⟩
    have hid : b.request.id = a.request.id := congrArg WaitingCall.id hsame
    exact hopen (hid ▸ hanswered)
  · exact Or.inl ⟨hr.mem_waiting.2 ⟨a, ha, hanswered, rfl⟩, List.count_eq_zero.2 hanswered⟩

/-- On the bus no call is lost, given to the wrong connection, or answered twice or to the wrong
caller, as long as the numbers of calls do not wrap around. -/
theorem delivered_run (acts : List Act)
    (hbound : (calls (observed.run {} acts).2).length < UInt32.size) :
    Delivered acts (observed.run {} acts).1 (observed.run {} acts).2 := by
  have hr := recorded_run (Nat.le_of_lt hbound)
  have hh := housed_run acts
  have hids := hr.nodup_callIds (Nat.le_of_lt hbound)
  have hopen := ids_run acts
  exact {
    registered := fun reg hreg => hopen ▸ hh.registered reg hreg
    waiting := fun w hw => hopen ▸ hh.waiting w hw
    names := hh.names
    numbers := hids
    inboxes := by
      intro c hc
      rw [← hopen] at hc
      rcases endpoint?_of_mem_ids hc with ⟨e, hend⟩
      have hfound := mem_of_endpoint? hend
      exact ⟨e, hend, hfound.2 ▸ hr.boxed.inbox e hfound.1⟩
    taken := hr.boxed.taken
    outcomes := fun a ha => hr.resolved.outcome ha
    told := hr.resolved.told
    answers := hr.answers
    treats := fun m w hw => MemoryBus.treats hr hbound hw m
    settled := fun m id caller outcome hmem => settled_of_answered hr hbound hmem
    dropped := fun c => ⟨rfl, rfl, rfl⟩
    serves := MemoryBus.serves hr hh hbound
    sent := hh.sent }

/-- A client takes over the name of another one, whose connection is dropped while both have a call
to answer. -/
theorem delivered_takenOver :
    let acts : List Act :=
      [.connect, .addObject 1 ⟨"demo", ["ping"]⟩, .call "alice" "demo" "ping" none, .connect,
        .addObject 2 ⟨"demo", ["ping"]⟩, .call "bob" "demo" "ping" none, .receive 1, .drop 1,
        .reply 2 ⟨1, .ok, none⟩]
    (calls (observed.run {} acts).2).length < UInt32.size ∧
      Delivered acts (observed.run {} acts).1 (observed.run {} acts).2 ∧
        openConnections acts = [2] ∧
          (observed.run {} acts).1.methods? "demo" = some ["ping"] := by
  intro acts
  have hbound : (calls (observed.run {} acts).2).length < UInt32.size := by decide +kernel
  exact ⟨hbound, delivered_run acts hbound, by decide +kernel, by decide +kernel⟩

end ScriptService.MemoryBus
