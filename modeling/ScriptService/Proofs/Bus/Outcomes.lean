import ScriptService.Proofs.Bus.Calls

/-!
# Outcomes of calls

An accepted call waits until it is given its outcome, and is given one once: by a reply that
carries its number, or by the loss of the connection that was to answer it. The statements hold as
long as the numbers of calls have not wrapped around.

Main statement: `MemoryBus.Recorded.act`, by which every act keeps the bus in step with its history.
-/

namespace ScriptService.MemoryBus

/-- The waiting calls are those accepted that have no outcome; every outcome goes to the caller of
an accepted call, and a reply carries the number of the call. -/
structure Resolved (bus : MemoryBus) (h : List Note) : Prop where
  waiting : bus.waiting = (openCalls h).map Call.waiting
  once : (answeredIds h).Nodup
  told : ∀ id caller outcome, .answered id caller outcome ∈ h →
    ∃ a ∈ calls h, a.request.id = id ∧ a.caller = caller ∧
      ∀ r, outcome = .replied r → r.id = id

theorem call_eq_of_id_eq {h : List Note} (hids : (callIds h).Nodup) {a b : Call}
    (ha : a ∈ calls h) (hb : b ∈ calls h) (hid : a.request.id = b.request.id) : a = b :=
  List.inj_on_of_nodup_map hids ha hb hid

theorem mem_openCalls {a : Call} {h : List Note} :
    a ∈ openCalls h ↔ a ∈ calls h ∧ a.request.id ∉ answeredIds h := by
  simp [openCalls]

theorem Resolved.mem_waiting {bus : MemoryBus} {h : List Note} (hr : Resolved bus h)
    {w : WaitingCall} : w ∈ bus.waiting ↔
      ∃ a ∈ calls h, a.request.id ∉ answeredIds h ∧ a.waiting = w := by
  rw [hr.waiting, List.mem_map]
  constructor
  · rintro ⟨a, ha, rfl⟩
    exact ⟨a, (mem_openCalls.1 ha).1, (mem_openCalls.1 ha).2, rfl⟩
  · rintro ⟨a, ha, hopen, rfl⟩
    exact ⟨a, mem_openCalls.2 ⟨ha, hopen⟩, rfl⟩

/-- Notes that accept no call and give no outcome change nothing. -/
theorem Resolved.extend {bus b : MemoryBus} {h : List Note} (hr : Resolved bus h) (ns : List Note)
    (hcalls : calls ns = []) (hanswered : answeredIds ns = [])
    (hwaiting : b.waiting = bus.waiting) : Resolved b (ns ++ h) where
  waiting := by
    simp [hwaiting, hr.waiting, openCalls, calls_append, answeredIds_append, hcalls, hanswered]
  once := by simpa [answeredIds_append, hanswered] using hr.once
  told := by
    intro id caller outcome hmem
    rw [calls_append, hcalls, List.append_nil]
    rcases List.mem_append.1 hmem with hnew | hold
    · have hid : id ∈ answeredIds ns := mem_answeredIds.2 ⟨caller, outcome, hnew⟩
      rw [hanswered] at hid
      cases hid
    · exact hr.told id caller outcome hold

/-- The number of an open call is among those of the waiting calls that meet a condition exactly if
the call meets it: numbers tell calls apart. -/
theorem Resolved.mem_settled {bus : MemoryBus} {h : List Note} (hr : Resolved bus h)
    (hids : (callIds h).Nodup) (which : WaitingCall → Bool) {a : Call} (ha : a ∈ calls h)
    (hopen : a.request.id ∉ answeredIds h) :
    a.request.id ∈ (bus.waiting.filter which).map (·.id) ↔ which a.waiting = true := by
  rw [List.mem_map]
  constructor
  · rintro ⟨w, hw, hid⟩
    obtain ⟨hw, hwhich⟩ := List.mem_filter.1 hw
    obtain ⟨b, hb, -, rfl⟩ := hr.mem_waiting.1 hw
    obtain rfl : b = a := call_eq_of_id_eq hids hb ha hid
    exact hwhich
  · intro hwhich
    exact ⟨a.waiting, List.mem_filter.2 ⟨hr.mem_waiting.2 ⟨a, ha, hopen, rfl⟩, hwhich⟩, rfl⟩

/-- The calls that meet a condition and are given an outcome are no longer open. -/
theorem Resolved.openCalls_settle {bus : MemoryBus} {h : List Note} (hr : Resolved bus h)
    (hids : (callIds h).Nodup) (which : WaitingCall → Bool) {ns : List Note}
    (hcalls : calls ns = [])
    (hanswered : answeredIds ns = ((bus.waiting.filter which).map (·.id)).reverse) :
    openCalls (ns ++ h) = (openCalls h).filter fun a => !which a.waiting := by
  rw [openCalls, openCalls, calls_append, hcalls, List.append_nil, List.filter_filter]
  refine List.filter_congr fun a ha => ?_
  rw [answeredIds_append, hanswered]
  by_cases hold : a.request.id ∈ answeredIds h
  · simp [hold]
  · have hcontains : (((bus.waiting.filter which).map (·.id)).reverse ++
        answeredIds h).contains a.request.id = which a.waiting := by
      rw [Bool.eq_iff_iff, List.contains_iff_mem, List.mem_append, List.mem_reverse,
        hr.mem_settled hids which ha hold]
      simp [hold]
    rw [hcontains]
    simp [hold]

/-- The waiting calls that meet a condition are given an outcome; the others go on waiting. -/
theorem Resolved.settle {bus b : MemoryBus} {h : List Note} (hr : Resolved bus h)
    (hids : (callIds h).Nodup) (which : WaitingCall → Bool) (ns : List Note)
    (hcalls : calls ns = [])
    (hanswered : answeredIds ns = ((bus.waiting.filter which).map (·.id)).reverse)
    (htold : ∀ id caller outcome, .answered id caller outcome ∈ ns →
      ∃ w ∈ bus.waiting, w.id = id ∧ w.caller = caller ∧ ∀ r, outcome = .replied r → r.id = id)
    (hwaiting : b.waiting = bus.waiting.filter fun w => !which w) : Resolved b (ns ++ h) := by
  have hopen := hr.openCalls_settle hids which hcalls hanswered
  refine ⟨?_, ?_, ?_⟩
  · rw [hwaiting, hr.waiting, hopen, List.filter_map]
    rfl
  · rw [answeredIds_append, hanswered, List.nodup_append]
    refine ⟨?_, hr.once, ?_⟩
    · rw [List.nodup_reverse, hr.waiting]
      have hsub : (((openCalls h).map Call.waiting).filter which).map (·.id) =
          ((openCalls h).filter (which ∘ Call.waiting)).map (·.request.id) := by
        rw [List.filter_map, List.map_map]
        rfl
      rw [hsub]
      exact ((List.filter_sublist.trans List.filter_sublist).map _).nodup hids
    · -- A call that waits has no outcome yet.
      intro id hnew other hold
      rintro rfl
      obtain ⟨w, hw, rfl⟩ := List.mem_map.1 (List.mem_reverse.1 hnew)
      obtain ⟨a, -, hnot, rfl⟩ := hr.mem_waiting.1 (List.mem_filter.1 hw).1
      exact hnot hold
  · intro id caller outcome hmem
    rw [calls_append, hcalls, List.append_nil]
    rcases List.mem_append.1 hmem with hnew | hold
    · obtain ⟨w, hw, hid, hcaller, hreply⟩ := htold id caller outcome hnew
      obtain ⟨a, ha, -, rfl⟩ := hr.mem_waiting.1 hw
      exact ⟨a, ha, hid, hcaller, hreply⟩
    · exact hr.told id caller outcome hold

theorem answeredIds_failNotes (bus : MemoryBus) (which : WaitingCall → Bool) :
    answeredIds (bus.failNotes which) = ((bus.waiting.filter which).map (·.id)).reverse := by
  unfold failNotes
  induction bus.waiting.filter which with
  | nil => rfl
  | cons w rest ih => simp [answeredIds_append, ih, answeredIds]

theorem answeredIds_told (told : List (Caller × String)) (methods : List String) :
    answeredIds ((told.map fun w => Note.told w.1 methods).reverse) = [] := by
  rw [List.eq_nil_iff_forall_not_mem]
  intro id hid
  simp [mem_answeredIds] at hid

/-- Calls that meet a condition fail. -/
theorem Resolved.fail {bus b : MemoryBus} {h : List Note} (hr : Resolved bus h)
    (hids : (callIds h).Nodup) (which : WaitingCall → Bool)
    (hwaiting : b.waiting = bus.waiting.filter fun w => !which w) :
    Resolved b (bus.failNotes which ++ h) := by
  refine hr.settle hids which _ (calls_failNotes _ _) (answeredIds_failNotes _ _) ?_ hwaiting
  intro id caller outcome hmem
  obtain ⟨w, hw, -, heq⟩ := mem_failNotes.1 hmem
  obtain ⟨rfl, rfl, rfl⟩ := Note.answered.inj heq
  exact ⟨w, hw, rfl, rfl, by simp⟩

theorem Resolved.nodup_waiting {bus : MemoryBus} {h : List Note} (hr : Resolved bus h)
    (hids : (callIds h).Nodup) : (bus.waiting.map (·.id)).Nodup := by
  rw [hr.waiting, List.map_map]
  exact (List.filter_sublist.map _).nodup hids

theorem Resolved.reply {bus : MemoryBus} {h : List Note} (hr : Resolved bus h)
    (hids : (callIds h).Nodup) (c : ConnectionId) (r : Reply) :
    Resolved (bus.act (.reply c r)) (bus.notes (.reply c r) ++ h) := by
  cases hw : bus.waiting.find? fun w => w.id == r.id with
  | none => simpa [act, notes, MemoryBus.reply, hw] using hr
  | some w =>
    have hmem : w ∈ bus.waiting := List.mem_of_find?_eq_some hw
    have hid : w.id = r.id := by simpa using List.find?_some hw
    -- Numbers are unique, so the reply finds the only call that waits under its number.
    have hone : bus.waiting.filter (fun v => v.id == r.id) = [w] := by
      rw [← hid]
      exact filter_key_eq (hr.nodup_waiting hids) hmem
    simp only [act, notes, MemoryBus.reply, hw]
    refine hr.settle hids (fun v => v.id == r.id) [.answered r.id w.caller (.replied r)] rfl ?_ ?_
      ?_
    · rw [hone]
      simp [answeredIds, hid]
    · intro id caller outcome hans
      obtain ⟨rfl, rfl, rfl⟩ : id = r.id ∧ caller = w.caller ∧ outcome = .replied r := by
        simpa using hans
      exact ⟨w, hmem, hid, rfl, by simp⟩
    · rfl

theorem Resolved.accept {bus b : MemoryBus} {h : List Note} (hr : Resolved bus h) (call : Call)
    (hnew : call.request.id ∉ callIds h)
    (hwaiting : b.waiting = bus.waiting ++ [call.waiting]) : Resolved b (.accepted call :: h) where
  waiting := by
    have hopen : call.request.id ∉ answeredIds h := by
      intro hmem
      obtain ⟨caller, outcome, hans⟩ := mem_answeredIds.1 hmem
      obtain ⟨a, ha, hid, -⟩ := hr.told _ _ _ hans
      exact hnew (List.mem_map.2 ⟨a, ha, hid⟩)
    rw [hwaiting, hr.waiting]
    simp [openCalls, calls, answeredIds, hopen]
  once := hr.once
  told := by
    intro id caller outcome hmem
    obtain ⟨a, ha, hrest⟩ := hr.told id caller outcome (by simpa using hmem)
    exact ⟨a, by simp [calls, ha], hrest⟩

/-- The number that is given out next has not been given out yet. -/
theorem Numbered.new_id {bus : MemoryBus} {h : List Note} (hn : Numbered bus h)
    (hbound : (calls h).length < UInt32.size) : bus.nextId ∉ callIds h := by
  rw [hn.1, hn.2]
  exact not_mem_numbersGiven hbound

/-- No call waits under the number that is given out next. -/
theorem Resolved.waiting_ne {bus : MemoryBus} {h : List Note} (hr : Resolved bus h)
    (hn : Numbered bus h) (hbound : (calls h).length < UInt32.size) :
    ∀ w ∈ bus.waiting, w.id ≠ bus.nextId := by
  intro w hw hid
  obtain ⟨a, ha, -, rfl⟩ := hr.mem_waiting.1 hw
  exact hn.new_id hbound (List.mem_map.2 ⟨a, ha, hid⟩)

/-- As long as the numbers of calls do not wrap around, every act keeps waiting calls and outcomes
in step with the history. -/
theorem Resolved.act {bus : MemoryBus} {h : List Note} (hr : Resolved bus h)
    (hn : Numbered bus h) (a : Act) (hbound : (calls (bus.notes a ++ h)).length ≤ UInt32.size) :
    Resolved (bus.act a) (bus.notes a ++ h) := by
  have hle : (calls h).length ≤ UInt32.size := by
    rw [calls_append, List.length_append] at hbound
    omega
  have hids : (callIds h).Nodup := by
    rw [hn.2]
    exact nodup_numbersGiven hle
  cases a with
  | connect => exact hr.extend [] rfl rfl rfl
  | addObject c object =>
    rcases bus.addObject_cases c object with ⟨hact, hnotes⟩ | ⟨e, -, -, hact, hnotes⟩
    · rw [hact, hnotes]
      exact hr
    · rw [hact, hnotes]
      exact hr.extend _ (calls_told _ _) (answeredIds_told _ _) rfl
  | receive c =>
    rcases bus.receive_cases c with ⟨hact, hnotes, -⟩ | ⟨e, r, rest, -, -, hreceive, hnotes⟩
    · rw [hact, hnotes]
      exact hr
    · rw [MemoryBus.act, hreceive, hnotes]
      exact hr.extend _ rfl rfl rfl
  | reply c r => exact hr.reply hids c r
  | drop c =>
    simp only [notes, List.append_assoc]
    have hlost : Resolved bus ([.lost (some c)] ++ h) := hr.extend _ rfl rfl rfl
    exact hlost.fail hids _ rfl
  | call caller object method data =>
    simp only [MemoryBus.act, notes] at hbound ⊢
    rcases bus.call_cases caller object method data with ⟨outcome, hnotes, hcall⟩ |
      ⟨reg, e, -, -, -, hnotes, hcall⟩
    · rw [hnotes, hcall]
      exact hr.extend _ rfl rfl rfl
    · rw [hnotes, hcall]
      rw [hnotes] at hbound
      have hlt : (calls h).length < UInt32.size := by
        rw [List.cons_append, calls, calls_append, calls_failNotes] at hbound
        simp only [List.append_nil, List.length_append, List.length_singleton] at hbound
        omega
      -- No call waits under a new number, so none is given up.
      have hnone := hr.waiting_ne hn hlt
      have hfail : bus.failNotes (fun w => w.id == bus.nextId) = [] := by
        rw [failNotes, List.reverse_eq_nil_iff, List.map_eq_nil_iff, List.filter_eq_nil_iff]
        exact fun w hw => by simpa using hnone w hw
      rw [hfail]
      refine hr.accept ⟨caller, reg.owner, ⟨bus.nextId, object, method, data⟩⟩ (hn.new_id hlt) ?_
      have hkeep : (bus.waiting.filter fun w => !(w.id == bus.nextId)) = bus.waiting := by
        rw [List.filter_eq_self]
        exact fun w hw => by simpa using hnone w hw
      simp only [hkeep, Call.waiting]
  | await caller object =>
    cases hm : bus.methods? object with
    | none =>
      simp only [MemoryBus.act, notes, awaitObject, hm]
      exact hr.extend [] rfl rfl rfl
    | some methods =>
      simp only [MemoryBus.act, notes, awaitObject, hm]
      exact hr.extend _ rfl rfl rfl
  | disconnectAll =>
    simp only [notes, List.append_assoc]
    have hlost : Resolved bus ([.lost none] ++ h) := hr.extend _ rfl rfl rfl
    exact hlost.fail hids _ rfl

/-! ## Losses -/

/-- Whether a loss concerns a connection. -/
def LossOf (lost : Option ConnectionId) (c : ConnectionId) : Prop := lost = none ∨ lost = some c

/-- A call that has no outcome when the connection that is to answer it is lost fails. -/
def LossesTold (h : List Note) : Prop :=
  ∀ later lost past, h = later ++ .lost lost :: past → ∀ a ∈ calls past, LossOf lost a.owner →
    a.request.id ∉ answeredIds past →
      .answered a.request.id a.caller (.failed .disconnected) ∈ h

/-- Where a note stands that is not among the latest ones. -/
theorem append_eq_of_not_mem {ns h later past : List Note} {n : Note} (hn : n ∉ ns)
    (heq : ns ++ h = later ++ n :: past) : ∃ rest, later = ns ++ rest ∧ h = rest ++ n :: past := by
  rcases List.append_eq_append_iff.1 heq with hafter | ⟨rest, hns, hrest⟩
  · exact hafter
  · cases rest with
    | nil => exact ⟨[], by simpa using hns.symm, by simpa using hrest.symm⟩
    | cons m rest =>
      obtain ⟨rfl, -⟩ := List.cons.inj hrest
      exact absurd (by simp [hns]) hn

theorem LossesTold.extend {h ns : List Note} (hl : LossesTold h) (hns : ∀ l, .lost l ∉ ns) :
    LossesTold (ns ++ h) := by
  intro later lost past heq a ha hloss hopen
  obtain ⟨rest, -, hh⟩ := append_eq_of_not_mem (hns lost) heq
  exact List.mem_append_right _ (hl rest lost past hh a ha hloss hopen)

theorem lost_not_mem_failNotes (bus : MemoryBus) (which : WaitingCall → Bool)
    (lost : Option ConnectionId) : .lost lost ∉ bus.failNotes which := by
  intro hmem
  obtain ⟨w, -, -, heq⟩ := mem_failNotes.1 hmem
  cases heq

theorem LossesTold.lose {bus : MemoryBus} {h : List Note} (hl : LossesTold h)
    (hr : Resolved bus h) (lost : Option ConnectionId) (which : WaitingCall → Bool)
    (hwhich : ∀ w : WaitingCall, LossOf lost w.owner → which w = true) :
    LossesTold (bus.failNotes which ++ .lost lost :: h) := by
  intro later lost' past heq a ha hloss hopen
  obtain ⟨rest, -, hh⟩ := append_eq_of_not_mem (lost_not_mem_failNotes bus which lost') heq
  cases rest with
  | nil =>
    -- This is the loss: the call waits, so it is among those that fail.
    obtain ⟨hn, rfl⟩ := List.cons.inj hh
    cases hn
    refine List.mem_append_left _ (mem_failNotes.2 ⟨a.waiting, ?_, hwhich _ hloss, rfl⟩)
    exact hr.mem_waiting.2 ⟨a, ha, hopen, rfl⟩
  | cons n rest =>
    obtain ⟨rfl, hold⟩ := List.cons.inj hh
    exact List.mem_append_right _
      (List.mem_cons_of_mem _ (hl rest lost' past hold a ha hloss hopen))

theorem LossesTold.act {bus : MemoryBus} {h : List Note} (hl : LossesTold h)
    (hr : Resolved bus h) (a : Act) : LossesTold (bus.notes a ++ h) := by
  cases a with
  | connect => exact hl
  | addObject c object =>
    refine hl.extend fun l hmem => ?_
    rcases bus.addObject_cases c object with ⟨-, hnotes⟩ | ⟨e, -, -, -, hnotes⟩
    · simp [hnotes] at hmem
    · simp [hnotes] at hmem
  | receive c =>
    refine hl.extend fun l hmem => ?_
    rcases bus.receive_cases c with ⟨-, hnotes, -⟩ | ⟨e, r, rest, -, -, -, hnotes⟩
    · simp [hnotes] at hmem
    · simp [hnotes] at hmem
  | reply c r =>
    refine hl.extend fun l hmem => ?_
    cases hw : bus.waiting.find? fun w => w.id == r.id with
    | none => simp [notes, hw] at hmem
    | some w => simp [notes, hw] at hmem
  | drop c =>
    simp only [notes, List.append_assoc, List.singleton_append]
    exact hl.lose hr (some c) _ fun w hloss => by
      rcases hloss with hnone | hsome
      · cases hnone
      · simpa using (Option.some.inj hsome).symm
  | call caller object method data =>
    refine hl.extend fun l hmem => ?_
    simp only [notes] at hmem
    rcases bus.call_cases caller object method data with ⟨outcome, hnotes, -⟩ |
      ⟨reg, e, -, -, -, hnotes, -⟩
    · simp [hnotes] at hmem
    · rw [hnotes] at hmem
      rcases List.mem_cons.1 hmem with heq | hmem
      · cases heq
      · exact lost_not_mem_failNotes _ _ l hmem
  | await caller object =>
    refine hl.extend fun l hmem => ?_
    cases hm : bus.methods? object with
    | none => simp [notes, hm] at hmem
    | some methods => simp [notes, hm] at hmem
  | disconnectAll =>
    simp only [notes, List.append_assoc, List.singleton_append]
    exact hl.lose hr none _ fun _ _ => rfl

/-! ## The whole bus -/

/-- The history of a run tells all there is to know of the bus. -/
structure Recorded (bus : MemoryBus) (h : List Note) : Prop where
  numbered : Numbered bus h
  boxed : Boxed bus h
  resolved : Resolved bus h
  losses : LossesTold h
  answers : bus.answers = answersOf h

theorem recorded_init : Recorded {} [] where
  numbered := ⟨rfl, rfl⟩
  boxed :=
    { inbox := fun e he => by cases he
      taken := fun c => List.prefix_refl _
      endpoints := fun e he => by cases he
      owners := fun a ha => by cases ha }
  resolved :=
    { waiting := rfl
      once := List.nodup_nil
      told := fun id caller outcome hmem => by cases hmem }
  losses := by
    intro later lost past heq
    cases later with
    | nil => cases heq
    | cons n later => cases heq
  answers := rfl

theorem Recorded.act {bus : MemoryBus} {h : List Note} (hr : Recorded bus h) (a : Act)
    (hbound : (calls (bus.notes a ++ h)).length ≤ UInt32.size) :
    Recorded (bus.act a) (bus.notes a ++ h) where
  numbered := hr.numbered.act a
  boxed := hr.boxed.act a
  resolved := hr.resolved.act hr.numbered a hbound
  losses := hr.losses.act hr.resolved a
  answers := answers_act hr.answers a

theorem Recorded.nodup_callIds {bus : MemoryBus} {h : List Note} (hr : Recorded bus h)
    (hbound : (calls h).length ≤ UInt32.size) : (callIds h).Nodup := by
  rw [hr.numbered.2]
  exact nodup_numbersGiven hbound

end ScriptService.MemoryBus
