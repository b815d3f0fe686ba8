import ScriptService.Proofs.Host.Stages

/-!
# The outcome of a run

How each part of a script may end, and what that means for the run: which parts follow, when the
event loop is left, and the status that the run ends with.

Main statement: `HostRun.decided`.
-/

namespace ScriptService

namespace HostRun

/-! ## Milestones -/

/-- What decides about the outcome of a run. -/
inductive Milestone where
  | ran (part : Part) (result : Except Fault Value)
  | found (name : String) (entry : EntryPoint)
  | left
  deriving Inhabited

def Note.milestone? : Note → Option Milestone
  | .ended part _ result => some (.ran part result)
  | .found name entry => some (.found name entry)
  | .left => some .left
  | _ => none

/-- The milestones of a run, in order. -/
def milestones (h : List Note) : List Milestone := (h.filterMap Note.milestone?).reverse

/-- A part that an event made the host run, and how it ended. -/
abbrev Dispatched := Part × Except Fault Value

def ranAll (events : List Dispatched) : List Milestone := events.map fun e => .ran e.1 e.2

/-- The status that a part asks the host to end with, if it ends with an exit: the code given to the
exit, or 0 if that does not fit into 32 bits. -/
def exitStatus? : Except Fault Value → Option Int
  | .ok _ => none
  | .error fault =>
    match fault.cause with
    | .terminated v =>
      match v.int? with
      | some i => some (if -2147483648 ≤ i.toInt ∧ i.toInt ≤ 2147483647 then i.toInt else 0)
      | none => some 0
    | _ => none

/-- Whether a part came upon a text that is no script when it ran the text. -/
def isMisread (fault : Fault) : Bool :=
  match fault.cause with
  | .syntaxError _ => true
  | _ => false

/-- Whether a note is a request to stop the event loop: by the script, from outside, by a signal, or
by an exit of a part that the loop runs. -/
def Note.isRequest : Note → Bool
  | .asked => true
  | .signalled => true
  | .ended part _ result => part.dispatched && (exitStatus? result).isSome
  | _ => false

/-- The milestones of a run of a script's file that has its status, and the status. -/
inductive Outcome (file : ScriptFile) : List Milestone → Int → Prop where
  /-- The file cannot be read, or does not compile: no code runs. -/
  | unrunnable (hfile : file.runs = false) : Outcome file [] (-1)
  | topRaised (fault : Fault) (hfile : file.runs = true)
      (hraised : exitStatus? (.error fault) = none) (hmisread : isMisread fault = false) :
      Outcome file [.ran .top (.error fault)] (-2)
  /-- A text that the top level ran is no script, which counts as a script that does not compile. -/
  | topMisread (fault : Fault) (hfile : file.runs = true) (hmisread : isMisread fault = true) :
      Outcome file [.ran .top (.error fault)] (-1)
  | topExited (fault : Fault) (status : Int) (hfile : file.runs = true)
      (hexited : exitStatus? (.error fault) = some status) :
      Outcome file [.ran .top (.error fault)] status
  /-- There is no `start`, or it is not callable. -/
  | unstarted (v : Value) (entry : EntryPoint) (hfile : file.runs = true)
      (hentry : ∀ f, entry ≠ .callable f) :
      Outcome file [.ran .top (.ok v), .found "start" entry] (-2)
  | startRaised (v : Value) (f : Callback) (fault : Fault) (hfile : file.runs = true)
      (hraised : exitStatus? (.error fault) = none) :
      Outcome file
        [.ran .top (.ok v), .found "start" (.callable f), .ran (.start f) (.error fault)] (-2)
  | startExited (v : Value) (f : Callback) (fault : Fault) (status : Int) (hfile : file.runs = true)
      (hexited : exitStatus? (.error fault) = some status) :
      Outcome file
        [.ran .top (.ok v), .found "start" (.callable f), .ran (.start f) (.error fault)] status
  /-- The loop was left, and there is no callable `stop`. Only the last event can have been an
  exit. -/
  | unstopped (v w : Value) (f : Callback) (events : List Dispatched) (entry : EntryPoint)
      (hfile : file.runs = true) (hevents : ∀ e ∈ events, e.1.dispatched = true)
      (hlast : ∀ e ∈ events.dropLast, exitStatus? e.2 = none)
      (hentry : ∀ g, entry ≠ .callable g) :
      Outcome file
        ([.ran .top (.ok v), .found "start" (.callable f), .ran (.start f) (.ok w)] ++
          ranAll events ++ [.left, .found "stop" entry])
        ((events.findSome? fun e => exitStatus? e.2).getD 0)
  /-- The loop was left, and `stop` was called; an exit of `stop` counts for more than one of an
  event. -/
  | stopped (v w : Value) (f : Callback) (events : List Dispatched) (g : Callback)
      (result : Except Fault Value) (hfile : file.runs = true)
      (hevents : ∀ e ∈ events, e.1.dispatched = true)
      (hlast : ∀ e ∈ events.dropLast, exitStatus? e.2 = none) :
      Outcome file
        ([.ran .top (.ok v), .found "start" (.callable f), .ran (.start f) (.ok w)] ++
          ranAll events ++ [.left, .found "stop" (.callable g), .ran (.stop g) result])
        ((exitStatus? result).getD ((events.findSome? fun e => exitStatus? e.2).getD 0))

/-! ### Views of notes -/

@[simp]
theorem milestones_nil : milestones [] = [] := rfl

theorem milestones_append (ns h : List Note) :
    milestones (ns ++ h) = milestones h ++ milestones ns := by
  simp [milestones]

@[simp]
theorem milestones_cons (n : Note) (h : List Note) :
    milestones (n :: h) = milestones h ++ n.milestone?.toList := by
  unfold milestones
  cases hn : n.milestone? with
  | none => simp [hn]
  | some m => simp [hn]

/-- Notes of running code: timers that it starts, and its requests to stop. -/
theorem seen_notes (name : String) (args : List Value) (r : Resources) :
    ∀ n ∈ Resources.seen name args r,
      n = .asked ∨ ∃ id time delay f attached, n = .scheduled id time delay f attached := by
  have htimeout : ∀ callback delay attached, ∀ n ∈ r.timeoutNotes callback delay attached,
      ∃ id time delay f attached, n = Note.scheduled id time delay f attached := by
    intro callback delay attached n hn
    unfold Resources.timeoutNotes at hn
    split at hn
    · exact ⟨_, _, _, _, _, List.mem_singleton.1 hn⟩
    · cases hn
  intro n hn
  unfold Resources.seen at hn
  split at hn
  · exact Or.inr (htimeout _ _ _ n hn)
  · exact Or.inr (htimeout _ _ _ n hn)
  · exact Or.inl (List.mem_singleton.1 hn)
  · cases hn

theorem code_notes (part : Part) (l : Host) :
    ∀ n ∈ part.code.notes Resources.natives Resources.seen l.machine,
      n = .asked ∨ ∃ id time delay f attached, n = .scheduled id time delay f attached :=
  Code.mem_notes part.parametric seen_notes

@[simp]
theorem milestones_partNotes (part : Part) (l : Host) :
    milestones (l.partNotes part) = [.ran part (part.run l).1] := by
  have hcode : milestones (part.code.notes Resources.natives Resources.seen l.machine) = [] := by
    unfold milestones
    rw [List.reverse_eq_nil_iff, List.filterMap_eq_nil_iff]
    intro n hn
    rcases code_notes part l n hn with rfl | ⟨id, time, delay, f, attached, rfl⟩
    · rfl
    · rfl
  unfold Host.partNotes
  rw [milestones_cons, milestones_append, hcode]
  rfl

/-! ### Exits -/

theorem exitStatus?_eq (result : Except Fault Value) :
    exitStatus? result = (Part.exitCode? result).map (·.toInt) := by
  cases result with
  | ok v => rfl
  | error fault =>
    simp only [exitStatus?, Part.exitCode?, Fault.outcome]
    cases hcause : fault.cause with
    | terminated v =>
      simp only [exitStatus, Option.map_some]
      cases v.int? with
      | none => rfl
      | some i =>
        -- A code that fits into 32 bits is kept by the conversion.
        simp only
        split
        · rename_i hfits
          rw [Int32.toInt_ofInt_of_le hfits.1 (by omega)]
        · rfl
    | _ => rfl

theorem exitStatus?_of_exit {fault : Fault} {code : Int32} (hexit : fault.outcome = .exit code) :
    exitStatus? (.error fault) = some code.toInt := by
  rw [exitStatus?_eq, Part.exitCode?, hexit]
  rfl

theorem exitStatus?_of_raise {fault : Fault} (hraised : ∀ code, fault.outcome ≠ .exit code) :
    exitStatus? (.error fault) = none := by
  rw [exitStatus?_eq, Part.exitCode?]
  cases hout : fault.outcome with
  | exit code => exact absurd hout (hraised code)
  | compile => rfl
  | exception text => rfl

/-- The status of a failed top level tells a text that was no script from all else. -/
theorem failureStatus_eq (fault : Fault) :
    Host.failureStatus fault = if isMisread fault then -1 else -2 := by
  unfold Host.failureStatus Fault.outcome isMisread
  cases fault.cause <;> rfl

/-! ## Requests to stop -/

/-- Whether a note makes sure that the loop is left at its next turn, if not before. -/
def Note.stops : Note → Bool
  | .asked => true
  | .left => true
  | .ended part _ result => part.dispatched && (exitStatus? result).isSome
  | _ => false

end HostRun

/-- A host has the wish to stop and the exit code that the history says. -/
structure Host.Watched (code : Option Int32) (h : Host) (past : List HostRun.Note) : Prop where
  stopping : h.resources.stopping = true ↔ ∃ n ∈ past, n.stops = true
  exitCode : h.resources.exitCode = code

namespace Host

open HostRun (Note exitStatus? exitStatus?_eq)

variable {code : Option Int32} {h l : Host} {past : List Note}

theorem Watched.same {g : Host} (hw : Watched code h past)
    (hstopping : g.resources.stopping = h.resources.stopping)
    (hexit : g.resources.exitCode = h.resources.exitCode) : Watched code g past :=
  ⟨by rw [hstopping]; exact hw.stopping, hexit.trans hw.exitCode⟩

theorem Watched.alike {g : Host} (hw : Watched code h past) (halike : g.Alike h) :
    Watched code g past :=
  hw.same halike.stopping halike.exitCode

/-- A note that is no request changes nothing. -/
theorem Watched.cons (hw : Watched code h past) {n : Note} (hn : n.stops = false) :
    Watched code h (n :: past) := by
  refine ⟨hw.stopping.trans ?_, hw.exitCode⟩
  simp [hn]

/-- Running code asks the loop to stop exactly if it says so. -/
theorem Watched.keeps (hw : Watched code h past) (part : Part) :
    Watched code (part.run h).2
      (part.code.notes Resources.natives Resources.seen h.machine ++ past) := by
  -- A call of a function of the host asks the loop to stop exactly if it is noted as such.
  have hinvoke : ∀ name args r ns result s,
      ((r.stopping = true ↔ ∃ n ∈ ns, n.stops = true) ∧ r.exitCode = code) →
        Resources.natives.invoke name args r = some (result, s) →
          (s.stopping = true ↔ ∃ n ∈ Resources.seen name args r ++ ns, n.stops = true) ∧
            s.exitCode = code := by
    intro name args r ns result s hr hinvoke
    have hinvokes := Resources.invokes hinvoke
    generalize Resources.seen name args r = seen at hinvokes
    cases hinvokes with
    | scheduled f delay attached =>
      refine ⟨hr.1.trans ?_, hr.2⟩
      simp [Note.stops]
    | asked => exact ⟨by simp [Resources.stop, Note.stops], hr.2⟩
    | other _ _ _ hstopping hexit => exact ⟨by rw [hstopping]; exact hr.1, hexit.trans hr.2⟩
  have hkept := Code.keeps part.parametric
    (fun (r : Resources) (ns : List Note) =>
      (r.stopping = true ↔ ∃ n ∈ ns, n.stops = true) ∧ r.exitCode = code)
    hinvoke (fun _ _ _ hr => hr) ⟨hw.stopping, hw.exitCode⟩
  exact ⟨hkept.1, hkept.2⟩

theorem Watched.ran (hw : Watched code h past) (part : Part) :
    Watched code (part.run h).2
      (part.code.notes Resources.natives Resources.seen h.machine ++ .began part h.now :: past) :=
  (hw.cons (n := .began part h.now) rfl).keeps part

/-- The exit of a part that the loop does not run is no request to it. -/
theorem Watched.run (hw : Watched code h past) (part : Part) (hpart : part.dispatched = false) :
    Watched code (part.run h).2 (h.partNotes part ++ past) := by
  have hran := hw.ran part
  unfold partNotes
  rw [List.cons_append, List.append_assoc]
  exact hran.cons (by simp [Note.stops, hpart])

/-- The exit of a part that the loop runs is a request to stop with a status. -/
theorem Watched.finish (hw : Watched code h past) {part : Part} (hpart : part.dispatched = true) :
    Watched ((Part.exitCode? (part.run h).1).or code) (part.finish h)
      (h.partNotes part ++ past) := by
  have hran := hw.ran part
  unfold partNotes Part.finish Part.settle
  rw [List.cons_append, List.append_assoc, Part.settleTimer_frame]
  unfold Part.heedExit
  cases hexit : Part.exitCode? (part.run h).1 with
  | none =>
    have hquiet : (Note.ended part (part.run h).2.now (part.run h).1).stops = false := by
      simp [Note.stops, exitStatus?_eq, hexit]
    exact (hran.cons hquiet).same rfl rfl
  | some status =>
    refine ⟨?_, rfl⟩
    have hstops : (Note.ended part (part.run h).2.now (part.run h).1).stops = true := by
      simp [Note.stops, exitStatus?_eq, hexit, hpart]
    constructor
    · intro _
      exact ⟨_, List.mem_cons_self, hstops⟩
    · intro _
      rfl

end Host

namespace HostRun

/-- The loop was left only on a request. -/
def LeftOnRequest (h : List Note) : Prop :=
  ∀ later past, h = later ++ .left :: past → ∃ n ∈ past, n.isRequest = true

theorem LeftOnRequest.append {ns h : List Note} (hh : LeftOnRequest h) (hns : .left ∉ ns) :
    LeftOnRequest (ns ++ h) := by
  intro later past hsplit
  rcases List.append_eq_append_iff.1 hsplit with ⟨rest, -, hrest⟩ | ⟨rest, hlater, hrest⟩
  · exact hh rest past hrest
  · cases rest with
    | nil => exact hh [] past (by simpa using hrest.symm)
    | cons n rest =>
      -- The loop would have been left in the latest notes.
      cases (List.cons.inj hrest).1
      exact absurd (by rw [hlater]; simp) hns

theorem LeftOnRequest.left {h : List Note} (hh : LeftOnRequest h)
    (hrequest : ∃ n ∈ h, n.isRequest = true) : LeftOnRequest (.left :: h) := by
  intro later past hsplit
  cases later with
  | nil =>
    cases hsplit
    exact hrequest
  | cons n later => exact hh later past (List.cons.inj hsplit).2

/-- What makes sure that the loop is left goes back to a request. -/
theorem LeftOnRequest.request {h : List Note} (hh : LeftOnRequest h)
    (hstops : ∃ n ∈ h, n.stops = true) : ∃ n ∈ h, n.isRequest = true := by
  rcases hstops with ⟨n, hn, hstops⟩
  cases n with
  | left =>
    rcases List.append_of_mem hn with ⟨later, past, hsplit⟩
    rcases hh later past hsplit with ⟨n, hn, hrequest⟩
    exact ⟨n, by rw [hsplit]; simp [hn], hrequest⟩
  | asked => exact ⟨_, hn, rfl⟩
  | ended part time result => exact ⟨_, hn, hstops⟩
  | _ => cases hstops

theorem left_notMem_partNotes (part : Part) (l : Host) : .left ∉ l.partNotes part := by
  unfold Host.partNotes
  simp only [List.mem_cons, List.mem_append, List.not_mem_nil, or_false, reduceCtorEq, false_or]
  intro hmem
  rcases code_notes part l .left hmem with heq | ⟨id, time, delay, f, attached, heq⟩
  · cases heq
  · cases heq

/-! ## Runs -/

/-- A run in its loop: the parts that its events made it run, and nothing else since `start`. -/
structure Looping (v w : Value) (f : Callback) (events : List Dispatched) (g : Host)
    (h : List Note) : Prop where
  course : milestones h =
    [.ran .top (.ok v), .found "start" (.callable f), .ran (.start f) (.ok w)] ++ ranAll events ++
      if g.phase = .stopRequested then [.left] else []
  dispatched : ∀ e ∈ events, e.1.dispatched = true
  last : ∀ e ∈ events.dropLast, exitStatus? e.2 = none
  watched : g.Watched (events.findSome? fun e => Part.exitCode? e.2) h
  signalled : g.loop.terminationSignal = true → .signalled ∈ h

/-- What a run with a history has come to. -/
structure Underway (file : ScriptFile) (r : HostRun) (h : List Note) : Prop where
  staged : Staged r
  left : LeftOnRequest h
  launching : ∀ f, r.stage = .launching f → f = file ∧ milestones h = [] ∧
    r.host.Watched none h ∧ (r.host.loop.terminationSignal = true → .signalled ∈ h)
  looping : r.stage = .looping →
    file.runs = true ∧ ∃ v w f events, Looping v w f events r.host h
  ended : ∀ status, r.status? = some status → Outcome file (milestones h) status

section

variable {file : ScriptFile} {v w : Value} {f : Callback} {events : List Dispatched} {g : Host}
  {h : List Note}

/-- What does not change the wish to stop leaves the loop as it is. -/
theorem Looping.same (hl : Looping v w f events g h) {next : Host}
    (hphase : next.phase = g.phase) (hstopping : next.resources.stopping = g.resources.stopping)
    (hexit : next.resources.exitCode = g.resources.exitCode)
    (hsignal : next.loop.terminationSignal = g.loop.terminationSignal) :
    Looping v w f events next h := by
  refine ⟨?_, hl.dispatched, hl.last, hl.watched.same hstopping hexit, ?_⟩
  · rw [hphase]
    exact hl.course
  · intro hset
    exact hl.signalled (hsignal.symm.trans hset)

/-- An event that was an exit has made sure that the loop is left. -/
theorem Looping.no_exit (hl : Looping v w f events g h) (hgoing : g.resources.stopping = false) :
    ∀ e ∈ events, exitStatus? e.2 = none := by
  intro e he
  have hmem : Milestone.ran e.1 e.2 ∈ milestones h := by
    rw [hl.course]
    exact List.mem_append_left _ (List.mem_append_right _ (List.mem_map.2 ⟨e, he, rfl⟩))
  rw [HostRun.milestones, List.mem_reverse, List.mem_filterMap] at hmem
  rcases hmem with ⟨n, hn, hran⟩
  -- The note of its end, if it was an exit, makes the host want to stop.
  cases n with
  | ended part time result =>
    cases hran
    cases hexit : exitStatus? e.2 with
    | none => rfl
    | some status =>
      have hstops : (Note.ended e.1 time e.2).stops = true := by
        simp [Note.stops, hl.dispatched e he, hexit]
      have hstopping := hl.watched.stopping.2 ⟨_, hn, hstops⟩
      rw [hgoing] at hstopping
      cases hstopping
  | _ => cases hran

/-- The loop goes on after an event, if it is not asked to stop. -/
theorem Looping.dispatch (hl : Looping v w f events g h) (hphase : g.phase = .running)
    (hgoing : g.resources.stopping = false) {part : Part} (hpart : part.dispatched = true)
    {l next : Host} (hwatched : l.Watched (events.findSome? fun e => Part.exitCode? e.2) h)
    (hsignal : l.loop.terminationSignal = g.loop.terminationSignal) (hl' : l.phase = g.phase)
    (hnext : next.Alike (part.finish l)) :
    Looping v w f (events ++ [(part, (part.run l).1)]) next (l.partNotes part ++ h) := by
  have hnone := hl.no_exit hgoing
  have hrunning : next.phase = .running := by
    rw [hnext.phase, Part.finish_phase, hl', hphase]
  refine ⟨?_, ?_, ?_, ?_, ?_⟩
  · rw [milestones_append, milestones_partNotes, hl.course, hphase, hrunning]
    simp [ranAll]
  · intro e he
    rcases List.mem_append.1 he with he | he
    · exact hl.dispatched e he
    · rw [List.mem_singleton.1 he]
      exact hpart
  · rw [List.dropLast_concat]
    exact hnone
  · -- No earlier event was an exit, so the first code is that of this event.
    have hbefore : (events.findSome? fun e => Part.exitCode? e.2) = none := by
      rw [List.findSome?_eq_none_iff]
      intro e he
      have hexit := hnone e he
      rwa [exitStatus?_eq, Option.map_eq_none_iff] at hexit
    have hfinished := hwatched.finish hpart
    rw [hbefore, Option.or_none] at hfinished
    rw [List.findSome?_append, hbefore, Option.none_or]
    simp only [List.findSome?_cons, List.findSome?_nil]
    cases hexit : Part.exitCode? (part.run l).1 with
    | none =>
      rw [hexit] at hfinished
      exact hfinished.alike hnext
    | some code =>
      rw [hexit] at hfinished
      exact hfinished.alike hnext
  · intro hset
    rw [hnext.signal, Part.finish_loop, hsignal] at hset
    exact List.mem_append_right _ (hl.signalled hset)

/-- What a turn makes of the loop. -/
theorem Looping.takes (hl : Looping v w f events g h) (hphase : g.phase = .running)
    (hleft : LeftOnRequest h) {ns : List Note} {next : Host} (htakes : Host.Takes g ns next) :
    LeftOnRequest (ns ++ h) ∧ ∃ events, Looping v w f events next (ns ++ h) := by
  cases htakes with
  | leaves _ hstop hnext =>
    -- The host wants to stop, or a signal is pending: both go back to a request.
    have hrequest : ∃ n ∈ h, n.isRequest = true := by
      rcases hstop with hstopping | hsignal
      · exact hleft.request (hl.watched.stopping.1 hstopping)
      · exact ⟨_, hl.signalled hsignal, rfl⟩
    refine ⟨hleft.left hrequest, events, ?_, hl.dispatched, hl.last, ?_, ?_⟩
    · have hstopped : next.phase = .stopRequested := hnext.phase
      rw [List.singleton_append, milestones_cons, hl.course, hphase, hstopped]
      simp [Note.milestone?]
    · refine ⟨?_, hnext.exitCode.trans hl.watched.exitCode⟩
      constructor
      · intro _
        exact ⟨.left, List.mem_cons_self, rfl⟩
      · intro _
        exact hnext.stopping
    · intro hset
      exact List.mem_cons_of_mem _ (hl.signalled (hnext.signal.symm.trans hset))
  | rests _ hnext =>
    exact ⟨hleft, events, hl.same hnext.phase hnext.stopping hnext.exitCode hnext.signal⟩
  | runs part l _ hgoing hpart _ hl' hnext =>
    have hnext' := hl.dispatch hphase hgoing hpart (hl.watched.alike hl') hl'.signal hl'.phase hnext
    exact ⟨hleft.append (left_notMem_partNotes part l), _, hnext'⟩
  | fires id t timers l _ hgoing _ hl' _ hnext =>
    have hwatched := hl.watched.same hl'.stopping hl'.exitCode
    have hnext' := hl.dispatch hphase hgoing rfl hwatched hl'.signal hl'.phase hnext
    exact ⟨hleft.append (left_notMem_partNotes _ l), _, hnext'⟩
  | misses id timers _ _ _ hnext =>
    exact ⟨hleft, events, hl.same hnext.phase hnext.stopping hnext.exitCode hnext.signal⟩

/-- What a launch comes to. -/
structure Launched (file : ScriptFile) (next : HostRun) (h : List Note) : Prop where
  left : LeftOnRequest h
  ended : ∀ status, next.status? = some status → Outcome file (milestones h) status
  looping : next.stage = .looping →
    file.runs = true ∧ ∃ v w f events, Looping v w f events next.host h
  decided : next.stage = .looping ∨ ∃ status, next.status? = some status

/-- A launch that does not come to the event loop comes to a status. -/
theorem launched_conclude (g : Host) {status : Int} (hleft : LeftOnRequest h)
    (hout : Outcome file (milestones h) status) : Launched file (conclude g status) h := by
  refine ⟨hleft, ?_, ?_, Or.inr ⟨status, rfl⟩⟩
  · intro status' hstatus
    cases hstatus
    exact hout
  · intro hlooping
    cases hlooping

theorem launched (hleft : LeftOnRequest h) (hnone : milestones h = []) (hw : g.Watched none h)
    (hsignal : g.loop.terminationSignal = true → .signalled ∈ h) {ns : List Note}
    {next : HostRun} (hlaunches : Host.Launches g file ns next) : Launched file next (ns ++ h) := by
  cases hlaunches with
  | unrunnable g hfile _ =>
    refine launched_conclude g (hleft.append (by simp)) ?_
    simpa [hnone, Note.milestone?] using Outcome.unrunnable hfile
  | topFailed l g fault hfile _ hrun hexit _ =>
    refine launched_conclude g (hleft.append (by simp [left_notMem_partNotes])) ?_
    rw [failureStatus_eq]
    cases hmisread : isMisread fault with
    | false =>
      simpa [hnone, milestones_append, hrun, Note.milestone?] using
        Outcome.topRaised fault hfile (exitStatus?_of_raise hexit) hmisread
    | true =>
      simpa [hnone, milestones_append, hrun, Note.milestone?] using
        Outcome.topMisread fault hfile hmisread
  | topExited l g fault code hfile _ hrun hexit _ =>
    refine launched_conclude g (hleft.append (by simp [left_notMem_partNotes])) ?_
    simpa [hnone, milestones_append, hrun, Note.milestone?] using
      Outcome.topExited fault _ hfile (exitStatus?_of_exit hexit)
  | unstarted l g v entry hfile _ hrun hentry _ =>
    refine launched_conclude g (hleft.append (by simp [left_notMem_partNotes])) ?_
    simpa [hnone, milestones_append, hrun, Note.milestone?] using
      Outcome.unstarted v entry hfile hentry
  | startFailed l k g v f fault hfile _ hrun _ hstart hexit _ =>
    refine launched_conclude g (hleft.append (by simp [left_notMem_partNotes])) ?_
    simpa [hnone, milestones_append, hrun, hstart, Note.milestone?] using
      Outcome.startRaised v f fault hfile (exitStatus?_of_raise hexit)
  | startExited l k g v f fault code hfile _ hrun _ hstart hexit _ =>
    refine launched_conclude g (hleft.append (by simp [left_notMem_partNotes])) ?_
    simpa [hnone, milestones_append, hrun, hstart, Note.milestone?] using
      Outcome.startExited v f fault _ hfile (exitStatus?_of_exit hexit)
  | entered l k next v w f hfile hl hrun hk hstart hnext =>
    refine ⟨hleft.append (by simp [left_notMem_partNotes]), fun status hstatus => ?_,
      fun _ => ⟨hfile, v, w, f, [], ?_, by simp, by simp, ?_, ?_⟩, Or.inl rfl⟩
    · cases hstatus
    · have hrunning : next.phase = .running := hnext.phase
      simp [hnone, milestones_append, hrun, hstart, hrunning, ranAll, Note.milestone?]
    · -- An exit of the top level or of `start` would not have come here.
      have htop := (hw.same hl.stopping hl.exitCode).run .top rfl
      have hfound := htop.cons (n := .found "start" (.callable f)) rfl
      have hran := (hfound.same hk.stopping hk.exitCode).run (.start f) rfl
      rw [List.append_assoc, List.append_assoc]
      exact hran.same hnext.stopping hnext.exitCode
    · intro hset
      have hsame : next.loop.terminationSignal = g.loop.terminationSignal :=
        hnext.signal.trans (hk.signal.trans hl.signal)
      exact List.mem_append_right _ (hsignal (hsame.symm.trans hset))

/-- What the call of `stop` comes to. -/
theorem quits_outcome (hfile : file.runs = true) (hl : Looping v w f events g h)
    (hphase : g.phase = .stopRequested) {ns : List Note} {next : Host}
    (hquits : Host.Quits g ns next) :
    Outcome file (milestones (.released :: (ns ++ h)))
      (next.resources.exitCode.getD 0).toInt := by
  have hcode : (events.findSome? fun e => Part.exitCode? e.2).map (·.toInt) =
      events.findSome? fun e => exitStatus? e.2 := by
    rw [List.map_findSome?]
    congr 1
    funext e
    exact (exitStatus?_eq e.2).symm
  have hstatus : ∀ code : Option Int32, (code.getD 0).toInt = (code.map (·.toInt)).getD 0 := by
    intro code
    cases code with
    | none => rfl
    | some c => rfl
  cases hquits with
  | uncallable entry _ hentry hnext =>
    have hunstopped := Outcome.unstopped v w f events entry hfile hl.dispatched hl.last hentry
    rw [hstatus, hnext.exitCode, hl.watched.exitCode, hcode]
    simpa [hl.course, hphase, Note.milestone?] using hunstopped
  | ran stop _ hnext =>
    -- An exit of `stop` replaces the code that the host keeps from an event.
    have hstopped := Outcome.stopped v w f events stop (Part.run (.stop stop) g).1 hfile
      hl.dispatched hl.last
    have hran := hl.watched.ran (.stop stop)
    rw [hnext.exitCode, Part.finish_exitCode, hran.exitCode]
    rw [← hcode, exitStatus?_eq] at hstopped
    cases hexit : Part.exitCode? (Part.run (.stop stop) g).1 with
    | none =>
      rw [hexit] at hstopped
      rw [Option.none_or, hstatus]
      simpa [hl.course, hphase, Note.milestone?, milestones_append] using hstopped
    | some code =>
      rw [hexit] at hstopped
      simpa [hl.course, hphase, Note.milestone?, milestones_append] using hstopped

end

section

variable {file : ScriptFile} {r : HostRun} {h : List Note}

/-- A run with a status stays with its outcome. -/
theorem underway_of_status (hstaged : Staged r) (hleft : LeftOnRequest h) {status : Int}
    (hstatus : r.status? = some status) (hout : Outcome file (milestones h) status) :
    Underway file r h := by
  refine ⟨hstaged, hleft, ?_, ?_, ?_⟩
  · intro f hstage
    simp [status?, hstage] at hstatus
  · intro hstage
    simp [status?, hstage] at hstatus
  · intro status' hstatus'
    rw [hstatus] at hstatus'
    cases hstatus'
    exact hout

/-- What happens to a run from outside is no milestone; it may be a request to stop. -/
theorem Underway.note (hr : Underway file r h) {g : Host} {n : Note}
    (hstaged : Staged { r with host := g }) (hn : n.milestone? = none)
    (hphase : g.phase = r.host.phase)
    (hwatched : ∀ code, r.host.Watched code h → g.Watched code (n :: h))
    (hsignal : g.loop.terminationSignal = true →
      n = .signalled ∨ r.host.loop.terminationSignal = true) :
    Underway file { r with host := g } (n :: h) := by
  have hsame : milestones (n :: h) = milestones h := by simp [hn]
  have hset : (r.host.loop.terminationSignal = true → .signalled ∈ h) →
      g.loop.terminationSignal = true → .signalled ∈ n :: h := by
    intro hbefore hg
    rcases hsignal hg with rfl | hold
    · exact List.mem_cons_self
    · exact List.mem_cons_of_mem n (hbefore hold)
  have hother : .left ∉ [n] := by
    intro hmem
    rw [← List.mem_singleton.1 hmem] at hn
    cases hn
  refine ⟨hstaged, hr.left.append hother, ?_, ?_, ?_⟩
  · intro f hstage
    rcases hr.launching f hstage with ⟨hf, hnone, hw, hbefore⟩
    exact ⟨hf, hsame.trans hnone, hwatched none hw, hset hbefore⟩
  · intro hstage
    rcases hr.looping hstage with ⟨hfile, v, w, f, events, hl⟩
    refine ⟨hfile, v, w, f, events, ?_, hl.dispatched, hl.last, hwatched _ hl.watched,
      hset hl.signalled⟩
    rw [hsame, hphase]
    exact hl.course
  · intro status hstatus
    rw [hsame]
    exact hr.ended status hstatus

/-- Every act takes a run on towards one of the outcomes. -/
theorem Underway.does {next : HostRun} {ns : List Note} {a : Act} (hr : Underway file r h)
    (hdoes : Does r a ns next) : Underway file next (ns ++ h) := by
  have hstaged := hr.staged.does hdoes
  cases hdoes with
  | rests _ g _ _ hstopping hexit hsignal hphase _ _ =>
    refine ⟨hstaged, hr.left, ?_, ?_, hr.ended⟩
    · intro f hstage
      rcases hr.launching f hstage with ⟨hf, hnone, hw, hset⟩
      exact ⟨hf, hnone, hw.same hstopping hexit, fun hg => hset (hsignal.symm.trans hg)⟩
    · intro hstage
      rcases hr.looping hstage with ⟨hfile, v, w, f, events, hl⟩
      exact ⟨hfile, v, w, f, events, hl.same hphase hstopping hexit hsignal⟩
  | asked =>
    refine hr.note hstaged rfl rfl ?_ Or.inr
    intro code hw
    exact ⟨⟨fun _ => ⟨.asked, List.mem_cons_self, rfl⟩, fun _ => rfl⟩, hw.exitCode⟩
  | signalled =>
    refine hr.note hstaged rfl rfl ?_ fun _ => Or.inl rfl
    intro code hw
    exact (hw.cons rfl).same rfl rfl
  | turned ns g hphase htakes =>
    have hstage := hr.staged.running hphase
    rcases hr.looping hstage with ⟨hfile, v, w, f, events, hl⟩
    rcases hl.takes hphase hr.left htakes with ⟨hleft, events', hl'⟩
    refine ⟨hstaged, hleft, ?_, fun _ => ⟨hfile, v, w, f, events', hl'⟩, ?_⟩
    · intro f hlaunching
      exact absurd (hstage.symm.trans hlaunching) (by simp)
    · intro status hstatus
      have hnone : r.status? = none := by simp [status?, hstage]
      exact absurd (hnone.symm.trans hstatus) (by simp)
  | launched f ns next hstage hlaunches =>
    rcases hr.launching f hstage with ⟨rfl, hnone, hw, hset⟩
    have hlaunched := launched hr.left hnone hw hset hlaunches
    refine ⟨hstaged, hlaunched.left, ?_, hlaunched.looping, hlaunched.ended⟩
    intro f hlaunching
    rcases hlaunched.decided with hstage' | ⟨status, hstatus⟩
    · exact absurd (hstage'.symm.trans hlaunching) (by simp)
    · simp [status?, hlaunching] at hstatus
  | quit ns g hstage hphase hquits =>
    rcases hr.looping hstage with ⟨hfile, v, w, f, events, hl⟩
    refine underway_of_status hstaged (hr.left.append ?_) rfl (quits_outcome hfile hl hphase hquits)
    cases hquits with
    | uncallable => simp
    | ran => simp [left_notMem_partNotes]
  | finished status hstage =>
    have hstatus : r.status? = some status := by simp [status?, hstage]
    exact underway_of_status hstaged hr.left rfl (hr.ended status hstatus)

end

theorem underway_run (config : HostConfig) (transport : Transport) (world : World)
    (file : ScriptFile) (acts : List Act) :
    Underway file (course.run (fresh config transport world file) acts).1
      (course.run (fresh config transport world file) acts).2 := by
  refine course.run_invariant ?_ ?_ acts
  · refine ⟨staged_fresh config transport world file, ?_, ?_, ?_, ?_⟩
    · intro later past hsplit
      simp at hsplit
    · intro f hstage
      cases hstage
      refine ⟨rfl, rfl, ⟨?_, rfl⟩, ?_⟩
      · simp [fresh, Host.resources]
      · intro hset
        cases hset
    · intro hstage
      cases hstage
    · intro status hstatus
      cases hstatus
  · intro r h a hr
    exact hr.does (HostRun.does hr.staged a)

/-! ## The outcome -/

/-- An act in which no part runs leaves the script as it is, with the counts of its calls. -/
theorem Does.silent {r next : HostRun} {a : Act} {ns : List Note} (hdoes : Does r a ns next)
    (hopen : ∀ status, r.stage ≠ .closing status)
    (hnone : ∀ part result, .ran part result ∉ milestones ns) :
    next.host.script = r.host.script := by
  cases hdoes with
  | rests _ g _ _ _ _ _ _ _ hscript => exact hscript
  | asked => rfl
  | signalled => rfl
  | turned ns g _ htakes =>
    cases htakes with
    | leaves _ _ hg => exact hg.script
    | rests _ hg => exact hg.script
    | runs part l => exact absurd (by simp) (hnone part (part.run l).1)
    | fires id t timers l =>
      exact absurd (by simp) (hnone (.timer id t.callback t.attached.toList)
        (Part.run (.timer id t.callback t.attached.toList) l).1)
    | misses id timers _ _ _ hg => exact hg.script
  | launched file ns next _ hlaunches =>
    cases hlaunches with
    | unrunnable g _ hg => exact hg.script
    | topFailed l => exact absurd (by simp) (hnone .top (Part.top.run l).1)
    | topExited l => exact absurd (by simp) (hnone .top (Part.top.run l).1)
    | unstarted l => exact absurd (by simp) (hnone .top (Part.top.run l).1)
    | startFailed l => exact absurd (by simp [milestones_append]) (hnone .top (Part.top.run l).1)
    | startExited l => exact absurd (by simp [milestones_append]) (hnone .top (Part.top.run l).1)
    | entered l => exact absurd (by simp [milestones_append]) (hnone .top (Part.top.run l).1)
  | quit ns g _ _ hquits =>
    cases hquits with
    | uncallable entry _ _ hg => exact hg.script
    | ran f =>
      exact absurd (by simp [milestones_append]) (hnone (.stop f) (Part.run (.stop f) r.host).1)
  | finished status hstage => exact absurd hstage (hopen status)

/-- What is decided of a run of a script's file with a history. -/
structure Decided (file : ScriptFile) (r : HostRun) (h : List Note) : Prop where
  /-- Once there is a status, the run has gone one of the ways to it. -/
  outcome : ∀ status, r.status? = some status → Outcome file (milestones h) status
  /-- The event loop is left only on a request to stop. -/
  left : ∀ later past, h = later ++ .left :: past → ∃ n ∈ past, n.isRequest = true
  /-- A launch comes to the event loop or to a status. -/
  launched : ∀ f, r.stage = .launching f →
    (r.act .proceed).stage = .looping ∨ ∃ status, (r.act .proceed).status? = some status
  /-- A loop that the script or somebody outside asked to stop is left at its next turn, and then
  the run comes to a status. -/
  stopped : r.stage = .looping → (∃ n ∈ h, n.stops = true) →
    ∃ status, ((r.act .turn).act .proceed).status? = some status
  /-- No code runs besides the parts among the milestones: without them the script stays as it is,
  with the counts of its calls, until it is released. -/
  silent : ∀ a, (∀ status, r.stage ≠ .closing status) →
    (∀ part result, .ran part result ∉ milestones (courseNotes r a)) →
      (r.act a).host.script = r.host.script

/-- A run whose loop was left comes to a status. -/
theorem status_of_left {r : HostRun} (hstage : r.stage = .looping)
    (hphase : r.host.phase = .stopRequested) (hcrashed : r.host.crashed = false) :
    ∃ status, (r.act .proceed).status? = some status := by
  rcases Host.quits hphase hcrashed with ⟨g, hshutdown, -⟩
  refine ⟨(g.resources.exitCode.getD 0).toInt, ?_⟩
  simp only [act, step, hstage, hphase, reduceCtorEq, if_false, hshutdown, Option.getD_some]
  rfl

theorem Underway.stopped {file : ScriptFile} {r : HostRun} {h : List Note}
    (hr : Underway file r h) (hstage : r.stage = .looping) (hstops : ∃ n ∈ h, n.stops = true) :
    ∃ status, ((r.act .turn).act .proceed).status? = some status := by
  rcases hr.looping hstage with ⟨-, v, w, f, events, hl⟩
  -- The turn leaves the loop, unless it was left before.
  rcases hr.staged.looping hstage with ⟨hrunning | hleft, hcrashed⟩
  · have hstopping := hl.watched.stopping.2 hstops
    rw [← r.host.listen_alike.stopping] at hstopping
    have hturn : r.act .turn = { r with host := r.host.listen.leave } := by
      simp only [act, turnLoop, hrunning, if_true, onHost, Host.turn, Host.nextTurn, hstopping]
    rw [hturn]
    exact status_of_left hstage rfl (r.host.listen_alike.crashed.trans hcrashed)
  · have hturn : r.act .turn = r := by
      simp only [act, turnLoop, hleft, reduceCtorEq, if_false]
    rw [hturn]
    exact status_of_left hstage hleft hcrashed

/-- Whatever the parts of the script do and whatever happens to the run, its outcome is decided by
how its parts end. -/
theorem decided (config : HostConfig) (transport : Transport) (world : World) (file : ScriptFile)
    (acts : List Act) :
    let p := course.run (fresh config transport world file) acts
    Decided file p.1 p.2 := by
  intro p
  have hp : Underway file p.1 p.2 := underway_run config transport world file acts
  refine ⟨hp.ended, hp.left, ?_, ?_, ?_⟩
  · intro f hstage
    rcases hp.launching f hstage with ⟨rfl, hnone, hw, hset⟩
    have hlaunches := Host.launches (hp.staged.launching f hstage).1 f
    have hact : p.1.act .proceed = launch p.1.host f := by
      simp only [act, step, hstage, Option.getD_some]
    rw [hact]
    exact (launched hp.left hnone hw hset hlaunches).decided
  · intro hstage hstops
    exact hp.stopped hstage hstops
  · intro a hopen hnone
    exact (HostRun.does hp.staged a).silent hopen hnone

/-- A script that records something at its top level and then runs a text that is no script. -/
def misreadingScript : Program where
  top := [.record (.constant (.int 1)), .misread "Script is incomplete"]

/-- It compiles and its top level runs, up to a fault that is no exit. The status is that of a
script that does not compile. -/
theorem not_decided_misread :
    let p := course.run (fresh {} .missing {} (.program misreadingScript)) [.proceed]
    (ScriptFile.program misreadingScript).runs = true ∧
      milestones p.2 = [.ran .top (.error (.syntaxError "Script is incomplete"))] ∧
      exitStatus? (.error (.syntaxError "Script is incomplete")) = none ∧
      p.1.status? = some (-1) := by
  refine ⟨by decide +kernel, ?_, rfl, by decide +kernel⟩
  rfl

end HostRun
end ScriptService
