import ScriptService.Proofs.Log.Outlets
import ScriptService.Proofs.Service.Exported

/-!
# The history of a log

What a run notes of its log: the calls of the functions that log, the end of the top level with the
declaration found then, the error that ends the run, and the release. From these follow which
declaration is in force at each call, which records each channel gets, and what the outlets show.

Main statements: `LogDeclaration.ofValue?_eq_ok_iff`, `LogNote.declaration?_eq_some_iff`,
`LogNote.calls_eq`, `LogNote.records_eq` and `LogNote.shown_called`.
-/

namespace ScriptService

/-! ## Declarations -/

namespace LogDeclaration

/-- A value is a well-formed declaration: an object map with a string for the identity and an array
for the channels, which are those whose names are strings in the array. -/
def WrittenAs (d : LogDeclaration) (v : Value) : Prop :=
  ∃ fields identity channels items, v.map? = some fields ∧
    Fields.get? fields "identity" = some identity ∧ identity.string? = some d.identity ∧
    Fields.get? fields "channels" = some channels ∧ channels.array? = some items ∧
    d.channels = .ofNames (items.filterMap Value.string?)

/-- What is read is well-formed, and what is well-formed is read. -/
theorem ofValue?_eq_ok_iff {v : Value} {d : LogDeclaration} :
    ofValue? v = .ok d ↔ d.WrittenAs v := by
  constructor
  · intro h
    obtain ⟨fields, hfields, h⟩ := bind_eq_ok_iff.1 h
    obtain ⟨identity, hidentity, h⟩ := bind_eq_ok_iff.1 h
    obtain ⟨items, hitems, h⟩ := bind_eq_ok_iff.1 h
    cases h
    obtain ⟨name, hname, hstring⟩ := Declaration.field_eq_ok hidentity
    obtain ⟨channels, hchannels, harray⟩ := Declaration.field_eq_ok hitems
    exact ⟨fields, name, channels, items, Declaration.fields_eq_ok hfields, hname, hstring,
      hchannels, harray, rfl⟩
  · rintro ⟨fields, name, channels, items, hmap, hname, hstring, hchannels, harray, hnamed⟩
    rcases d with ⟨identity, named⟩
    rw [show named = _ from hnamed]
    simp only [ofValue?, Declaration.fields, Declaration.field, hmap, hname, hstring, hchannels,
      harray, bind, Except.bind, pure, Except.pure]

/-- The declaration that a global value makes, if there is one and it is well-formed. -/
def declared? (ulog : Option Value) : Option LogDeclaration :=
  ulog.bind fun v => (ofValue? v).toOption

theorem declared?_eq_some_iff {ulog : Option Value} {d : LogDeclaration} :
    declared? ulog = some d ↔ ∃ v, ulog = some v ∧ d.WrittenAs v := by
  cases ulog with
  | none => simp [declared?]
  | some v =>
    rw [declared?, Option.bind_some]
    simp only [Option.some.injEq, exists_eq_left', ← ofValue?_eq_ok_iff]
    cases ofValue? v with
    | error e => simp [Except.toOption]
    | ok found => simp [Except.toOption]

end LogDeclaration

/-- The record that a call makes under a declaration. -/
def LogDeclaration.record (d : LogDeclaration) (severity : Severity) (v : Value) : LogRecord :=
  ⟨Logger.withoutNul d.identity, severity, v.text⟩

/-! ## Notes -/

/-- What is noted of a log. -/
inductive LogNote where
  /-- A part calls a function that logs, with one argument. -/
  | called (part : Part) (severity : Severity) (v : Value)
  /-- The top level has ended; the value by which logs are declared is there or not. -/
  | topEnded (ulog : Option Value)
  /-- The top level has ended by an exit or an error, so that no declaration is looked for. -/
  | topFailed
  /-- The error that ends the run is reported. -/
  | reported (e : HostError)
  /-- The host begins to release everything. -/
  | released

/-- How far a run has come, as far as its log is concerned. -/
inductive LogPeriod where
  /-- The top level has not ended. -/
  | early
  | midway
  /-- The release has begun. -/
  | late
  deriving DecidableEq

/-- When a part runs: all but the top level run after its end. -/
def Part.logPeriod : Part → LogPeriod
  | .top => .early
  | _ => .midway

theorem Part.logPeriod_of_dispatched {part : Part} (h : part.dispatched = true) :
    part.logPeriod = .midway := by
  cases part with
  | top => cases h
  | _ => rfl

namespace LogNote

def period : List LogNote → LogPeriod
  | [] => .early
  | .called _ _ _ :: past => period past
  | .topEnded _ :: _ => .midway
  | .topFailed :: _ => .midway
  | .reported _ :: past => period past
  | .released :: _ => .late

/-- The declaration found when the top level ended. -/
def declaration? : List LogNote → Option LogDeclaration
  | [] => none
  | .topEnded ulog :: _ => LogDeclaration.declared? ulog
  | .topFailed :: _ => none
  | _ :: past => declaration? past

/-- The declaration in force: there is one from the end of the top level to the release. -/
def inForce? (past : List LogNote) : Option LogDeclaration :=
  if period past = .midway then declaration? past else none

/-- Whether a note can follow a history: the parts of a script call in their own period, and there
is one end of the top level, one release, and no error after it. -/
def Fits : LogNote → List LogNote → Prop
  | .called part _ _, past => period past = part.logPeriod
  | .topEnded _, past => period past = .early
  | .topFailed, past => period past = .early
  | .reported _, past => period past ≠ .late
  | .released, past => period past ≠ .late

/-! ## Records -/

/-- The record of a call, if the declaration in force names a channel. -/
def record? (named : Channels → Bool) (past : List LogNote) (severity : Severity) (v : Value) :
    Option LogRecord :=
  ((inForce? past).filter fun d => named d.channels).map fun d => d.record severity v

/-- The records of a channel, in the order of the calls. -/
def records (named : Channels → Bool) : List LogNote → List LogRecord
  | [] => []
  | .called _ severity v :: past =>
    records named past ++ (record? named past severity v).toList
  | _ :: past => records named past

/-- The records of the kernel log: there are none if it cannot be opened. -/
def kernelRecords (kernelLog : Bool) (h : List LogNote) : List LogRecord :=
  if kernelLog then records (·.kmsg) h else []

/-- What is written to the standard error stream: records, and the error that ends the run. -/
def streamed : List LogNote → List (LogRecord ⊕ HostError)
  | [] => []
  | .called _ severity v :: past =>
    streamed past ++ ((record? (·.stdio) past severity v).map .inl).toList
  | .reported e :: past => streamed past ++ [.inr e]
  | _ :: past => streamed past

/-- The calls into the system log: it is opened by the declaration, and closed by the release. -/
def systemCalls : List LogNote → List Event
  | [] => []
  | .called _ severity v :: past =>
    systemCalls past ++ ((record? (·.syslog) past severity v).map (·.systemCall)).toList
  | .topEnded ulog :: past =>
    systemCalls past ++ (((LogDeclaration.declared? ulog).filter (·.channels.syslog)).map fun d =>
      Event.openLog (Logger.withoutNul d.identity)).toList
  | .topFailed :: past => systemCalls past
  | .reported _ :: past => systemCalls past
  | .released :: past =>
    systemCalls past ++
      (((inForce? past).filter (·.channels.syslog)).map fun _ => Event.closeLog).toList

/-- The calls made after the end of the top level and before the release. -/
def calls : List LogNote → List (Severity × Value)
  | [] => []
  | .called _ severity v :: past =>
    calls past ++ if period past = .midway then [(severity, v)] else []
  | _ :: past => calls past

/-- A call of any part of the script but its top level. -/
def afterTop? : LogNote → Option (Severity × Value)
  | .called .top _ _ => none
  | .called _ severity v => some (severity, v)
  | _ => none

section

variable {past h : List LogNote} {named : Channels → Bool}

theorem calls_of_early (hearly : period h = .early) : calls h = [] := by
  induction h with
  | nil => rfl
  | cons n past ih =>
    cases n with
    | called part severity v =>
      have hpast : period past = .early := hearly
      simp [calls, ih hpast, hpast]
    | topEnded ulog => cases hearly
    | topFailed => cases hearly
    | reported e => exact ih hearly
    | released => cases hearly

theorem records_of_early (hearly : period h = .early) : records named h = [] := by
  induction h with
  | nil => rfl
  | cons n past ih =>
    cases n with
    | called part severity v =>
      have hpast : period past = .early := hearly
      simp [records, ih hpast, record?, inForce?, hpast]
    | topEnded ulog => cases hearly
    | topFailed => cases hearly
    | reported e => exact ih hearly
    | released => cases hearly

theorem topEnded_notMem_of_early (hearly : period h = .early) (ulog : Option Value) :
    .topEnded ulog ∉ h := by
  induction h with
  | nil => simp
  | cons n past ih =>
    cases n with
    | called part severity v => simpa using ih hearly
    | topEnded found => cases hearly
    | topFailed => cases hearly
    | reported e => simpa using ih hearly
    | released => cases hearly

/-- There is a declaration if the top level ended with a well-formed one. -/
theorem declaration?_eq_some_iff (hfits : Throughout Fits h) {d : LogDeclaration} :
    declaration? h = some d ↔ ∃ v, .topEnded (some v) ∈ h ∧ d.WrittenAs v := by
  induction h with
  | nil => simp [declaration?]
  | cons n past ih =>
    obtain ⟨hn, hpast⟩ := throughout_cons.1 hfits
    cases n with
    | topEnded ulog =>
      -- The top level ends once.
      have hnone := topEnded_notMem_of_early hn
      rw [declaration?, LogDeclaration.declared?_eq_some_iff]
      simp [hnone, eq_comm]
    | topFailed => simp [declaration?, topEnded_notMem_of_early hn]
    | called part severity v => simpa [declaration?] using ih hpast
    | reported e => simpa [declaration?] using ih hpast
    | released => simpa [declaration?] using ih hpast

/-- All parts but the top level make their calls between its end and the release: `start`, the
functions that the event loop calls, and `stop`. -/
theorem calls_eq (hfits : Throughout Fits h) : calls h = h.reverse.filterMap afterTop? := by
  induction h with
  | nil => rfl
  | cons n past ih =>
    obtain ⟨hn, hpast⟩ := throughout_cons.1 hfits
    rw [List.reverse_cons, List.filterMap_append, ← ih hpast]
    cases n with
    | called part severity v =>
      have hperiod : period past = part.logPeriod := hn
      simp only [calls, hperiod]
      cases part with
      | _ => simp [Part.logPeriod, afterTop?]
    | topEnded ulog => simp [calls, afterTop?]
    | topFailed => simp [calls, afterTop?]
    | reported e => simp [calls, afterTop?]
    | released => simp [calls, afterTop?]

/-- The records of a channel that the declaration names are those of the calls between the end of
the top level and the release, one of each call in the order of the calls. Other channels have
none. -/
theorem records_eq (hfits : Throughout Fits h) :
    records named h = ((declaration? h).filter fun d => named d.channels).elim [] fun d =>
      (calls h).map fun call => d.record call.1 call.2 := by
  induction h with
  | nil => rfl
  | cons n past ih =>
    obtain ⟨hn, hpast⟩ := throughout_cons.1 hfits
    have ih := ih hpast
    cases n with
    | called part severity v =>
      rw [records, ih, record?, inForce?, declaration?, calls]
      · by_cases hmidway : period past = .midway
        · rw [if_pos hmidway, if_pos hmidway]
          generalize (declaration? past).filter (fun d => named d.channels) = found
          cases found with
          | none => rfl
          | some d => simp
        · rw [if_neg hmidway, if_neg hmidway]
          simp
      · rintro ulog ⟨⟩
      · rintro ⟨⟩
    | topEnded ulog =>
      -- There was no call to be recorded before the top level ended.
      rw [records, records_of_early hn, calls, calls_of_early hn]
      · cases (declaration? (.topEnded ulog :: past)).filter fun d => named d.channels <;> rfl
      · rintro part severity v ⟨⟩
      · rintro part severity v ⟨⟩
    | topFailed =>
      have hnone : records named past = [] := records_of_early hn
      exact hnone
    | reported e => exact ih
    | released => exact ih

/-- The calls into the system log that write are those of its records. -/
theorem filter_systemCalls (h : List LogNote) :
    (systemCalls h).filter Event.isRecord = (records (·.syslog) h).map (·.systemCall) := by
  induction h with
  | nil => rfl
  | cons n past ih =>
    cases n with
    | called part severity v =>
      simp only [systemCalls, records, List.filter_append, List.map_append, ih]
      cases record? (·.syslog) past severity v <;> rfl
    | topEnded ulog =>
      simp only [systemCalls, records, List.filter_append, ih]
      cases (LogDeclaration.declared? ulog).filter (·.channels.syslog) <;> simp [Event.isRecord]
    | topFailed => exact ih
    | reported e => exact ih
    | released =>
      simp only [systemCalls, records, List.filter_append, ih]
      cases (inForce? past).filter (·.channels.syslog) <;> simp [Event.isRecord]

/-- What is streamed besides the error that ends the run are the records of the channel. -/
theorem filterMap_streamed (h : List LogNote) :
    (streamed h).filterMap Sum.getLeft? = records (·.stdio) h := by
  induction h with
  | nil => rfl
  | cons n past ih =>
    cases n with
    | called part severity v =>
      simp only [streamed, records, List.filterMap_append, ih]
      cases record? (·.stdio) past severity v <;> rfl
    | topEnded ulog => exact ih
    | topFailed => exact ih
    | reported e => simp [streamed, records, ih]
    | released => exact ih

end

/-! ## What can be seen -/

/-- The log that is open. -/
def logger (kernelLog : Bool) (h : List LogNote) : Logger :=
  (inForce? h).elim .closed (Logger.opened kernelLog)

/-- What an entry of the standard error stream looks like. -/
def entryText : LogRecord ⊕ HostError → String
  | .inl r => r.line
  | .inr e => e.report

/-- What the outlets show after a history. -/
def shown (o : Outlets) (h : List LogNote) : Outlets where
  kernelLog := o.kernelLog
  kernelWrites := o.kernelWrites ++ (kernelRecords o.kernelLog h).flatMap (·.kernelParts)
  errorText := o.errorText ++ String.join ((streamed h).map entryText)
  systemLog := o.systemLog ++ systemCalls h

section

variable (o : Outlets) (past : List LogNote)

theorem shown_nil : shown o [] = o := by
  simp [shown, kernelRecords, records, streamed, systemCalls]

/-- A call writes its record to the channels of the log that is open. -/
theorem shown_called (part : Part) (severity : Severity) (v : Value) :
    shown o (.called part severity v :: past) =
      (inForce? past).elim (shown o past) fun d =>
        (shown o past).write (Logger.opened o.kernelLog d).channels (d.record severity v) := by
  simp only [shown, kernelRecords, records, streamed, systemCalls, record?]
  cases inForce? past with
  | none => simp
  | some d =>
    -- Each channel takes its own part of the record.
    simp only [Option.elim_some, Outlets.write, Logger.opened, Option.filter_some,
      Outlets.mk.injEq, true_and]
    refine ⟨?_, ?_, ?_⟩
    · by_cases hdevice : o.kernelLog = true <;> by_cases hnamed : d.channels.kmsg = true <;>
        simp [hdevice, hnamed]
    · by_cases hnamed : d.channels.stdio = true <;> simp [hnamed, String.append_assoc, entryText]
    · by_cases hnamed : d.channels.syslog = true <;> simp [hnamed]

/-- The end of the top level opens the system log, if the declaration names it. -/
theorem shown_topEnded (ulog : Option Value) :
    shown o (.topEnded ulog :: past) =
      { shown o past with
        systemLog := (shown o past).systemLog ++
          (((LogDeclaration.declared? ulog).filter (·.channels.syslog)).map fun d =>
            Event.openLog (Logger.withoutNul d.identity)).toList } := by
  simp [shown, kernelRecords, records, streamed, systemCalls]

theorem shown_topFailed : shown o (.topFailed :: past) = shown o past := by
  simp [shown, kernelRecords, records, streamed, systemCalls]

theorem shown_reported (e : HostError) :
    shown o (.reported e :: past) =
      { shown o past with errorText := (shown o past).errorText ++ e.report } := by
  simp [shown, kernelRecords, records, streamed, systemCalls, entryText, String.append_assoc]

/-- The release closes the system log, if it is open. -/
theorem shown_released :
    shown o (.released :: past) =
      { shown o past with
        systemLog := (shown o past).systemLog ++
          (((inForce? past).filter (·.channels.syslog)).map fun _ => Event.closeLog).toList } := by
  simp [shown, kernelRecords, records, streamed, systemCalls]

end
end LogNote
end ScriptService
