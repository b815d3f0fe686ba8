import ScriptService.Proofs.Children.StopCalls
import ScriptService.Proofs.Host.Steady

/-!
# Where log records go

The kernel log, the system log and the standard error stream of a world, and what changes them: the
log of the script, and nothing else that the host or its script does to processes and diagnostics.

Main statements: `Logger.outlets_emit`, `Logger.outlets_replace` and `Logger.outlets_close`.
-/

namespace ScriptService

/-- Whether an event is a call into the system log. -/
def Event.isSystemLog : Event → Bool
  | .openLog _ => true
  | .sysLog _ _ => true
  | .closeLog => true
  | _ => false

/-- Whether an event is a record in the system log. -/
def Event.isRecord : Event → Bool
  | .sysLog _ _ => true
  | _ => false

/-- What can be seen of log records in a world. -/
structure Outlets where
  /-- Whether the kernel log can be opened. -/
  kernelLog : Bool
  /-- What was written to the kernel log, write by write. -/
  kernelWrites : List String
  errorText : String
  /-- The calls into the system log, in order. -/
  systemLog : List Event

namespace World

def outlets (w : World) : Outlets where
  kernelLog := w.kernelLog
  kernelWrites := w.kernelWrites
  errorText := w.errorText
  systemLog := (w.trace.map (·.event)).filter Event.isSystemLog

theorem outlets_note (w : World) (e : Event) :
    (w.note e).outlets =
      { w.outlets with systemLog := w.outlets.systemLog ++ [e].filter Event.isSystemLog } := by
  simp [outlets, note]

/-- Most events are no calls into the system log. -/
theorem outlets_note_of_silent {e : Event} (w : World) (h : e.isSystemLog = false) :
    (w.note e).outlets = w.outlets := by
  simp [outlets_note, h]

theorem outlets_warn (w : World) (message : String) (details : List (String × String)) :
    (w.warn message details).outlets = w.outlets := outlets_note_of_silent w rfl

theorem outlets_fork (w : World) : w.fork.2.outlets = w.outlets := outlets_note_of_silent _ rfl

theorem outlets_kill (w : World) (pid : Int) (signal : Nat) :
    (w.kill pid signal).2.outlets = w.outlets := outlets_note_of_silent _ rfl

end World

theorem Child.outlets_fork (w : World) (argv : List String) :
    (Child.fork w argv).2.outlets = w.outlets := by
  unfold Child.fork
  split
  · rfl
  · exact World.outlets_fork w

/-! ## Children -/

namespace ChildList

theorem outlets_collect (w : World) (pid : Int) : (collect w pid).2.outlets = w.outlets := by
  have hpoll : (w.poll pid).2.outlets = w.outlets := rfl
  unfold collect
  split
  all_goals
    rename_i heq
    rw [heq] at hpoll
  · exact hpoll
  · exact hpoll
  · exact (World.outlets_warn _ _ _).trans hpoll
  · exact (World.outlets_warn _ _ _).trans hpoll

theorem outlets_reapAll (w : World) (pids : List Int) : (reapAll w pids).2.outlets = w.outlets := by
  induction pids generalizing w with
  | nil => rfl
  | cons pid rest ih => exact (ih _).trans (outlets_collect w pid)

/-- The calls by which children are stopped write no records. -/
theorem Makes.outlets {w v : World} {calls : List (Stamped StopCall)} (h : Makes w calls v) :
    v.outlets = w.outlets := by
  induction h with
  | nil w => rfl
  | @cons w v c calls _ _ ih =>
    rw [ih]
    cases c with
    | ask pid taken => exact World.outlets_kill w pid _
    | look pid answer => rfl
    | pause => rfl
    | force pid =>
      show ((w.warn _ _).kill pid _).2.outlets = _
      rw [World.outlets_kill, World.outlets_warn]
    | await pid answer => rfl

theorem outlets_awaitEnds (deadline fuel : Nat) (w : World) (pids : List Int) :
    (awaitEnds deadline fuel w pids).2.outlets = w.outlets := by
  induction fuel generalizing w pids with
  | zero => exact (makes_lookCalls w pids).outlets
  | succ fuel ih =>
    have hlook := (makes_lookCalls w pids).outlets
    unfold awaitEnds
    simp only
    split
    · exact hlook
    · exact (ih _ _).trans hlook

theorem outlets_terminateAll (list : ChildList) (grace : Nat) (w : World) :
    (terminateAll list grace w).outlets = w.outlets := by
  unfold terminateAll
  rcases hask : signalAll w list.pids with ⟨asked, w'⟩
  rcases hwait : awaitEnds (w'.clock + grace) (grace / pollInterval + 1) w' asked with ⟨left, v⟩
  have hasked := (makes_askCalls w list.pids).outlets
  have hwaited := outlets_awaitEnds (w'.clock + grace) (grace / pollInterval + 1) w' asked
  rw [hask] at hasked
  rw [hwait] at hwaited
  simp only [hwait]
  exact (makes_forceCalls v left).outlets.trans (hwaited.trans hasked)

end ChildList

/-! ## Logs -/

/-- A record of a script. -/
structure LogRecord where
  identity : String
  severity : Severity
  text : String

namespace LogRecord

/-- The line of a record on the standard error stream. -/
def line (r : LogRecord) : String := r.identity ++ ": " ++ r.text ++ "\n"

/-- The line of a record in the kernel log. -/
def kernelLine (r : LogRecord) : String := "<" ++ toString r.severity.priority ++ ">" ++ r.line

/-- The writes by which a line gets into the kernel log: one for each part that is not empty. -/
def kernelParts (r : LogRecord) : List String :=
  ["<", toString r.severity.priority, ">", r.identity, ": ", r.text, "\n"].filter (· != "")

/-- Parts that are not written would add nothing to the text. -/
theorem join_filter (parts : List String) :
    String.join (parts.filter (· != "")) = String.join parts := by
  induction parts with
  | nil => rfl
  | cons part rest ih =>
    by_cases hpart : part = ""
    · simp [hpart, ih]
    · simp [hpart, ih]

/-- The text of lines that are written part by part. -/
theorem join_flatMap (records : List LogRecord) (parts : LogRecord → List String) :
    String.join (records.flatMap parts) =
      String.join (records.map fun r => String.join (parts r)) := by
  induction records with
  | nil => rfl
  | cons r records ih => simp [ih]

theorem join_kernelParts (r : LogRecord) : String.join r.kernelParts = r.kernelLine := by
  rw [kernelParts, join_filter]
  simp [kernelLine, line, String.append_assoc]

/-- The call by which a record gets into the system log, which knows the identity already. -/
def systemCall (r : LogRecord) : Event := .sysLog r.severity.priority (Logger.withoutNul r.text)

end LogRecord

/-- The outlets after a record, written to the channels that are open. -/
def Outlets.write (o : Outlets) (channels : Channels) (r : LogRecord) : Outlets where
  kernelLog := o.kernelLog
  kernelWrites := o.kernelWrites ++ if channels.kmsg then r.kernelParts else []
  errorText := o.errorText ++ if channels.stdio then r.line else ""
  systemLog := o.systemLog ++ if channels.syslog then [r.systemCall] else []

namespace Logger

/-- The log that a declaration opens; the kernel log is left out if it cannot be opened. -/
def opened (kernelLog : Bool) (d : LogDeclaration) : Logger :=
  ⟨some (withoutNul d.identity), { d.channels with kmsg := d.channels.kmsg && kernelLog }⟩

theorem outlets_emit (l : Logger) (w : World) (severity : Severity) (text : String) :
    (l.emit w severity text).outlets =
      l.identity.elim w.outlets fun identity =>
        w.outlets.write l.channels ⟨identity, severity, text⟩ := by
  unfold emit
  cases l.identity with
  | none => rfl
  | some identity =>
    -- Each channel takes its own part of the record.
    simp only [Option.elim_some, Outlets.write]
    cases l.channels.kmsg <;> cases l.channels.syslog <;> cases l.channels.stdio <;>
      simp [World.outlets, World.writeKernelLog, World.note, World.writeError, Event.isSystemLog,
        LogRecord.kernelParts, LogRecord.line, LogRecord.systemCall]

/-- A log in place of a closed one is the one that the declaration opens. -/
theorem outlets_replace (w : World) (d : LogDeclaration) :
    (closed.replace w d).1 = opened w.kernelLog d ∧
      (closed.replace w d).2.outlets =
        { w.outlets with
          systemLog := w.outlets.systemLog ++
            if d.channels.syslog then [.openLog (withoutNul d.identity)] else [] } := by
  unfold replace openOn close closed isOpen opened
  cases hkmsg : d.channels.kmsg <;> cases hdevice : w.kernelLog <;>
    cases hsyslog : d.channels.syslog <;>
    simp [World.outlets, World.note, World.warn, Event.isSystemLog, hdevice, hsyslog]

theorem outlets_close (l : Logger) (w : World) :
    (l.close w).2.outlets =
      { w.outlets with
        systemLog := w.outlets.systemLog ++
          if l.isOpen && l.channels.syslog then [.closeLog] else [] } := by
  unfold close
  simp only
  split
  · exact World.outlets_note w .closeLog
  · rw [List.append_nil]

end Logger
end ScriptService
