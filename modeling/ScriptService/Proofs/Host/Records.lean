import ScriptService.Proofs.Host.Entries
import ScriptService.Proofs.Host.Logging

/-!
# The records of a run

Each part of a script that runs after the top level logs under the declaration that the top level
left, until the release; before and after, what it would log is lost. So what the outlets show,
after a run of a script's file as well as after any operations that a host is asked for, is a
function of the calls of the functions that log, of the declaration and of the release.

Main statement: `Host.records_written`.
-/

namespace ScriptService

/-- How far a host has come in a phase, as far as its log is concerned. -/
def Phase.logPeriod : Phase → LogPeriod
  | .uninitialized => .early
  | .compiled => .early
  | .tornDown => .late
  | _ => .midway

namespace Host

variable {o : Outlets} {period : LogPeriod} {past : List LogNote} {h g : Host}

/-! ## Operations -/

/-- What is noted of the log in the event loop and beside it. -/
def loopLogNotes (h : Host) : HostRun.Act → List LogNote
  | .turn => if h.phase = .running then h.turnLogNotes else []
  | _ => []

theorem sameLog_waited (h : Host) (a : HostRun.Act) : (waited.act h a).SameLog h := by
  cases a with
  | turn => exact SameLog.refl h
  | proceed => exact SameLog.refl h
  | _ => exact Resources.SameLog.mk rfl rfl

theorem Shows.looped (hh : h.Shows o period past) (hrunning : h.phase = .running → period = .midway)
    (a : HostRun.Act) : (Host.looped.act h a).Shows o period (h.loopLogNotes a ++ past) := by
  have hwaited := hh.same (sameLog_waited h a)
  cases a with
  | turn =>
    by_cases hphase : h.phase = .running
    · obtain rfl := hrunning hphase
      have hact : Host.looped.act h .turn = h.turn.2 := by
        simp [Host.looped, HostRun.act, HostRun.turnLoop, alone, hphase, HostRun.onHost]
      have hnotes : h.loopLogNotes .turn = h.turnLogNotes := if_pos hphase
      rw [hact, hnotes]
      exact hh.turn
    · have hact : Host.looped.act h .turn = h := by
        simp [Host.looped, HostRun.act, HostRun.turnLoop, alone, hphase]
      have hnotes : h.loopLogNotes .turn = [] := if_neg hphase
      rw [hact, hnotes]
      exact hh
  | _ => exact hwaited

/-- Event loops whose log is observed. -/
def loggedLoop : Observed Host HostRun.Act LogNote := ⟨looped.act, loopLogNotes⟩

theorem Shows.looped_run (hh : h.Shows o .midway past) (acts : List HostRun.Act) :
    (loggedLoop.run h acts).1.Shows o .midway ((loggedLoop.run h acts).2 ++ past) := by
  have hstep : ∀ (k : Host) (ns : List LogNote) a, True → k.Shows o .midway ns →
      (loggedLoop.act k a).Shows o .midway (loggedLoop.notes k a ++ ns) :=
    fun k ns a _ hk => hk.looped (fun _ => rfl) a
  exact loggedLoop.run_invariant_from hh hstep fun _ _ => trivial

theorem sameLog_waited_run (h : Host) (acts : List HostRun.Act) :
    (waited.run h acts).1.SameLog h :=
  @Observed.run_invariant _ _ _ waited (fun g _ => g.SameLog h) h (SameLog.refl h)
    (fun g _ a hg => (sameLog_waited g a).trans hg) acts

theorem sameLog_finishRelease (h : Host) : h.finishRelease.SameLog h :=
  Resources.SameLog.mk rfl rfl

/-- What is noted of the log in an operation. -/
def operationLogNotes (h : Host) : Operation → List LogNote
  | .load _ => []
  | .execute => if h.phase = .compiled then h.topLogNotes else []
  | .start => if h.phase = .topLevelExecuted then h.startLogNotes else []
  | .run acts => if h.phase = .started then (loggedLoop.run h.enter.2 acts).2 else []
  | .shutdown => if h.phase = .stopRequested then h.stopLogNotes else []
  | .teardown => if h.phase = .tornDown then [] else [.released]
  | .close _ => if h.phase = .tornDown then [] else [.released]
  | .meanwhile _ => []

/-- Hosts whose operations are observed for their log. -/
def logOperated : Observed Host Operation LogNote := ⟨operated.act, operationLogNotes⟩

/-- The operations that run script code leave the host between the top level and the release. -/
theorem Applies.midway {op : Operation} {result : Except HostError Unit} {ns : List HostRun.Note}
    (happlies : Applies h op result ns g) {phase : Phase} {name : String}
    (hown : op.own? = some (phase, name)) (hphase : h.phase = phase)
    (hop : ∀ file, op ≠ .load file) : g.phase.logPeriod = .midway := by
  cases happlies with
  | refused _ other _ hother hne =>
    rw [hown] at hother
    cases hother
    exact absurd hphase hne
  | unloaded file => exact absurd rfl (hop file)
  | loaded file => exact absurd rfl (hop file)
  | executed _ _ _ _ hg =>
    rw [hg]
    rfl
  | unstarted _ _ hbefore =>
    rw [hbefore]
    rfl
  | started _ _ _ _ _ hg =>
    rw [hg]
    split
    · rfl
    · rfl
  | ran _ _ _ _ hg =>
    rcases hg with hg | hg
    · rw [hg]
      rfl
    · rw [hg]
      rfl
  | unstopped _ _ _ hg =>
    rw [hg]
    rfl
  | stopped _ _ _ _ hg =>
    rw [hg]
    rfl
  | released _ _ _ hrelease =>
    cases op with
    | teardown => cases hown
    | close acts => cases hown
    | _ => cases hrelease
  | waited => cases hown

theorem logPeriod_ne_late {phase : Phase} (hphase : phase ≠ .tornDown) :
    phase.logPeriod ≠ .late := by
  cases phase with
  | tornDown => exact absurd rfl hphase
  | _ => decide

/-- Every operation keeps to the history of the log. -/
theorem Shows.apply (hh : h.Shows o h.phase.logPeriod past) (op : Operation) :
    (h.apply op).2.Shows o (h.apply op).2.phase.logPeriod (h.operationLogNotes op ++ past) := by
  have hrefused : ∀ {phase name}, op.own? = some (phase, name) → h.phase ≠ phase →
      (h.apply op).2.Shows o (h.apply op).2.phase.logPeriod past := by
    intro phase name hown hphase
    rw [(apply_refused hown hphase).1]
    exact hh
  cases op with
  | load file =>
    have hloads := h.loads file
    show (h.load file).2.Shows o (h.load file).2.phase.logPeriod past
    generalize h.load file = out at hloads
    rcases out with ⟨result, loaded⟩
    change Loads h file result loaded at hloads
    cases hloads with
    | loaded p script hphase =>
      rw [hphase] at hh
      exact hh
    | _ => exact hh
  | execute =>
    simp only [operationLogNotes]
    by_cases hphase : h.phase = .compiled
    · rw [(h.applies .execute).midway rfl hphase (by simp), if_pos hphase]
      rw [hphase] at hh
      exact hh.execute hphase
    · rw [if_neg hphase]
      exact hrefused rfl hphase
  | start =>
    simp only [operationLogNotes]
    by_cases hphase : h.phase = .topLevelExecuted
    · rw [(h.applies .start).midway rfl hphase (by simp), if_pos hphase]
      rw [hphase] at hh
      exact hh.start hphase
    · rw [if_neg hphase]
      exact hrefused rfl hphase
  | run acts =>
    simp only [operationLogNotes]
    by_cases hphase : h.phase = .started
    · rw [(h.applies (.run acts)).midway rfl hphase (by simp), if_pos hphase]
      rw [hphase] at hh
      -- The loop that is observed is the one that runs; only the notes differ.
      have hloop : (h.apply (.run acts)).2 = (loggedLoop.run h.enter.2 acts).1 := by
        have hact : loggedLoop.act = Host.looped.act := rfl
        rw [Observed.run_fst_eq hact]
        simp [Host.apply, enter, expect, hphase]
      rw [hloop]
      exact (hh.same h.sameLog_enter).looped_run acts
    · rw [if_neg hphase]
      exact hrefused rfl hphase
  | shutdown =>
    simp only [operationLogNotes]
    by_cases hphase : h.phase = .stopRequested
    · rw [(h.applies .shutdown).midway rfl hphase (by simp), if_pos hphase]
      rw [hphase] at hh
      exact hh.shutdown hphase
    · rw [if_neg hphase]
      exact hrefused rfl hphase
  | teardown =>
    show h.teardown.Shows o h.teardown.phase.logPeriod _
    simp only [operationLogNotes, teardown]
    by_cases hphase : h.phase = .tornDown
    · rw [if_pos hphase, if_pos hphase]
      exact hh
    · rw [if_neg hphase, if_neg hphase]
      have hreleased := hh.releaseLocal (logPeriod_ne_late hphase)
      exact hreleased.same (Resources.SameLog.mk rfl rfl)
  | close acts =>
    show (h.closeWhile acts).Shows o (h.closeWhile acts).phase.logPeriod _
    simp only [operationLogNotes, closeWhile]
    by_cases hphase : h.phase = .tornDown
    · rw [if_pos hphase, if_pos hphase]
      exact hh
    · rw [if_neg hphase, if_neg hphase]
      have hreleased := hh.releaseLocal (logPeriod_ne_late hphase)
      have hbegun : h.beginClose.Shows o .late (.released :: past) := hreleased
      exact hbegun.same ((sameLog_finishRelease _).trans (sameLog_waited_run _ acts))
  | meanwhile a =>
    show (waited.act h a).Shows o (waited.act h a).phase.logPeriod past
    rw [(waited_keeps h a).phase]
    exact hh.same (sameLog_waited h a)

end Host

/-! ## Runs of a script's file -/

namespace HostRun

variable {o : Outlets} {period : LogPeriod} {past : List LogNote} {h : Host}

/-- How far a run has come at a stage, as far as its log is concerned. -/
def Stage.logPeriod : Stage → LogPeriod
  | .launching _ => .early
  | .looping => .midway
  | .closing _ => .late
  | .finished _ => .late

/-- A run whose log and outlets are what a history says that has come as far as the run. -/
def Shows (o : Outlets) (r : HostRun) (past : List LogNote) : Prop :=
  r.host.Shows o r.stage.logPeriod past

theorem shows_conclude (hh : h.Shows o period past) (hgoing : period ≠ .late) (status : Int) :
    (conclude h status).Shows o (.released :: past) :=
  hh.releaseLocal hgoing

theorem shows_fail (hh : h.Shows o period past) (hgoing : period ≠ .late) (e : HostError) :
    (fail h e).Shows o (.released :: .reported e :: past) := by
  have hreported : (h.inWorld fun w => w.writeError e.report).Shows o period
      (.reported e :: past) :=
    Resources.Shows.reported hh hgoing e
  exact shows_conclude hreported hgoing _

end HostRun

namespace Host

variable {o : Outlets} {past : List LogNote} {h : Host}

/-- What is noted of the log from the call of `start` on until the event loop is entered. -/
def entryLogNotes (h : Host) : List LogNote :=
  match h.start with
  | (.error e, _) => .released :: .reported e :: h.startLogNotes
  | (.ok (some _), _) => .released :: h.startLogNotes
  | (.ok none, started) =>
    match started.enter with
    | (.error e, _) => .released :: .reported e :: h.startLogNotes
    | (.ok _, _) => h.startLogNotes

/-- What is noted of the log from the top level on until the event loop is entered. -/
def executionLogNotes (h : Host) : List LogNote :=
  match h.execute with
  | (.error e, _) => .released :: .reported e :: h.topLogNotes
  | (.ok (some _), _) => .released :: h.topLogNotes
  | (.ok none, executed) => executed.entryLogNotes ++ h.topLogNotes

/-- What is noted of the log while a host comes from its script's file into the event loop. -/
def launchLogNotes (h : Host) (file : ScriptFile) : List LogNote :=
  match h.load file with
  | (.error e, _) => [.released, .reported e]
  | (.ok _, loaded) => loaded.executionLogNotes

theorem Shows.startAndEnter (hh : h.Shows o .midway past) (hphase : h.phase = .topLevelExecuted) :
    h.startAndEnter.Shows o (h.entryLogNotes ++ past) := by
  have hgoing : LogPeriod.midway ≠ .late := by decide
  have hstarted := hh.start hphase
  unfold entryLogNotes Host.startAndEnter
  generalize h.start = out at hstarted ⊢
  rcases out with ⟨result, started⟩
  cases result with
  | error e => exact HostRun.shows_fail hstarted hgoing e
  | ok asked =>
    cases asked with
    | some status => exact HostRun.shows_conclude hstarted hgoing _
    | none =>
      have hentered := hstarted.same started.sameLog_enter
      simp only
      generalize started.enter = out at hentered ⊢
      rcases out with ⟨result, entered⟩
      cases result with
      | error e => exact HostRun.shows_fail hentered hgoing e
      | ok _ => exact hentered

theorem phase_execute (hphase : h.phase = .compiled) :
    h.execute.2.phase = .topLevelExecuted := by
  have hexecutes := h.executes
  generalize h.execute = out at hexecutes
  rcases out with ⟨result, executed⟩
  change Executes h result executed at hexecutes
  cases hexecutes with
  | refused hother => exact absurd hphase hother
  | returned v next _ _ => exact (activateLog_alike next.executed).phase
  | _ => rfl

theorem Shows.execution (hh : h.Shows o .early past) (hphase : h.phase = .compiled) :
    HostRun.Shows o
      (match h.execute with
      | (.error e, h) => HostRun.fail h e
      | (.ok (some status), h) => HostRun.conclude h status.toInt
      | (.ok none, h) => h.startAndEnter)
      (h.executionLogNotes ++ past) := by
  have hgoing : LogPeriod.midway ≠ .late := by decide
  have hexecuted := hh.execute hphase
  have hleft := phase_execute hphase
  unfold executionLogNotes
  generalize h.execute = out at hexecuted hleft ⊢
  rcases out with ⟨result, executed⟩
  cases result with
  | error e => exact HostRun.shows_fail hexecuted hgoing e
  | ok asked =>
    cases asked with
    | some status => exact HostRun.shows_conclude hexecuted hgoing _
    | none =>
      simp only [List.append_assoc]
      exact hexecuted.startAndEnter hleft

theorem Shows.launch (hh : h.Shows o .early past) (hphase : h.phase = .uninitialized)
    (file : ScriptFile) : (HostRun.launch h file).Shows o (h.launchLogNotes file ++ past) := by
  have hgoing : LogPeriod.early ≠ .late := by decide
  have hloads := h.loads file
  unfold launchLogNotes HostRun.launch
  generalize h.load file = out at hloads ⊢
  rcases out with ⟨result, loaded⟩
  change Loads h file result loaded at hloads
  cases hloads with
  | refused _ hother => exact absurd hphase hother
  | unreadable path reason _ => exact HostRun.shows_fail hh hgoing _
  | uncompiled p _ _ => exact HostRun.shows_fail hh hgoing _
  | loaded p script _ _ =>
    have hloaded : (h.compiled script).Shows o .early past := hh
    exact hloaded.execution rfl

end Host

namespace HostRun

variable {o : Outlets} {past : List LogNote} {r : HostRun}

/-- What is noted of the log when a run goes on to its next stage. -/
def proceedLogNotes (r : HostRun) : List LogNote :=
  match r.stage with
  | .launching file => r.host.launchLogNotes file
  | .looping =>
    if r.host.phase = .running then []
    else
      match r.host.shutdown with
      | (.ok _, _) => .released :: r.host.stopLogNotes
      | (.error e, _) => [.released, .reported e]
  | .closing _ => []
  | .finished _ => []

/-- What is noted of the log in an act. -/
def logNotes (r : HostRun) : Act → List LogNote
  | .proceed => r.proceedLogNotes
  | a => r.host.loopLogNotes a

/-- Runs whose log is observed. -/
def logged : Observed HostRun Act LogNote := ⟨act, logNotes⟩

/-- A run that goes on to its next stage keeps to the history of the log. -/
theorem Shows.proceed (hr : r.Shows o past) (hstaged : Staged r) :
    (r.step.getD r).Shows o (r.proceedLogNotes ++ past) := by
  have hhost : r.host.Shows o r.stage.logPeriod past := hr
  unfold proceedLogNotes step
  cases hstage : r.stage with
  | launching file =>
    rw [hstage] at hhost
    exact hhost.launch (hstaged.launching file hstage).1 file
  | looping =>
    rw [hstage] at hhost
    rcases (hstaged.looping hstage).1 with hphase | hphase
    · simp only [hphase, if_true, Option.getD_none]
      exact hr
    · have hgoing : Stage.looping.logPeriod ≠ .late := by decide
      have hstopped := Host.Shows.shutdown hhost hphase
      have hshuts := r.host.shutsDown
      simp only [hphase, reduceCtorEq, if_false]
      generalize r.host.shutdown = out at hstopped hshuts ⊢
      rcases out with ⟨result, g⟩
      change Host.ShutsDown r.host result g at hshuts
      cases hshuts with
      | refused hother => exact absurd hphase hother
      | done _ _ _ => exact shows_conclude hstopped hgoing _
  | closing status =>
    rw [hstage] at hhost
    simp only
    split
    · exact hhost.same (Host.sameLog_finishRelease r.host)
    · exact hr
  | finished status => exact hr

theorem stage_act (r : HostRun) {a : Act} (hproceed : a ≠ .proceed) :
    (r.act a).stage = r.stage := by
  cases a with
  | proceed => exact absurd rfl hproceed
  | turn =>
    show r.turnLoop.stage = r.stage
    unfold turnLoop
    split
    · rfl
    · rfl
  | _ => rfl

/-- Every act keeps to the history of the log. -/
theorem Shows.act (hr : r.Shows o past) (hstaged : Staged r) (a : Act) :
    (r.act a).Shows o (r.logNotes a ++ past) := by
  by_cases hproceed : a = .proceed
  · rw [hproceed]
    exact hr.proceed hstaged
  · have hnotes : r.logNotes a = r.host.loopLogNotes a := by
      cases a with
      | proceed => exact absurd rfl hproceed
      | _ => rfl
    have hrunning : r.host.phase = .running → r.stage.logPeriod = .midway := by
      intro hphase
      rw [hstaged.running hphase]
      rfl
    rw [Shows, act_host r hproceed, stage_act r hproceed, hnotes]
    exact Host.Shows.looped hr hrunning a

end HostRun

/-! ## The law of records -/

namespace Host

/-- What is known of the records that a host has written and of where they come from. -/
structure Recorded (world : World) (h : Host) (past : List LogNote) : Prop where
  /-- The text in the kernel log has a line of each record of its channel, unless the log cannot be
  opened. -/
  kernelText : h.world.kernelText = world.kernelText ++
    String.join ((LogNote.kernelRecords world.kernelLog past).map (·.kernelLine))
  /-- The system log is called to be opened, to write the records of its channel, and to be
  closed. -/
  systemLog : h.world.outlets.systemLog = world.outlets.systemLog ++ LogNote.systemCalls past
  systemRecords : (LogNote.systemCalls past).filter Event.isRecord =
    (LogNote.records (·.syslog) past).map (·.systemCall)
  /-- The standard error stream has the records of its channel and the error that ended the run. -/
  errorText : h.world.errorText = world.errorText ++
    String.join ((LogNote.streamed past).map LogNote.entryText)
  streamRecords : (LogNote.streamed past).filterMap Sum.getLeft? = LogNote.records (·.stdio) past
  /-- A channel that is declared has one record of each call that was made after the top level had
  ended and before the release, in the order of the calls, under the identity that is declared; a
  channel that is not declared has none. -/
  records : ∀ named : Channels → Bool, LogNote.records named past =
    ((LogNote.declaration? past).filter fun d => named d.channels).elim [] fun d =>
      (LogNote.calls past).map fun call => d.record call.1 call.2
  /-- A declaration counts if it is well-formed and there when the top level ends. -/
  declared : ∀ d, LogNote.declaration? past = some d ↔
    ∃ v, .topEnded (some v) ∈ past ∧ d.WrittenAs v
  /-- All parts but the top level make their calls in time to be recorded, `stop` as well. -/
  calls : LogNote.calls past = past.reverse.filterMap LogNote.afterTop?
  /-- The calls of the top level come before its end, and nothing is noted after the release. -/
  fits : Throughout LogNote.Fits past
  /-- The log is open while a declaration is in force. -/
  logger : h.resources.logger = LogNote.logger world.kernelLog past
  /-- A call raises nothing and gives nothing back, recorded or not. -/
  returns : ∀ (r : Resources) severity v,
    Resources.invoke (Severity.function severity) [v] r = some (.ok .unit, r.log severity v)
  /-- A call that finds the log closed does nothing. -/
  lost : ∀ (r : Resources) severity v, r.logger.isOpen = false → r.log severity v = r

variable {period : LogPeriod} {past : List LogNote} {h : Host}

/-- The kernel log makes a record of each part of a line that is not empty, not one of the line. -/
theorem Shows.kernelWrites {world : World} (hh : h.Shows world.outlets period past) :
    h.world.kernelWrites = world.kernelWrites ++
      (LogNote.kernelRecords world.kernelLog past).flatMap (·.kernelParts) :=
  congrArg Outlets.kernelWrites hh.outlets

theorem Shows.recorded {world : World} (hh : h.Shows world.outlets period past) :
    Recorded world h past where
  kernelText := by
    simp only [World.kernelText, hh.kernelWrites, String.join_append, LogRecord.join_flatMap,
      LogRecord.join_kernelParts]
  systemLog := congrArg Outlets.systemLog hh.outlets
  systemRecords := LogNote.filter_systemCalls past
  errorText := congrArg Outlets.errorText hh.outlets
  streamRecords := LogNote.filterMap_streamed past
  records _ := LogNote.records_eq hh.fits
  declared _ := LogNote.declaration?_eq_some_iff hh.fits
  calls := LogNote.calls_eq hh.fits
  fits := hh.fits
  logger := hh.logger
  returns := Resources.invoke_log
  lost _ severity v hclosed := Resources.log_of_closed hclosed severity v

/-- A host to which nothing happened shows nothing. -/
theorem shows_nil {world : World} (hlogger : h.resources.logger = .closed)
    (hworld : h.world = world) : h.Shows world.outlets .early [] where
  logger := hlogger
  outlets := by
    rw [LogNote.shown_nil, ← hworld]
    rfl
  fits := throughout_nil
  period_eq := rfl

theorem shows_operated (config : HostConfig) (transport : Transport) (world : World)
    (ops : List Operation) :
    let p := logOperated.run (new config transport world) ops
    p.1.Shows world.outlets p.1.phase.logPeriod p.2 := by
  let inv (h : Host) (past : List LogNote) : Prop := h.Shows world.outlets h.phase.logPeriod past
  have hinit : inv (new config transport world) [] := shows_nil rfl rfl
  have hstep : ∀ h past op, inv h past →
      inv (logOperated.act h op) (logOperated.notes h op ++ past) :=
    fun h past op hh => Shows.apply hh op
  exact logOperated.run_invariant hinit hstep ops

theorem shows_run (config : HostConfig) (transport : Transport) (world : World)
    (file : ScriptFile) (acts : List HostRun.Act) :
    let p := HostRun.logged.run (HostRun.fresh config transport world file) acts
    p.1.Shows world.outlets p.2 := by
  -- What an act does depends on the stage, so the invariant carries both.
  let inv (r : HostRun) (past : List LogNote) : Prop :=
    HostRun.Staged r ∧ r.Shows world.outlets past
  have hinit : inv (HostRun.fresh config transport world file) [] :=
    ⟨HostRun.staged_fresh config transport world file, shows_nil rfl rfl⟩
  have hstep : ∀ r past a, inv r past →
      inv (HostRun.logged.act r a) (HostRun.logged.notes r a ++ past) :=
    fun r past a hr => ⟨hr.1.does (HostRun.does hr.1 a), hr.2.act hr.1 a⟩
  exact (HostRun.logged.run_invariant hinit hstep acts).2

/-- However a host is used, and in every run of a script's file, each channel has the records of the
calls that were made while a declaration that names it was in force, and no others. -/
theorem records_written (config : HostConfig) (transport : Transport) (world : World)
    (ops : List Operation) (file : ScriptFile) (acts : List HostRun.Act) :
    Recorded world (logOperated.run (new config transport world) ops).1
        (logOperated.run (new config transport world) ops).2 ∧
      Recorded world (HostRun.logged.run (HostRun.fresh config transport world file) acts).1.host
        (HostRun.logged.run (HostRun.fresh config transport world file) acts).2 := by
  exact ⟨(shows_operated config transport world ops).recorded,
    Shows.recorded (shows_run config transport world file acts)⟩

/-- A script that logs at the top level, in `start` and in `stop`. -/
def loggingScript : Program where
  globals := [("ulog", .map [
    ("identity", .constant (.string "svc\x00")),
    ("channels", .array [.constant (.string "stdio"), .constant (.string "kmsg")])])]
  top := [.native none "ulog_info" [.constant (.string "top")]]
  functions := [
    ⟨"start", 0, [[
      .native none "ulog_note" [.constant (.string "start")],
      .native none "uloop_end" []]]⟩,
    ⟨"stop", 0, [[.native none "ulog_err" [.constant (.string "stop")]]]⟩]

/-- What the top level logs is lost, what `stop` logs is not. -/
example :
    let h := ([.proceed, .turn, .proceed].foldl HostRun.act
      (HostRun.fresh {} .missing { kernelLog := true } (.program loggingScript))).host
    h.world.errorText = "svc: start\nsvc: stop\n" ∧
      h.world.kernelText = "<5>svc: start\n<3>svc: stop\n" := by
  decide +kernel

/-- A script that declares a log, ends its top level with an exit, and logs in `start`. -/
def exitingScript : Program where
  globals := [("ulog", .map [("identity", .constant (.string "svc")),
    ("channels", .array [.constant (.string "stdio")])])]
  top := [.native none "exit" [.constant (.int 3)]]
  functions := [⟨"start", 0, [[.native none "ulog_info" [.constant (.string "hello")]]]⟩]

/-- A well-formed declaration is there when the top level has ended, but it ended with an exit, so
what `start` logs is not recorded. And where the log is open, the kernel makes seven records of one
call: each write is one, and a line is written part by part. -/
theorem records_lost_or_split :
    let p := logOperated.run (new {} .missing {})
      [.load (.program exitingScript), .execute, .start]
    let q := logOperated.run (new {} .missing { kernelLog := true })
      [.load (.program loggingScript), .execute, .start]
    ((LogDeclaration.declared? (p.1.script.global? "ulog")).isSome = true ∧
        (LogNote.calls p.2).map (·.2.text) = ["hello"] ∧ p.1.world.errorText = "") ∧
      (LogNote.calls q.2).map (·.2.text) = ["start"] ∧
        q.1.world.kernelWrites = ["<", "5", ">", "svc", ": ", "start", "\n"] := by
  decide +kernel

end Host
end ScriptService
