import ScriptService.Proofs.Host.Events
import ScriptService.Proofs.Host.Stages
import ScriptService.Proofs.Log.History

/-!
# What a host does to its log

A host whose log and outlets are what a history says stays one through all that it does: while it
runs a part of its script, while it opens the log that the top level declares, in a turn of its
event loop, and in the release that closes the log.

Main statements: `Resources.Shows.code`, `Host.Shows.turn`, `Host.Shows.execute`,
`Host.Shows.shutdown` and `Host.Shows.releaseLocal`.
-/

namespace ScriptService

/-! ## What script code does to its log -/

namespace Resources

variable {part : Part} {r s : Resources}

/-- What is noted of the log when a part calls a function of the host. -/
def logSeen (part : Part) (name : String) (args : List Value) (_ : Resources) : List LogNote :=
  match Severity.ofFunction? name, args with
  | some severity, [v] => [.called part severity v]
  | _, _ => []

/-- Two states with the same log and the same outlets. -/
structure SameLog (s r : Resources) : Prop where
  logger : s.logger = r.logger
  outlets : s.world.outlets = r.world.outlets

theorem SameLog.refl (r : Resources) : r.SameLog r := ⟨rfl, rfl⟩

theorem SameLog.trans {q s r : Resources} (hqs : q.SameLog s) (hsr : s.SameLog r) : q.SameLog r :=
  ⟨hqs.logger.trans hsr.logger, hqs.outlets.trans hsr.outlets⟩

/-- What a function of the host does to the log. -/
inductive Logs (part : Part) (r : Resources) : List LogNote → Resources → Prop where
  | called (severity : Severity) (v : Value) :
      Logs part r [.called part severity v] (r.log severity v)
  | other (s : Resources) (hs : s.SameLog r) : Logs part r [] s

theorem sameLog_timeout (r : Resources) (callback delay : Value) (attached : Option Value) :
    (r.timeout callback delay attached).2.SameLog r := by
  unfold timeout
  split
  · exact ⟨rfl, rfl⟩
  · exact SameLog.refl r

theorem sameLog_process (r : Resources) (callback argv : Value) (attached : Option Value) :
    (r.process callback argv attached).2.SameLog r := by
  unfold process
  split
  · rename_i items _ _
    have hforked := Child.outlets_fork r.world (items.map Value.text)
    rcases hfork : Child.fork r.world (items.map Value.text) with ⟨result, world⟩
    rw [hfork] at hforked
    cases result with
    | ok pid => exact ⟨rfl, hforked⟩
    | error e => exact ⟨rfl, (World.outlets_warn _ _ _).trans hforked⟩
  · exact SameLog.refl r

/-- Of all functions that the host offers, four log. -/
theorem logs {name : String} {args : List Value} {result : Except Fault Value}
    (hinvoke : invoke name args r = some (result, s)) :
    Logs part r (logSeen part name args r) s := by
  unfold invoke at hinvoke
  simp only at hinvoke
  -- One case for each function that is offered, in their order; the last is no function.
  split at hinvoke
  · cases hinvoke
    exact .other _ (r.sameLog_timeout _ _ _)
  · cases hinvoke
    exact .other _ (r.sameLog_timeout _ _ _)
  · cases hinvoke
    exact .other _ (r.sameLog_process _ _ _)
  · cases hinvoke
    exact .other _ (r.sameLog_process _ _ _)
  · cases hinvoke
    exact .other _ ⟨rfl, rfl⟩
  · cases hinvoke
    exact .other _ (SameLog.refl r)
  · cases hinvoke
    exact .other _ (SameLog.refl r)
  · obtain ⟨severity, hseverity, hgive⟩ := Option.bind_eq_some_iff.1 hinvoke
    cases hgive
    unfold logSeen
    rw [hseverity]
    exact .called severity _
  · cases hinvoke

/-- A function that logs gives nothing back and raises nothing, whatever it is called with. -/
theorem invoke_log (r : Resources) (severity : Severity) (v : Value) :
    invoke severity.function [v] r = some (.ok .unit, r.log severity v) := by
  cases severity with
  | _ => rfl

/-- Records are lost while no declaration is in force. -/
theorem log_of_closed {r : Resources} (hclosed : r.logger.isOpen = false) (severity : Severity)
    (v : Value) : r.log severity v = r := by
  have hnone : r.logger.identity = none := by simpa [Logger.isOpen] using hclosed
  simp [log, Logger.emit, hnone]

/-! ## States that show a history -/

/-- The log and the outlets are what a history says that fits and has come to a period. -/
structure Shows (o : Outlets) (period : LogPeriod) (r : Resources) (past : List LogNote) :
    Prop where
  logger : r.logger = LogNote.logger o.kernelLog past
  outlets : r.world.outlets = LogNote.shown o past
  fits : Throughout LogNote.Fits past
  period_eq : LogNote.period past = period

variable {o : Outlets} {period : LogPeriod} {past : List LogNote}

theorem Shows.same (hr : r.Shows o period past) (hs : s.SameLog r) : s.Shows o period past :=
  ⟨hs.logger.trans hr.logger, hs.outlets.trans hr.outlets, hr.fits, hr.period_eq⟩

theorem Shows.called (hr : r.Shows o period past) (hpart : part.logPeriod = period)
    (severity : Severity) (v : Value) :
    (r.log severity v).Shows o period (.called part severity v :: past) where
  logger := hr.logger
  outlets := by
    show (r.logger.emit r.world severity v.text).outlets = _
    rw [Logger.outlets_emit, hr.logger, hr.outlets, LogNote.shown_called, LogNote.logger]
    cases LogNote.inForce? past with
    | none => rfl
    | some d => rfl
  fits := throughout_cons.2 ⟨hr.period_eq.trans hpart.symm, hr.fits⟩
  period_eq := hr.period_eq

/-- Script code leaves a state that shows the calls it made. -/
theorem Shows.code {code : Code Value} (hcode : code.Parametric) {m : Machine Resources}
    (hm : m.host.Shows o period past) (hpart : part.logPeriod = period) :
    ((code Resources natives).run.run m).2.host.Shows o period
      (code.notes natives (logSeen part) m ++ past) := by
  refine Code.keeps_scripted hcode (fun (s : Resources) h => s.Shows o period h) ?_ ?_ hm
  · intro name args s h result next hs hinvoke
    have hlogs : Logs part s (logSeen part name args s) next := logs hinvoke
    generalize logSeen part name args s = ns at hlogs
    cases hlogs with
    | called severity v => exact hs.called hpart severity v
    | other _ hsame => exact hs.same hsame
  · intro e s h he hs
    have hsilent : e.isSystemLog = false := by
      cases e <;> first | rfl | cases he
    exact hs.same ⟨rfl, World.outlets_note_of_silent s.world hsilent⟩

/-- The end of the top level puts the log in place that the script declares. -/
theorem Shows.topEnded (hr : r.Shows o .early past) {d : LogDeclaration} {ulog : Value}
    (hdeclared : LogDeclaration.ofValue? ulog = .ok d) :
    Shows o .midway
      { r with
        logger := (r.logger.replace r.world d).1
        world := (r.logger.replace r.world d).2 } (.topEnded (some ulog) :: past) := by
  -- No log is open before the top level has ended, so there is none to be closed here.
  have hclosed : r.logger = .closed := by
    rw [hr.logger, LogNote.logger, LogNote.inForce?, hr.period_eq]
    rfl
  have hdevice : r.world.kernelLog = o.kernelLog := congrArg Outlets.kernelLog hr.outlets
  have hulog : LogDeclaration.declared? (some ulog) = some d := by
    simp [LogDeclaration.declared?, hdeclared, Except.toOption]
  obtain ⟨hopened, houtlets⟩ := Logger.outlets_replace r.world d
  rw [← hclosed] at hopened houtlets
  refine ⟨?_, ?_, throughout_cons.2 ⟨hr.period_eq, hr.fits⟩, rfl⟩
  · simp [hopened, hdevice, LogNote.logger, LogNote.inForce?, LogNote.period,
      LogNote.declaration?, hulog]
  · rw [LogNote.shown_topEnded, ← hr.outlets, hulog]
    refine houtlets.trans ?_
    by_cases hnamed : d.channels.syslog = true <;> simp [hnamed, Option.filter_some]

/-- Without a declaration that can be used, no log is opened at the end of the top level. -/
theorem Shows.undeclared (hr : r.Shows o .early past) {ulog : Option Value}
    (hdeclared : LogDeclaration.declared? ulog = none) :
    r.Shows o .midway (.topEnded ulog :: past) where
  logger := by
    rw [hr.logger]
    simp [LogNote.logger, LogNote.inForce?, LogNote.period, LogNote.declaration?, hr.period_eq,
      hdeclared]
  outlets := by simp [LogNote.shown_topEnded, hr.outlets, hdeclared]
  fits := throughout_cons.2 ⟨hr.period_eq, hr.fits⟩
  period_eq := rfl

/-- A top level that fails leaves the log closed. -/
theorem Shows.topFailed (hr : r.Shows o .early past) : r.Shows o .midway (.topFailed :: past) where
  logger := by
    rw [hr.logger]
    simp [LogNote.logger, LogNote.inForce?, LogNote.period, LogNote.declaration?, hr.period_eq]
  outlets := by rw [LogNote.shown_topFailed, hr.outlets]
  fits := throughout_cons.2 ⟨hr.period_eq, hr.fits⟩
  period_eq := rfl

theorem Shows.reported (hr : r.Shows o period past) (hgoing : period ≠ .late) (e : HostError) :
    (r.inWorld fun w => w.writeError e.report).Shows o period (.reported e :: past) where
  logger := hr.logger
  outlets := by
    rw [LogNote.shown_reported, ← hr.outlets]
    rfl
  fits := throughout_cons.2 ⟨fun hlate => hgoing (hr.period_eq.symm.trans hlate), hr.fits⟩
  period_eq := hr.period_eq

/-- The release closes the log, whatever becomes of timers and children. -/
theorem Shows.released (hr : r.Shows o period past) (hgoing : period ≠ .late) {w : World}
    (hw : w.outlets = r.world.outlets) (timers : TimerList) (children : ChildList) :
    Shows o .late
      { r with timers, children, logger := (r.logger.close w).1, world := (r.logger.close w).2 }
      (.released :: past) where
  logger := by simp [Logger.close, LogNote.logger, LogNote.inForce?, LogNote.period]
  outlets := by
    rw [LogNote.shown_released, ← hr.outlets, ← hw]
    refine (Logger.outlets_close r.logger w).trans ?_
    rw [hr.logger, LogNote.logger]
    cases LogNote.inForce? past with
    | none => rfl
    | some d =>
      by_cases hnamed : d.channels.syslog = true <;>
        simp [Logger.opened, Logger.isOpen, hnamed, Option.filter_some]
  fits := throughout_cons.2 ⟨fun hlate => hgoing (hr.period_eq.symm.trans hlate), hr.fits⟩
  period_eq := rfl

end Resources

/-! ## What the event loop does to the log -/

namespace Host

variable {o : Outlets} {period : LogPeriod} {past : List LogNote} {h g : Host}

/-- Two hosts with the same log and the same outlets. -/
def SameLog (g h : Host) : Prop := g.resources.SameLog h.resources

/-- A host whose log and outlets are what a history says. -/
def Shows (o : Outlets) (period : LogPeriod) (h : Host) (past : List LogNote) : Prop :=
  h.resources.Shows o period past

theorem Shows.same (hh : h.Shows o period past) (hg : g.SameLog h) : g.Shows o period past :=
  Resources.Shows.same hh hg

theorem SameLog.refl (h : Host) : h.SameLog h := Resources.SameLog.refl _

/-- A host that writes no record. -/
theorem sameLog_inWorld (h : Host) {f : World → World} (hf : ∀ w, (f w).outlets = w.outlets) :
    (h.inWorld f).SameLog h :=
  Resources.SameLog.mk rfl (hf _)

theorem SameLog.trans {k : Host} (hkg : k.SameLog g) (hgh : g.SameLog h) : k.SameLog h :=
  Resources.SameLog.trans hkg hgh

theorem bookkeeping_sameLog : Bookkeeping SameLog where
  refl := SameLog.refl
  trans := SameLog.trans
  timers _ _ := Resources.SameLog.mk rfl rfl
  children _ _ := Resources.SameLog.mk rfl rfl
  asked _ _ := Resources.SameLog.mk rfl rfl
  diagnosed h _ := sameLog_inWorld h fun w => World.outlets_note_of_silent w rfl
  replied _ _ := Resources.SameLog.mk rfl rfl

/-- What is noted of the log while a part runs. -/
def partLogNotes (h : Host) (part : Part) : List LogNote :=
  part.code.notes Resources.natives (Resources.logSeen part) h.machine

theorem Shows.run (hh : h.Shows o period past) (part : Part) (hpart : part.logPeriod = period) :
    (part.run h).2.Shows o period (h.partLogNotes part ++ past) :=
  Resources.Shows.code part.parametric hh hpart

/-- A part that runs in the course of an operation. -/
theorem Shows.perform (hh : h.Shows o period past) (part : Part) (hpart : part.logPeriod = period)
    {result : Except ScriptError Value}
    (hcall : h.perform (part.code Resources Resources.natives) = (result, g)) :
    g.Shows o period (h.partLogNotes part ++ past) := by
  rw [Part.eq_run part hcall]
  exact hh.run part hpart

/-- What is noted of the log when an event is dispatched. -/
def eventLogNotes (h : Host) (e : LoopEvent) : List LogNote :=
  match h.partOf e with
  | some (part, l) => l.partLogNotes part
  | none => []

theorem Shows.dispatch (hh : h.Shows o .midway past) (e : LoopEvent) :
    (h.dispatch e).Shows o .midway (h.eventLogNotes e ++ past) := by
  have hhandles := bookkeeping_sameLog.dispatch h e
  unfold eventLogNotes
  generalize h.dispatch e = next at hhandles
  generalize h.partOf e = found at hhandles
  cases hhandles with
  | quiet hnext => exact hh.same hnext
  | @ran part l _ hpart hl hnext =>
    have hran := (hh.same hl).run part (Part.logPeriod_of_dispatched hpart)
    exact hran.same hnext

theorem sameLog_collectEnds (h : Host) : h.collectEnds.SameLog h :=
  Resources.SameLog.mk rfl (ChildList.outlets_reapAll _ _)

theorem sameLog_listen (h : Host) : h.listen.SameLog h := by
  unfold listen
  split
  · exact SameLog.refl h
  · exact (sameLog_collectEnds _).trans (Resources.SameLog.mk rfl rfl)

theorem Looks.sameLog {turn : LoopTurn} (hlooks : Looks h turn g) : g.SameLog h := by
  cases hlooks with
  | terminated _ =>
    exact SameLog.trans (g := h.inWorld fun w => w.info "Termination signal received" [])
      (Resources.SameLog.mk rfl rfl)
      (sameLog_inWorld h fun w => World.outlets_note_of_silent w rfl)
  | collected _ => exact (sameLog_collectEnds _).trans (Resources.SameLog.mk rfl rfl)
  | heard e client _ _ => exact Resources.SameLog.mk rfl rfl
  | idle => exact SameLog.refl h

theorem Turns.sameLog {turn : LoopTurn} (hturns : Turns h turn g) : g.SameLog h := by
  cases hturns with
  | stopped _ => exact SameLog.refl h
  | ended pid status ready _ _ => exact Resources.SameLog.mk rfl rfl
  | due id timers _ _ _ => exact Resources.SameLog.mk rfl rfl
  | looked timers _ _ _ _ _ hlook => exact hlook.sameLog.trans (Resources.SameLog.mk rfl rfl)

/-- What is noted of the log in a turn of the event loop. -/
def turnLogNotes (h : Host) : List LogNote :=
  match h.nextTurn with
  | (.dispatch e, g) => g.eventLogNotes e
  | _ => []

theorem Shows.turn (hh : h.Shows o .midway past) :
    h.turn.2.Shows o .midway (h.turnLogNotes ++ past) := by
  have hfound : h.nextTurn.2.Shows o .midway past :=
    hh.same (h.turns.sameLog.trans h.sameLog_listen)
  rw [turn_eq]
  unfold turnLogNotes
  generalize h.nextTurn = p at hfound
  rcases p with ⟨turn, next⟩
  cases turn with
  | dispatch e => exact hfound.dispatch e
  | lookAgain => exact hfound
  | leave => exact hfound
  | wait => exact hfound

/-! ## Before and after the event loop -/

/-- The log is opened by what the top level declared. -/
theorem Shows.activateLog (hh : h.Shows o .early past) :
    h.activateLog.Shows o .midway (.topEnded (h.script.global? LogDeclaration.global) :: past) := by
  unfold Host.activateLog
  cases h.script.global? LogDeclaration.global with
  | none => exact Resources.Shows.undeclared hh rfl
  | some ulog =>
    simp only
    cases hdeclared : LogDeclaration.ofValue? ulog with
    | ok d => exact Resources.Shows.topEnded hh hdeclared
    | error e =>
      have hnone : LogDeclaration.declared? (some ulog) = none := by
        simp [LogDeclaration.declared?, hdeclared, Except.toOption]
      have hundeclared : h.Shows o .midway (.topEnded (some ulog) :: past) :=
        Resources.Shows.undeclared hh hnone
      exact hundeclared.same (sameLog_inWorld h fun w => World.outlets_warn w _ _)

/-- What is noted of the log while the top level runs, and at its end. -/
def topLogNotes (h : Host) : List LogNote :=
  (match h.execute with
    | (.ok none, executed) => .topEnded (executed.script.global? LogDeclaration.global)
    | _ => .topFailed) :: h.withArguments.partLogNotes .top

theorem Shows.execute (hh : h.Shows o .early past) (hphase : h.phase = .compiled) :
    h.execute.2.Shows o .midway (h.topLogNotes ++ past) := by
  have harguments : h.withArguments.Shows o .early past := hh
  have hexecutes := h.executes
  unfold topLogNotes
  generalize h.execute = out at hexecutes ⊢
  rcases out with ⟨result, executed⟩
  change Executes h result executed at hexecutes
  cases hexecutes with
  | refused hother => exact absurd hphase hother
  | returned v next _ hrun =>
    have hran := harguments.perform .top rfl hrun
    have hexecuted : next.executed.Shows o .early _ := hran
    have hactive := hexecuted.activateLog
    rw [← (activateLog_alike next.executed).script] at hactive
    exact hactive
  | exited code next _ hrun =>
    have hran := harguments.perform .top rfl hrun
    exact Resources.Shows.topFailed hran
  | uncompiled next _ hrun =>
    have hran := harguments.perform .top rfl hrun
    exact Resources.Shows.topFailed hran
  | raised text next _ hrun =>
    have hran := harguments.perform .top rfl hrun
    exact Resources.Shows.topFailed hran

/-- What is noted of the log when the host looks for `start` and calls it. -/
def startLogNotes (h : Host) : List LogNote :=
  match h.script.entryPoint "start" with
  | .callable f => h.partLogNotes (.start f)
  | _ => []

theorem Shows.start (hh : h.Shows o .midway past) (hphase : h.phase = .topLevelExecuted) :
    h.start.2.Shows o .midway (h.startLogNotes ++ past) := by
  have hstarts := h.starts
  unfold startLogNotes
  generalize h.start = out at hstarts
  rcases out with ⟨result, started⟩
  change Starts h result started at hstarts
  cases hstarts with
  | refused hother => exact absurd hphase hother
  | missing _ hentry =>
    rw [hentry]
    exact hh
  | notCallable _ hentry =>
    rw [hentry]
    exact hh
  | returned f v next _ hentry hcall =>
    rw [hentry]
    have hran := hh.perform (.start f) rfl hcall
    exact hran
  | exited f code next _ hentry hcall =>
    rw [hentry]
    have hran := hh.perform (.start f) rfl hcall
    exact hran
  | raised f e next _ hentry hcall _ =>
    rw [hentry]
    have hran := hh.perform (.start f) rfl hcall
    exact hran

theorem sameLog_activateService (h : Host) : h.activateService.SameLog h := by
  unfold Host.activateService
  split
  · exact SameLog.refl h
  · split
    · exact Resources.SameLog.mk rfl (World.outlets_note_of_silent _ rfl)
    · exact sameLog_inWorld h fun w => World.outlets_warn w _ _

theorem sameLog_enter (h : Host) : h.enter.2.SameLog h := by
  have henters := h.enters
  generalize h.enter = out at henters
  rcases out with ⟨result, g⟩
  change Enters h result g at henters
  cases henters with
  | refused _ => exact SameLog.refl h
  | entered _ =>
    have hactive : Host.SameLog { h.activateService with phase := .running } h.activateService :=
      Resources.SameLog.mk rfl rfl
    exact hactive.trans (sameLog_activateService h)

/-- What is noted of the log when the host looks for `stop` and calls it. -/
def stopLogNotes (h : Host) : List LogNote :=
  if h.crashed then []
  else
    match h.script.entryPoint "stop" with
    | .callable f => h.partLogNotes (.stop f)
    | _ => []

theorem Shows.stops (hh : h.Shows o .midway past) (hstops : Stops h g) :
    g.Shows o .midway (h.stopLogNotes ++ past) := by
  unfold stopLogNotes
  cases hstops with
  | crashed hcrashed =>
    rw [if_pos hcrashed]
    exact hh
  | missing hcrashed hentry =>
    rw [hcrashed, hentry]
    exact hh
  | notCallable hcrashed hentry =>
    rw [hcrashed, hentry]
    exact hh.same (sameLog_inWorld h fun w => World.outlets_warn w _ _)
  | returned f v next hcrashed hentry hcall =>
    rw [hcrashed, hentry]
    exact hh.perform (.stop f) rfl hcall
  | exited f code next hcrashed hentry hcall =>
    rw [hcrashed, hentry]
    have hstopped := hh.perform (.stop f) rfl hcall
    exact hstopped.same (bookkeeping_sameLog.asked next code)
  | raised f e next hcrashed hentry hcall _ =>
    rw [hcrashed, hentry]
    have hstopped := hh.perform (.stop f) rfl hcall
    exact hstopped.same (sameLog_inWorld next fun w => World.outlets_note_of_silent w rfl)

theorem Shows.shutdown (hh : h.Shows o .midway past) (hphase : h.phase = .stopRequested) :
    h.shutdown.2.Shows o .midway (h.stopLogNotes ++ past) := by
  have hshuts := h.shutsDown
  generalize h.shutdown = out at hshuts
  rcases out with ⟨result, next⟩
  change ShutsDown h result next at hshuts
  cases hshuts with
  | refused hother => exact absurd hphase hother
  | done _ _ hstops => exact hh.stops hstops

theorem Shows.releaseLocal (hh : h.Shows o period past) (hgoing : period ≠ .late) :
    h.releaseLocal.Shows o .late (.released :: past) := by
  refine Resources.Shows.released hh hgoing ?_ _ _
  split
  · rfl
  · exact ChildList.outlets_terminateAll _ _ _

end Host
end ScriptService
