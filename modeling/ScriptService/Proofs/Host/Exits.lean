import ScriptService.Proofs.Host.Turns
import ScriptService.Proofs.Script.Chains

/-!
# Exits of scripts

A script ends its host by calling `exit` with an integer, at the top level or inside whatever chain
of calls the host began. The fault leaves every function on its way, and the host looks below them:
it sees the exit with its status and never an exception, and the machine is the one on which `exit`
was called. What follows depends on what the host was doing: the top level and `start` end with the
status, and in the event loop and in `stop` the exit is a request to end with it. A chain is at most
as long as calls can be nested; one call more is an exception.

Main statement: `Host.exits_recognised`.
-/

namespace ScriptService

/-! ## What faults mean -/

namespace Fault

/-- The error below the functions that a fault left decides what it means. -/
structure Classified (fault : Fault) : Prop where
  exit : ∀ code, fault.outcome = .exit code ↔
    ∃ names v, fault = (terminated v).within names ∧ code = exitStatus v
  compile : fault.outcome = .compile ↔
    ∃ names reason, fault = (syntaxError reason).within names
  exception : ∀ text, fault.outcome = .exception text ↔
    text = fault.text ∧ (∀ names v, fault ≠ (terminated v).within names) ∧
      ∀ names reason, fault ≠ (syntaxError reason).within names

theorem classified (fault : Fault) : fault.Classified where
  exit code := by
    constructor
    · intro h
      unfold outcome at h
      split at h
      · rename_i v hcause
        cases h
        obtain ⟨names, hfault⟩ := (cause_eq_iff rfl).1 hcause
        exact ⟨names, v, hfault, rfl⟩
      · cases h
      · cases h
    · rintro ⟨names, v, rfl, rfl⟩
      rw [outcome, cause_within]
      rfl
  compile := by
    constructor
    · intro h
      unfold outcome at h
      split at h
      · cases h
      · rename_i reason hcause
        obtain ⟨names, hfault⟩ := (cause_eq_iff rfl).1 hcause
        exact ⟨names, reason, hfault⟩
      · cases h
    · rintro ⟨names, reason, rfl⟩
      rw [outcome, cause_within]
      rfl
  exception text := by
    constructor
    · intro h
      unfold outcome at h
      split at h
      · cases h
      · cases h
      · rename_i hterminated hmisread
        cases h
        refine ⟨rfl, fun names v hfault => ?_, fun names reason hfault => ?_⟩
        · exact hterminated v ((cause_eq_iff rfl).2 ⟨names, hfault⟩)
        · exact hmisread reason ((cause_eq_iff rfl).2 ⟨names, hfault⟩)
    · rintro ⟨rfl, hterminated, hmisread⟩
      unfold outcome
      split
      · rename_i v hcause
        obtain ⟨names, hfault⟩ := (cause_eq_iff rfl).1 hcause
        exact absurd hfault (hterminated names v)
      · rename_i reason hcause
        obtain ⟨names, hfault⟩ := (cause_eq_iff rfl).1 hcause
        exact absurd hfault (hmisread names reason)
      · rfl

end Fault

/-! ## Exits of scripts -/

/-- An exit with an integer gives it as the status if it has 32 bits, and 0 otherwise. -/
theorem toInt_exitStatus (code : Int64) : (exitStatus (.int code)).toInt =
    if -2147483648 ≤ code.toInt ∧ code.toInt ≤ 2147483647 then code.toInt else 0 := by
  have hcode : (Value.int code).int? = some code := rfl
  unfold exitStatus
  simp only [hcode]
  split
  · rename_i hfits
    rw [Int32.toInt_ofInt_of_le hfits.1 (by omega)]
  · rfl

namespace Resources

/-- The integer that a call of `exit` with these arguments gives: 0 without any. -/
def exitCode? : List Value → Option Int64
  | [] => some 0
  | [v] => v.int?
  | _ => none

theorem exit_of_int {v : Value} {code : Int64} (h : v.int? = some code) :
    exit v = .terminated v ∧ exitStatus v = exitStatus (.int code) := by
  constructor
  · unfold exit
    rw [h]
  · unfold exitStatus
    rw [h]
    rfl

/-- A script that calls `exit` with an integer is terminated. -/
theorem invoke_exit {args : List Value} {code : Int64} (h : exitCode? args = some code)
    (r : Resources) : ∃ v, invoke "exit" args r = some (.error (.terminated v), r) ∧
      exitStatus v = exitStatus (.int code) := by
  unfold exitCode? at h
  split at h
  · cases h
    exact ⟨.int 0, rfl, rfl⟩
  · rename_i v
    obtain ⟨hexit, hstatus⟩ := exit_of_int h
    refine ⟨v, ?_, hstatus⟩
    show some (Except.error (exit v), r) = _
    rw [hexit]
  · cases h

/-- Nothing else that the host offers terminates a script. -/
theorem exit_of_terminated {name : String} {args : List Value} {r s : Resources} {fault : Fault}
    {v : Value} (hinvoke : invoke name args r = some (.error fault, s))
    (hcause : fault.cause = .terminated v) :
    name = "exit" ∧ s = r ∧ ∃ code, exitCode? args = some code ∧
      exitStatus v = exitStatus (.int code) := by
  have hexit : ∀ w, (exit w).cause = .terminated v →
      ∃ code, w.int? = some code ∧ exitStatus v = exitStatus (.int code) := by
    intro w hw
    unfold exit at hw
    split at hw
    · rename_i code hcode
      cases hw
      exact ⟨code, hcode, (exit_of_int hcode).2⟩
    · cases hw
  unfold invoke at hinvoke
  simp only at hinvoke
  split at hinvoke
  · cases hinvoke
  · cases hinvoke
  · cases hinvoke
  · cases hinvoke
  · cases hinvoke
  · cases hinvoke
    exact ⟨rfl, rfl, hexit (.int 0) hcause⟩
  · cases hinvoke
    exact ⟨rfl, rfl, hexit _ hcause⟩
  · obtain ⟨severity, -, hgive⟩ := Option.bind_eq_some_iff.1 hinvoke
    cases hgive
  · cases hinvoke

end Resources

/-! ## Parts -/

namespace Part

open Interpreter (Spot Leads Raises)

/-- The function that a part calls, its arguments, and the values that the host keeps meanwhile. -/
def call? : Part → Option (Callback × List Value × List Value)
  | .top => none
  | .start f => some (f, [], [])
  | .timer _ f args => some (f, args, [])
  | .child f args held => some (f, args, held)
  | .hook f => some (f, [], [])
  | .method f args => some (f, args, [])
  | .stop f => some (f, [], [])

/-- Where the code of a part begins: at the actions of the top level, once the global values are
defined, or at the call of a function. -/
inductive Begins (m : Machine Resources) : Part → Spot Resources → Prop where
  | top (next : Machine Resources)
    (hprepare : (Interpreter.prepare Resources.natives).run.run m = (.ok (), next)) :
    Begins m .top (.actions Interpreter.callDepthLimit ⟨[], 0⟩ [] m.script.program.top next)
  | call {part : Part} {f : Callback} {args held : List Value}
    (hpart : part.call? = some (f, args, held)) :
    Begins m part (.call Interpreter.callDepthLimit held f.name (f.curried ++ args) m)

/-- The top level begins once its arguments are known. -/
theorem exists_begins_top (h : Host) : ∃ s, Begins h.withArguments.machine .top s := by
  have harguments : ∃ v, h.withArguments.machine.script.global? "ARGV" = some v := by
    refine ⟨.array (h.config.args.map .string), ?_⟩
    show (Script.define h.machine.script "ARGV" _).global? "ARGV" = _
    rw [Script.global?_define, if_pos rfl]
  obtain ⟨next, hnext⟩ := Interpreter.run_prepare Resources.natives harguments
  exact ⟨_, .top next hnext⟩

/-- Every other part begins with a call. -/
theorem exists_begins (m : Machine Resources) {part : Part} (hpart : part ≠ .top) :
    ∃ s, Begins m part s := by
  obtain ⟨⟨f, args, held⟩, hcall⟩ : ∃ c, part.call? = some c := by
    cases part with
    | top => exact absurd rfl hpart
    | _ => exact ⟨_, rfl⟩
  exact ⟨_, .call hcall⟩

/-- A part that calls a function is that call. -/
theorem code_of_call {part : Part} {f : Callback} {args held : List Value}
    (hpart : part.call? = some (f, args, held)) :
    part.code Resources Resources.natives =
      Interpreter.callBack Resources.natives held f args := by
  cases part with
  | top => cases hpart
  | _ =>
    cases hpart
    rfl

/-- A part ends with a fault exactly if what it begins with does, apart from an end with a value. -/
theorem Begins.code_eq_error_iff {m last : Machine Resources} {part : Part} {s : Spot Resources}
    (hs : Begins m part s) {fault : Fault} (hfault : ∀ v, fault.cause ≠ .finished v) :
    (part.code Resources Resources.natives).run.run m = (.error fault, last) ↔
      s.run Resources.natives = (.error fault, last) := by
  cases hs with
  | call hpart =>
    rw [code_of_call hpart]
    exact Iff.rfl
  | top next hprepare =>
    have hrun := Interpreter.run_runTop hprepare
    show (Interpreter.runTop Resources.natives).run.run m = _ ↔ _
    rw [hrun]
    rcases (Spot.actions Interpreter.callDepthLimit ⟨[], 0⟩ [] m.script.program.top next).run
      Resources.natives with ⟨result, after⟩
    cases result with
    | ok v => exact Iff.rfl
    | error other =>
      simp only
      split
      · -- An end with a value is no fault of the top level, and none is asked for.
        rename_i v hcause
        constructor
        · intro h
          cases h
        · intro h
          cases h
          exact absurd hcause (hfault v)
      · exact Iff.rfl

/-- Inside nested calls of the functions named, the outermost first, a part calls `exit` with an
integer; the machine is the one on which it does. -/
def Asks (part : Part) (m : Machine Resources) (names : List String) (code : Int64)
    (last : Machine Resources) : Prop :=
  ∃ s args, Begins m part s ∧ Leads Resources.natives s names (.host "exit" args last) ∧
    Resources.exitCode? args = some code

/-- A part calls `exit`, at whatever depth; the host is left as it is then. -/
def Exits (part : Part) (h : Host) (status : Int32) (next : Host) : Prop :=
  ∃ names code last, part.Asks h.machine names code last ∧ status = exitStatus (.int code) ∧
    next = { h with machine := last }

variable {part : Part} {h next : Host} {names : List String} {code : Int64}
  {last : Machine Resources} {s : Spot Resources} {status : Int32}

theorem Begins.depth_eq {m : Machine Resources} (hs : Begins m part s) :
    s.depth = Interpreter.callDepthLimit := by
  cases hs with
  | top => rfl
  | call => rfl

theorem Asks.length_le {m : Machine Resources} (hasks : part.Asks m names code last) :
    names.length ≤ Interpreter.callDepthLimit := by
  obtain ⟨s, args, hbegins, hleads, -⟩ := hasks
  have hlength := hleads.length_le
  rw [hbegins.depth_eq] at hlength
  exact hlength

theorem run_eq_iff {result : Except Fault Value} :
    part.run h = (result, next) ↔
      (part.code Resources Resources.natives).run.run h.machine = (result, next.machine) ∧
        next = { h with machine := next.machine } := by
  unfold Part.run
  constructor
  · intro hrun
    cases hrun
    exact ⟨rfl, rfl⟩
  · rintro ⟨hcode, hnext⟩
    rw [hcode]
    exact Prod.ext rfl hnext.symm

/-- A termination is raised by a call of `exit` with an integer. -/
theorem exists_of_raises {s : Spot Resources} {inner : Fault} {v : Value}
    (hraises : Raises Resources.natives s inner last) (hinner : inner.cause = .terminated v) :
    ∃ args code, s = .host "exit" args last ∧ Resources.exitCode? args = some code ∧
      exitStatus v = exitStatus (.int code) := by
  cases hraises with
  | thrown => cases hinner
  | misread => cases hinner
  | tooDeep => cases hinner
  | missing => cases hinner
  | @failed name args fault host m hinvoke =>
    obtain ⟨rfl, rfl, code, hargs, hstatus⟩ := Resources.exit_of_terminated hinvoke hinner
    exact ⟨args, code, rfl, hargs, hstatus⟩

/-- A part whose code ends with a fault leaves the host with the machine of that moment. -/
theorem Begins.perform_of_error (hs : Begins h.machine part s) {fault : Fault}
    (hfault : ∀ v, fault.cause ≠ .finished v)
    (hrun : s.run Resources.natives = (.error fault, last)) :
    h.perform (part.code Resources Resources.natives) =
      (.error fault.outcome, { h with machine := last }) := by
  rw [perform_eq]
  unfold Part.run
  rw [(hs.code_eq_error_iff hfault).2 hrun]
  rfl

/-- The host sees an exit exactly if the script calls `exit` with an integer, and then nothing that
would follow the call is done. -/
theorem Begins.perform_exit_iff (hs : Begins h.machine part s) :
    h.perform (part.code Resources Resources.natives) = (.error (.exit status), next) ↔
      part.Exits h status next := by
  constructor
  · intro hperform
    obtain ⟨fault, hrun, houtcome⟩ := run_of_error part hperform
    obtain ⟨names, v, rfl, rfl⟩ := (fault.classified.exit status).1 houtcome
    have hcause : ((Fault.terminated v).within names).cause = .terminated v :=
      Fault.cause_within names _
    obtain ⟨hcode, hnext⟩ := run_eq_iff.1 hrun
    have hspot := (hs.code_eq_error_iff fun w h => by rw [hcause] at h; cases h).1 hcode
    -- The fault comes from the end of a chain, and only an exit raises such a fault.
    obtain ⟨names', s', inner, hleads, hraises, hfault⟩ := (Interpreter.run_eq_error_iff s).1 hspot
    have hinner : inner.cause = .terminated v := by
      rw [← Fault.cause_within names' inner, ← hfault, hcause]
    obtain ⟨args, code, rfl, hargs, hstatus⟩ := exists_of_raises hraises hinner
    exact ⟨names', code, next.machine, ⟨s, args, hs, hleads, hargs⟩, hstatus, hnext⟩
  · rintro ⟨names, code, last, ⟨s', args, hbegins, hleads, hargs⟩, rfl, rfl⟩
    obtain ⟨v, hinvoke, hstatus⟩ := Resources.invoke_exit hargs last.host
    have hcause : ((Fault.terminated v).within names).cause = .terminated v :=
      Fault.cause_within names _
    have hrun := hleads.run_of_raises (Raises.failed hinvoke)
    have hperform := hbegins.perform_of_error (fun w h => by rw [hcause] at h; cases h) hrun
    rw [Fault.outcome, hcause] at hperform
    simp only [hstatus] at hperform
    exact hperform

theorem Exits.perform (hexits : part.Exits h status next) :
    h.perform (part.code Resources Resources.natives) = (.error (.exit status), next) := by
  obtain ⟨s, hbegins⟩ : ∃ s, Begins h.machine part s := by
    obtain ⟨names, code, last, ⟨s, args, hbegins, -⟩, -⟩ := hexits
    exact ⟨s, hbegins⟩
  exact hbegins.perform_exit_iff.2 hexits

/-- A chain that comes to one call too many ends there, with an exception. -/
theorem Begins.perform_tooDeep (hs : Begins h.machine part s) {held : List Value} {name : String}
    {args : List Value} (hleads : Leads Resources.natives s names (.call 0 held name args last))
    {f : Function} (hf : last.script.program.function? name args.length = some f) :
    h.perform (part.code Resources Resources.natives) =
      (.error (.exception "Stack overflow"), { h with machine := last }) := by
  have hcause : ((Fault.inCall name .stackOverflow).within names).cause = .stackOverflow :=
    Fault.cause_within names _
  have hrun := hleads.run_of_raises (Raises.tooDeep held hf)
  rw [hs.perform_of_error (fun w h => by rw [hcause] at h; cases h) hrun, Fault.outcome, hcause]
  simp only [Fault.text_within]
  rfl

end Part

/-! ## Where parts are run -/

namespace Host

/-- What an event leaves to do once its part has asked for an exit: a timer is unlinked, and a call
is answered with success, but without data. -/
def concluded (h : Host) : LoopEvent → Host
  | .timer id => h.unlink id
  | .bus (.call r) =>
    let (sent, client) := h.client.reply ⟨r.id, .ok, none⟩
    noteSent { h with client } sent r.id
  | _ => h

variable {h next l : Host} {status : Int32} {f : Callback} {part : Part} {e : LoopEvent}

theorem execute_of_exits (hphase : h.phase = .compiled)
    (hperform : h.withArguments.perform (Part.top.code Resources Resources.natives) =
      (.error (.exit status), next)) : h.execute = (.ok (some status), next.executed) := by
  have hrun : (h.withScript fun s => s.bindArguments h.config.args).perform
      (Interpreter.runTop Resources.natives) = (.error (.exit status), next) := hperform
  unfold execute
  rw [expect, if_pos hphase]
  simp only [hrun]
  rfl

theorem start_of_exits (hphase : h.phase = .topLevelExecuted)
    (hentry : h.script.entryPoint "start" = .callable f)
    (hcall : h.call f [] [] = (.error (.exit status), next)) :
    h.start = (.ok (some status), { next with phase := .started }) := by
  unfold start
  rw [expect, if_pos hphase]
  simp only [hentry, hcall]

theorem shutdown_of_exits (hphase : h.phase = .stopRequested) (hcrashed : h.crashed = false)
    (hentry : h.script.entryPoint "stop" = .callable f)
    (hcall : h.call f [] [] = (.error (.exit status), next)) :
    h.shutdown = (.ok status, next.withResources fun r => r.requestExit status) := by
  unfold shutdown
  rw [expect, if_pos hphase]
  simp only [hcrashed, Bool.false_eq_true, if_false, hentry, hcall]
  rfl

/-- A method that asks for an exit is answered first. -/
theorem answerCall_of_exits {d : ServiceDeclaration} {r : Request}
    (hservice : h.resources.service = some d) (hobject : r.object = d.object)
    (hmethod : d.callback? r.method = some f)
    (hcall : h.call f (r.data.toList.map Value.ofTable) [] = (.error (.exit status), next)) :
    h.answerCall r =
      (next.concluded (.bus (.call r))).withResources fun r => r.requestExit status := by
  rcases hrun : Interpreter.perform (Interpreter.callBack Resources.natives [] f
    (r.data.toList.map Value.ofTable)) h.machine with ⟨result, machine⟩
  unfold call perform at hcall
  rw [hrun] at hcall
  cases hcall
  have hanswer : Dispatch.answer Resources.natives d r h.machine =
      (⟨.ok, none, some (.exit status)⟩, machine) := by
    rw [Dispatch.answer, if_pos hobject, Dispatch.run, hmethod]
    simp only [hrun]
  unfold answerCall
  simp only [hservice, hanswer]
  rfl

/-- An event whose part asks for an exit asks the loop to stop with that status. -/
theorem dispatch_of_exits (hpart : h.partOf e = some (part, l))
    (hperform : l.perform (part.code Resources Resources.natives) =
      (.error (.exit status), next)) :
    h.dispatch e = (next.concluded e).withResources fun r => r.requestExit status := by
  cases e with
  | timer id =>
    obtain ⟨t, hget, hl⟩ := Option.map_eq_some_iff.1 hpart
    cases hl
    have hcall : h.call t.callback t.attached.toList [] = (.error (.exit status), next) := hperform
    simp only [dispatch, fireTimer, hget, hcall]
    rfl
  | childEnded pid ended =>
    rcases htake : ChildList.take h.resources.children pid with ⟨c, children⟩
    simp only [partOf, htake] at hpart
    cases c with
    | none => cases hpart
    | some c =>
      cases hpart
      have hcall : (h.withResources fun r => { r with children }).call c.callback
          (.int (.ofInt ended) :: c.attached.toList) c.held = (.error (.exit status), next) :=
        hperform
      simp only [dispatch, childEnded, htake, hcall]
      rfl
  | bus e =>
    cases e with
    | disconnected => cases hpart
    | connected =>
      obtain ⟨hook, hhook, hl⟩ := Option.map_eq_some_iff.1 hpart
      cases hl
      have hcall : h.call hook [] [] = (.error (.exit status), next) := hperform
      simp only [dispatch, connected, hhook, hcall]
      rfl
    | call r =>
      cases hservice : h.resources.service with
      | none => simp [partOf, hservice] at hpart
      | some d =>
        by_cases hobject : r.object = d.object
        · simp only [partOf, hservice, hobject, if_true] at hpart
          obtain ⟨f, hmethod, hl⟩ := Option.map_eq_some_iff.1 hpart
          cases hl
          exact answerCall_of_exits hservice hobject hmethod hperform
        · simp [partOf, hservice, hobject] at hpart

/-- The host recognises the exits of its script. -/
structure HeedsExits (h : Host) : Prop where
  /-- To run a part gives an exit exactly if the part calls `exit` with an integer, at whatever
  depth, and leaves the host as it is at that moment. -/
  called : ∀ (part : Part) status next, part ≠ .top →
    (h.perform (part.code Resources Resources.natives) = (.error (.exit status), next) ↔
      part.Exits h status next)
  top : ∀ status next,
    h.withArguments.perform (Part.top.code Resources Resources.natives) =
        (.error (.exit status), next) ↔
      Part.top.Exits h.withArguments status next
  /-- An exit is inside no more calls than can be nested. -/
  nested : ∀ (part : Part) names code last, part.Asks h.machine names code last →
    names.length ≤ Interpreter.callDepthLimit
  /-- One call more of a function of the script is an exception, and what it would do is not
  reached. -/
  tooDeep : ∀ (part : Part) s names held name args last f, Part.Begins h.machine part s →
    Interpreter.Leads Resources.natives s names (.call 0 held name args last) →
    last.script.program.function? name args.length = some f →
    names.length = Interpreter.callDepthLimit ∧
      h.perform (part.code Resources Resources.natives) =
        (.error (.exception "Stack overflow"), { h with machine := last })
  /-- An exit of the top level ends it with the status. -/
  execute : ∀ status next, h.phase = .compiled → Part.top.Exits h.withArguments status next →
    h.execute = (.ok (some status), next.executed)
  /-- So does one of `start`. -/
  start : ∀ f status next, h.phase = .topLevelExecuted →
    h.script.entryPoint "start" = .callable f → (Part.start f).Exits h status next →
    h.start = (.ok (some status), { next with phase := .started })
  /-- An exit in what an event calls is a request to stop with the status. -/
  dispatch : ∀ e part l status next, h.partOf e = some (part, l) → part.Exits l status next →
    h.dispatch e = (next.concluded e).withResources fun r => r.requestExit status
  /-- An exit of `stop` gives the status to end with, whatever was asked for before. -/
  shutdown : ∀ f status next, h.phase = .stopRequested → h.crashed = false →
    h.script.entryPoint "stop" = .callable f → (Part.stop f).Exits h status next →
    h.shutdown = (.ok status, next.withResources fun r => r.requestExit status)

theorem heedsExits (h : Host) : h.HeedsExits where
  called part status next hpart := by
    obtain ⟨s, hs⟩ := Part.exists_begins h.machine hpart
    exact hs.perform_exit_iff
  top status next := by
    obtain ⟨s, hs⟩ := Part.exists_begins_top h
    exact hs.perform_exit_iff
  nested part names code last hasks := hasks.length_le
  tooDeep part s names held name args last f hbegins hleads hf := by
    refine ⟨?_, hbegins.perform_tooDeep hleads hf⟩
    have hlength := hleads.length_eq
    rw [hbegins.depth_eq] at hlength
    exact hlength
  execute status next hphase hexits := execute_of_exits hphase hexits.perform
  start f status next hphase hentry hexits := start_of_exits hphase hentry hexits.perform
  dispatch e part l status next hpart hexits := dispatch_of_exits hpart hexits.perform
  shutdown f status next hphase hcrashed hentry hexits :=
    shutdown_of_exits hphase hcrashed hentry hexits.perform

/-- What a fault means is decided below all calls that it left, and the exit of a script is
recognised wherever the script asks for it. -/
theorem exits_recognised : (∀ fault : Fault, fault.Classified) ∧
    (∀ code, (exitStatus (.int code)).toInt =
      if -2147483648 ≤ code.toInt ∧ code.toInt ≤ 2147483647 then code.toInt else 0) ∧
    ∀ h : Host, h.HeedsExits :=
  ⟨Fault.classified, toInt_exitStatus, heedsExits⟩

/-! ## A chain that is too long -/

/-- Its `start` goes down through nested calls, the innermost of which asks for an exit. -/
def deepScript (calls : Nat) : Program where
  functions := [⟨"start", 0, [[.call "down" []]]⟩,
    ⟨"down", 0, List.replicate calls [.call "down" []] ++
      [[.native none "exit" [.constant (.int 3)]]]⟩]

/-- A host that is about to call that `start`. -/
def deepHost (calls : Nat) : Host :=
  { (default : Host) with
    machine := ⟨{ program := deepScript calls }, {}⟩
    phase := .topLevelExecuted }

/-- Below more nested calls than there can be an exit is not recognised: of a hundred, one is too
many, and `start` ends with an exception. -/
theorem not_exits_deep : (deepHost 100).start.1 = .error (.startFailed "Stack overflow") ∧
    ¬ ∀ calls, (deepHost calls).start.1 = .ok (some 3) := by
  have hdeep : (deepHost 100).start.1 = .error (.startFailed "Stack overflow") := by decide +kernel
  refine ⟨hdeep, fun hall => ?_⟩
  rw [hall 100] at hdeep
  cases hdeep

/-- As deep as calls can be nested, it is recognised. -/
example : (deepHost 62).start.1 = .ok (some 3) := by decide +kernel

end Host
end ScriptService
