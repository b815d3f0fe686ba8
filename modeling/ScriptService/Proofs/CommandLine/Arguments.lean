import ScriptService.CommandLine.Process
import ScriptService.Proofs.CommandLine.Words
import ScriptService.Proofs.Host.Phases

/-!
# The arguments of a script

A command line gives options of the program's own, then the script's file, then words for the
script. These words are the script's, unchanged and in order, unless the first of them is one that
the program knows: up to the first argument of the script it still takes such words for itself.

Main statement: `CommandLine.arguments_kept`.
-/

namespace ScriptService.CommandLine

open Reading

/-! ## What is given before the script's file -/

/-- An option that is given; a value is in the same word, behind an equals sign, or in the next. -/
inductive Given where
  | busSocket (value : String) (joined : Bool)
  | reconnectInterval (value : String) (joined : Bool)
  | keepChildren
  | verbose (short : Bool)
  deriving DecidableEq

/-- What is given for the settings of the host. -/
structure Settings where
  busSocket : Option String := none
  reconnectInterval : Option Nat := none
  keepsChildren : Bool := false
  verbose : Bool := false
  deriving DecidableEq

/-- The words of an option with a value. -/
def valueWords (s : Switch) (value : String) (joined : Bool) : List String :=
  if joined then ["--" ++ s.name ++ "=" ++ value] else ["--" ++ s.name, value]

namespace Given

def switch : Given → Switch
  | busSocket _ _ => .busSocket
  | reconnectInterval _ _ => .reconnectInterval
  | keepChildren => .keepChildren
  | verbose _ => .verbose

def words : Given → List String
  | busSocket value joined => valueWords .busSocket value joined
  | reconnectInterval value joined => valueWords .reconnectInterval value joined
  | keepChildren => ["--keep-children"]
  | verbose short => if short then ["-v"] else ["--verbose"]

/-- A value is one that the option takes, and not read as an option if it is a word of its own. -/
def Valid : Given → Prop
  | busSocket value joined => value ≠ "" ∧ (joined = false → Bare value)
  | reconnectInterval value joined =>
    (∃ n, Word.read value.toList = .ok n) ∧ (joined = false → Bare value)
  | _ => True

end Given

namespace Settings

def add (s : Settings) : Given → Settings
  | .busSocket value _ => { s with busSocket := some value }
  | .reconnectInterval value _ => { s with reconnectInterval := (Word.read value.toList).toOption }
  | .keepChildren => { s with keepsChildren := true }
  | .verbose _ => { s with verbose := true }

/-- The settings that options give. -/
def of (given : List Given) : Settings := given.foldl add {}

/-- Whether the setting of an option is given. -/
def has (s : Settings) : Switch → Bool
  | .busSocket => s.busSocket.isSome
  | .reconnectInterval => s.reconnectInterval.isSome
  | .keepChildren => s.keepsChildren
  | .verbose => s.verbose
  | _ => false

def reading (s : Settings) : Reading where
  busSocket := s.busSocket
  reconnectInterval := s.reconnectInterval
  keepsChildren := s.keepsChildren
  verbose := s.verbose

/-- The command line with these settings; what is not given is taken from the environment. -/
def commandLine (s : Settings) (env : Environment) (script : String) (args : List String) :
    CommandLine where
  script
  args
  busSocket := (s.busSocket.or env.busSocket).getD defaultBusSocket
  reconnectInterval := (s.reconnectInterval.or
    (env.reconnectInterval.bind fun v => (Word.read v.toList).toOption)).getD
      defaultReconnectInterval
  keepsChildren := s.keepsChildren
  verbose := s.verbose

end Settings

/-- The environment has no wrong value for a setting that is not given. -/
def Environment.Completes (env : Environment) (s : Settings) : Prop :=
  (s.busSocket = none → env.busSocket ≠ some "") ∧
    (s.reconnectInterval = none → ∀ v ∈ env.reconnectInterval, ∃ n, Word.read v.toList = .ok n)

/-! ## Options -/

/-- What has been read stands for settings: nothing but options was read, and they give these. -/
def Stands (r : Reading) (s : Settings) : Prop := r.complete = .ok s.reading

theorem stands_reading (s : Settings) : Stands s.reading s := rfl

/-- What stands for settings has no script, waits for no value, and still recognises options. -/
theorem Stands.facts {r : Reading} {s : Settings} (hr : Stands r s) :
    r.plain = false ∧ r.hasScript = false ∧ ∀ o, r.pending ≠ some (.option o none) := by
  unfold Stands complete at hr
  cases hpending : r.pending with
  | none =>
    simp only [hpending] at hr
    cases hr
    exact ⟨rfl, rfl, fun o => by simp⟩
  | some p =>
    cases p with
    | script path =>
      simp only [hpending, wrong] at hr
      split at hr
      · cases hr
      · exact absurd (congrArg Reading.script (Except.ok.inj hr)) (by simp [Settings.reading])
    | option o value =>
      cases value with
      | none =>
        simp only [hpending, wrong] at hr
        cases hr
      | some value =>
        simp only [hpending] at hr
        have hframe := setValue_frame hr
        refine ⟨hframe.2.2.symm, ?_, fun o => by simp⟩
        have hscript : r.script = none := hframe.1.symm
        simp [hasScript, hscript, hpending]

/-- An option with a value is taken over once the word after it is read. -/
theorem valueWords_foldlM {r : Reading} {s t : Settings} (hr : Stands r s) {o : Switch}
    {value : String} {joined : Bool} (ho : o.takesValue = true)
    (hset : s.reading.setValue o value = .ok t.reading) (hbare : joined = false → Bare value) :
    ∃ next, (valueWords o value joined).foldlM step r = .ok next ∧ Stands next t := by
  have hplain := hr.facts.1
  have hname : ('=' ∉ o.name.toList) ∧ Switch.ofName? o.name = some o ∧
      ∃ c cs, o.name.toList = c :: cs := by
    cases o with
    | busSocket => exact ⟨by decide, by decide, _, _, rfl⟩
    | reconnectInterval => exact ⟨by decide, by decide, _, _, rfl⟩
    | _ => cases ho
  rcases hname with ⟨hequals, hof, c, cs, hcs⟩
  cases joined with
  | true =>
    have hword : ("--" ++ o.name ++ "=" ++ value).toList =
        '-' :: '-' :: c :: (cs ++ '=' :: value.toList) := by
      simp [hcs]
    have hstep : r.step ("--" ++ o.name ++ "=" ++ value) = .ok t.reading := by
      rw [step_named hplain hword, ← List.cons_append, ← hcs, splitValue_joined _ hequals]
      simp only [String.ofList_toList, addNamed, hof, ho, if_true]
      rw [hr]
      exact hset
    refine ⟨t.reading, ?_, stands_reading t⟩
    simp only [valueWords, if_true, List.foldlM_cons, List.foldlM_nil, hstep]
    rfl
  | false =>
    have hword : ("--" ++ o.name).toList = '-' :: '-' :: c :: cs := by simp [hcs]
    have hfirst : r.step ("--" ++ o.name) =
        .ok { s.reading with pending := some (.option o none) } := by
      rw [step_named hplain hword, ← hcs, splitValue_of_not_mem hequals]
      simp only [String.ofList_toList, addNamed, hof, ho, if_true]
      rw [hr]
      rfl
    have hsecond : step { s.reading with pending := some (.option o none) } value =
        .ok { s.reading with pending := some (.option o (some value)) } :=
      step_bare rfl (hbare rfl)
    refine ⟨{ s.reading with pending := some (.option o (some value)) }, ?_, hset⟩
    simp only [valueWords, Bool.false_eq_true, if_false, List.foldlM_cons, List.foldlM_nil, hfirst]
    show (step _ value >>= _) = _
    rw [hsecond]
    rfl

/-- An option without a value is taken over at once. -/
theorem flag_foldlM {r : Reading} {s t : Settings} (hr : Stands r s) {o : Switch} {word : String}
    {c : Char} {cs : List Char} (hword : word.toList = '-' :: '-' :: c :: cs)
    (hname : (splitValue (c :: cs)) = (o.name, none)) (hof : Switch.ofName? o.name = some o)
    (ho : o.takesValue = false) (hset : s.reading.setFlag o = .ok t.reading) :
    ∃ next, [word].foldlM step r = .ok next ∧ Stands next t := by
  have hflag : r.setFlag o = s.reading.setFlag o := by
    unfold setFlag
    rw [hr]
    rfl
  have hstep : r.step word = .ok t.reading := by
    rw [step_named hr.facts.1 hword, hname]
    simp only [addNamed, hof, ho, Bool.false_eq_true, if_false]
    rw [hflag, hset]
  refine ⟨t.reading, ?_, stands_reading t⟩
  rw [List.foldlM_cons, hstep]
  rfl

/-- An option that was not given yet is taken over. -/
theorem given_foldlM {r : Reading} {s : Settings} (hr : Stands r s) {g : Given} (hvalid : g.Valid)
    (hnew : s.has g.switch = false) :
    ∃ next, g.words.foldlM step r = .ok next ∧ Stands next (s.add g) := by
  cases g with
  | busSocket value joined =>
    refine valueWords_foldlM hr rfl ?_ hvalid.2
    have hnone : s.busSocket.isSome = false := hnew
    simp [setValue, setBusSocket, Settings.reading, hnone, Settings.add, hvalid.1]
  | reconnectInterval value joined =>
    refine valueWords_foldlM hr rfl ?_ hvalid.2
    have hnone : s.reconnectInterval.isSome = false := hnew
    rcases hvalid.1 with ⟨n, hn⟩
    simp [setValue, setReconnectInterval, Settings.reading, hnone, Settings.add, hn,
      Except.toOption]
  | keepChildren =>
    have hset : s.reading.setFlag .keepChildren = .ok (s.add .keepChildren).reading := by
      have hnone : s.keepsChildren = false := hnew
      show (if s.keepsChildren = true then _ else _) = _
      rw [hnone]
      rfl
    exact flag_foldlM hr rfl rfl rfl rfl hset
  | verbose short =>
    have hset : s.reading.setFlag .verbose = .ok (s.add (.verbose short)).reading := by
      have hnone : s.verbose = false := hnew
      show (if s.verbose = true then _ else _) = _
      rw [hnone]
      rfl
    cases short with
    | false => exact flag_foldlM hr rfl rfl rfl rfl hset
    | true =>
      have hstep : r.step "-v" = .ok (s.add (.verbose true)).reading := by
        have hplain := hr.facts.1
        have hscript := hr.facts.2.1
        unfold Stands at hr
        unfold setFlag at hset
        unfold step
        rw [hplain, if_neg Bool.false_ne_true]
        show (if (r.hasScript && _) = true then _ else r.addLetters ['v']) = _
        rw [hscript]
        show (r.setFlag .verbose >>= fun r => r.addLetters []) = _
        unfold setFlag
        rw [hr]
        exact congrArg (fun x => x >>= fun r : Reading => r.addLetters []) hset
      refine ⟨_, ?_, stands_reading _⟩
      show ([ "-v" ].foldlM step r) = _
      rw [List.foldlM_cons, hstep]
      rfl

/-- Whether other settings are given stays as it is. -/
theorem has_add {s : Settings} {g : Given} {o : Switch} (hne : o ≠ g.switch) :
    (s.add g).has o = s.has o := by
  cases g with
  | _ =>
    cases o with
    | _ => first | rfl | exact absurd rfl hne

/-- Options that are each given once are all taken over. -/
theorem allGiven_foldlM {given : List Given} {r : Reading} {s : Settings} (hr : Stands r s)
    (hvalid : ∀ g ∈ given, g.Valid) (honce : (given.map Given.switch).Nodup)
    (hnew : ∀ g ∈ given, s.has g.switch = false) :
    ∃ next, (given.flatMap Given.words).foldlM step r = .ok next ∧
      Stands next (given.foldl Settings.add s) := by
  induction given generalizing r s with
  | nil => exact ⟨r, rfl, hr⟩
  | cons g given ih =>
    rw [List.map_cons, List.nodup_cons] at honce
    rcases given_foldlM hr (hvalid g List.mem_cons_self) (hnew g List.mem_cons_self) with
      ⟨middle, hfirst, hmiddle⟩
    have hlater : ∀ g' ∈ given, (s.add g).has g'.switch = false := by
      intro g' hg'
      have hne : g'.switch ≠ g.switch := fun heq =>
        honce.1 (List.mem_map.2 ⟨g', hg', heq⟩)
      rw [has_add hne]
      exact hnew g' (List.mem_cons_of_mem g hg')
    rcases ih hmiddle (fun g' hg' => hvalid g' (List.mem_cons_of_mem g hg')) honce.2 hlater with
      ⟨next, hrest, hnext⟩
    refine ⟨next, ?_, hnext⟩
    rw [List.flatMap_cons, List.foldlM_append, hfirst]
    exact hrest

/-! ## The script's file and its arguments -/

/-- The reading of a command line up to the script's file, and what is read in its place. -/
theorem script_step {r : Reading} {s : Settings} (hr : Stands r s) {script : String}
    (hbare : Bare script) :
    r.step script = .ok { s.reading with pending := some (.script script) } := by
  rcases hr.facts with ⟨hplain, hnone, hpending⟩
  rw [step_bare hplain hbare]
  have hword : r.addValue script = r.addWord script := by
    unfold addValue
    split
    · rename_i o heq
      exact absurd heq (hpending o)
    · rfl
  rw [hword]
  unfold addWord
  rw [hr]
  show (if r.hasScript = true then _ else _) = _
  rw [hnone]
  rfl

/-- Once options are not recognised, every word is an argument of the script. -/
theorem plain_foldlM {r : Reading} (hplain : r.plain = true) (hpending : r.pending = none)
    (hscript : r.hasScript = true) (words : List String) :
    words.foldlM step r = .ok { r with args := r.args ++ words } := by
  induction words generalizing r with
  | nil => simp [pure, Except.pure]
  | cons word words ih =>
    have hcomplete : r.complete = .ok r := by
      unfold complete
      rw [hpending]
    have hstep : r.step word = .ok { r with args := r.args ++ [word] } := by
      unfold step addWord
      rw [hplain, if_pos rfl, hcomplete]
      show (if r.hasScript = true then Except.ok _ else _) = _
      rw [if_pos hscript]
    have hrest := @ih { r with args := r.args ++ [word] } hplain hpending hscript
    rw [List.foldlM_cons, hstep]
    refine hrest.trans ?_
    simp

/-- What has been read up to the script's file. -/
def Settings.behind (s : Settings) (script : String) : Reading :=
  { s.reading with pending := some (.script script) }

/-- A word that the program does not know is the first argument. -/
theorem argument_step {s : Settings} {script word : String} (hscript : script ≠ "")
    (hword : isOwn word = false) : (s.behind script).step word =
      .ok { s.reading with script := some script, args := [word], plain := true } := by
  have hadd : (s.behind script).addWord word =
      .ok { s.reading with script := some script, args := [word], plain := true } := by
    simp [addWord, Settings.behind, complete, hscript, hasScript, Settings.reading]
  have hvalue : (s.behind script).addValue word = (s.behind script).addWord word := rfl
  have hplain : (s.behind script).plain = false := rfl
  have hbehind : (s.behind script).hasScript = true := rfl
  cases shape word with
  | bare hbare => rw [step_bare hplain hbare, hvalue, hadd]
  | hyphens hhyphens =>
    unfold isOwn at hword
    rw [hhyphens] at hword
    cases hword
  | named c cs hnamed =>
    rw [isOwn_named hnamed, Option.isSome_eq_false_iff, Option.isNone_iff_eq_none] at hword
    rw [step_named hplain hnamed]
    unfold addNamed
    simp only [hword, hbehind, if_true]
    rw [hvalue, hadd]
  | letters c cs hletters hc =>
    rw [isOwn_letters hletters hc, Bool.not_eq_false'] at hword
    rw [step_letters hplain hletters hc, hbehind, hword, Bool.and_self, if_pos rfl, hvalue, hadd]

/-- A word of the program's own behind the script's file is no argument. -/
theorem own_step {s : Settings} {script word : String} {next : Reading}
    (hword : isOwn word = true) (hstep : (s.behind script).step word = .ok next) :
    next.args = [] := by
  have hplain : (s.behind script).plain = false := rfl
  have hbehind : (s.behind script).hasScript = true := rfl
  have hnone : (s.behind script).args = [] := rfl
  cases shape word with
  | bare hbare =>
    rw [isOwn_bare hbare] at hword
    cases hword
  | hyphens hhyphens =>
    rw [step_hyphens hplain hhyphens] at hstep
    cases hstep
    rfl
  | named c cs hnamed =>
    rw [isOwn_named hnamed] at hword
    rw [step_named hplain hnamed] at hstep
    exact addNamed_args hword hstep
  | letters c cs hletters hc =>
    rw [isOwn_letters hletters hc, Bool.not_eq_true'] at hword
    rw [step_letters hplain hletters hc, hbehind, hword, Bool.and_false,
      if_neg Bool.false_ne_true] at hstep
    exact addLetters_args hstep

/-! ## Command lines -/

/-- The environment completes what was read of settings. -/
theorem addEnvironment_eq {env : Environment} {s : Settings} (henv : env.Completes s)
    (script : String) (args : List String) (plain : Bool) :
    Reading.addEnvironment env { s.reading with script := some script, args, plain } =
      .ok { s.reading with
        script := some script
        args
        plain
        busSocket := s.busSocket.or env.busSocket
        reconnectInterval := s.reconnectInterval.or
          (env.reconnectInterval.bind fun v => (Word.read v.toList).toOption) } := by
  rw [addEnvironment_eq_bind]
  refine bind_eq_ok_iff.2 ⟨{ s.reading with
    script := some script
    args
    plain
    busSocket := s.busSocket.or env.busSocket }, ?_, ?_⟩
  · simp only [Settings.reading]
    cases hs : s.busSocket with
    | some socket => simp
    | none =>
      cases he : env.busSocket with
      | none => simp
      | some value =>
        have hvalue : value ≠ "" := fun heq => henv.1 hs (by rw [he, heq])
        simp [setBusSocket, hvalue]
  · simp only [Settings.reading]
    cases hs : s.reconnectInterval with
    | some n => simp
    | none =>
      cases he : env.reconnectInterval with
      | none => simp
      | some value =>
        rcases henv.2 hs value he with ⟨n, hn⟩
        simp [setReconnectInterval, hn, Except.toOption]

/-- What becomes of what was read when there are no more words. -/
def conclude (env : Environment) (r : Reading) : Except Refusal CommandLine := do
  let r ← r.complete
  let r ← r.addEnvironment env
  match r.script with
  | none => throw (.wrong .missingScript)
  | some script =>
    return {
      script
      args := r.args
      busSocket := r.busSocket.getD defaultBusSocket
      reconnectInterval := r.reconnectInterval.getD defaultReconnectInterval
      keepsChildren := r.keepsChildren
      verbose := r.verbose }

theorem read_eq (env : Environment) (words : List String) :
    read env words = words.foldlM step {} >>= conclude env := rfl

/-- What is read of a command line, after what stands before the words for the script. -/
theorem read_given {given : List Given} (hvalid : ∀ g ∈ given, g.Valid)
    (honce : (given.map Given.switch).Nodup) {script : String} (hbare : Bare script)
    (env : Environment) (rest : List String) :
    read env (given.flatMap Given.words ++ script :: rest) =
      rest.foldlM step ((Settings.of given).behind script) >>= conclude env := by
  have hnew : ∀ g ∈ given, ({} : Settings).has g.switch = false := by
    intro g _
    cases g <;> rfl
  rcases allGiven_foldlM (stands_reading {}) hvalid honce hnew with ⟨r, hgiven, hr⟩
  have hwords : (given.flatMap Given.words ++ script :: rest).foldlM step {} =
      rest.foldlM step ((Settings.of given).behind script) := by
    rw [List.foldlM_append]
    show (List.foldlM step (Settings.reading {}) _ >>= _) = _
    rw [hgiven]
    show (script :: rest).foldlM step r = _
    rw [List.foldlM_cons, script_step hr hbare]
    rfl
  rw [read_eq, hwords]

theorem conclude_eq {env : Environment} {s : Settings} (henv : env.Completes s)
    (script : String) (args : List String) (plain : Bool) :
    conclude env { s.reading with script := some script, args, plain } =
      .ok (s.commandLine env script args) := by
  show (Reading.addEnvironment env _ >>= _) = _
  rw [addEnvironment_eq henv]
  rfl

theorem conclude_args {env : Environment} {r : Reading} {c : CommandLine}
    (hread : conclude env r = .ok c) : c.args = r.args := by
  rcases bind_eq_ok_iff.1 hread with ⟨taken, htaken, hrest⟩
  rcases bind_eq_ok_iff.1 hrest with ⟨completed, hcompleted, hend⟩
  have hargs : completed.args = r.args := by
    rw [addEnvironment_args hcompleted, complete_args htaken]
  split at hend
  · cases hend
  · cases hend
    exact hargs

/-- Behind the program's own options, each given once, and the script's file, the words are the
arguments of the script, unchanged and in order, and the settings are those that were given - if the
first word is none that the program knows. Such a word the program takes for itself, and no command
line that it accepts then has these arguments. The arguments are what a script finds as its constant
`ARGV`. -/
theorem arguments_kept (env : Environment) (given : List Given) (script : String)
    (rest : List String) (hvalid : ∀ g ∈ given, g.Valid) (honce : (given.map Given.switch).Nodup)
    (henv : env.Completes (Settings.of given)) (hscript : script ≠ "" ∧ Bare script) :
    ((∀ w ∈ rest.head?, isOwn w = false) →
      read env (given.flatMap Given.words ++ script :: rest) =
        .ok ((Settings.of given).commandLine env script rest)) ∧
    ((∃ w ∈ rest.head?, isOwn w = true) → ∀ c,
      read env (given.flatMap Given.words ++ script :: rest) = .ok c →
        c.args.length < rest.length) ∧
    ∀ (c : CommandLine) (h : Host), h.config = c.config →
      h.withArguments.script.global? "ARGV" = some (.array (c.args.map .string)) := by
  rw [read_given hvalid honce hscript.2]
  refine ⟨?_, ?_, ?_⟩
  · intro hfirst
    cases rest with
    | nil =>
      have hcomplete : ((Settings.of given).behind script).complete =
          .ok { (Settings.of given).reading with script := some script } := by
        simp [Settings.behind, complete, hscript.1, Settings.reading]
      show conclude env ((Settings.of given).behind script) = _
      rw [← conclude_eq henv script [] false]
      unfold conclude
      rw [hcomplete]
      rfl
    | cons word rest =>
      rw [List.foldlM_cons, argument_step hscript.1 (hfirst word rfl)]
      show (rest.foldlM step _ >>= _) = _
      rw [plain_foldlM rfl rfl rfl]
      exact conclude_eq henv script _ true
  · rintro ⟨w, hw, hown⟩ c hread
    cases rest with
    | nil => cases hw
    | cons word rest =>
      cases hw
      rcases bind_eq_ok_iff.1 hread with ⟨r, hwords, hend⟩
      rw [List.foldlM_cons] at hwords
      rcases bind_eq_ok_iff.1 hwords with ⟨middle, hstep, hrest⟩
      have hlength := foldlM_length hrest
      rw [own_step hown hstep] at hlength
      rw [conclude_args hend, List.length_cons]
      simpa using Nat.lt_succ_of_le hlength
  · intro c h hconfig
    have hargs : h.config.args = c.args := congrArg HostConfig.args hconfig
    rw [← hargs]
    show List.lookup "ARGV" (h.script.globals ++ [_]).reverse = _
    simp

theorem arguments_kept_flag : isOwn "--flag" = false ∧
    read {} ["-v", "service.rhai", "--flag", "value"] = .ok {
      script := "service.rhai"
      args := ["--flag", "value"]
      busSocket := defaultBusSocket
      reconnectInterval := defaultReconnectInterval
      verbose := true } := by
  have hflag : isOwn "--flag" = false := by rfl
  have hvalid : ∀ g ∈ [Given.verbose true], g.Valid := by simp [Given.Valid]
  have hbare : Bare "service.rhai" := by
    intro c cs heq
    have hhead : some 's' = some '-' := congrArg List.head? heq
    exact absurd hhead (by decide)
  have hkept := arguments_kept {} [.verbose true] "service.rhai" ["--flag", "value"] hvalid
    (by simp) ⟨by simp, by simp⟩ ⟨by decide, hbare⟩
  refine ⟨hflag, hkept.1 ?_⟩
  rintro w hw
  cases hw
  exact hflag

/-- An option of the program's own right behind the script's file does not reach the script, nor
does a word `--` there. -/
theorem argument_taken :
    read {} ["service.rhai", "-v", "a"] = .ok {
      script := "service.rhai"
      args := ["a"]
      busSocket := defaultBusSocket
      reconnectInterval := defaultReconnectInterval
      verbose := true } ∧
    read {} ["service.rhai", "--", "a"] = .ok {
      script := "service.rhai"
      args := ["a"]
      busSocket := defaultBusSocket
      reconnectInterval := defaultReconnectInterval } ∧
    read {} ["service.rhai", "--help"] = .error .help := ⟨rfl, rfl, rfl⟩

end ScriptService.CommandLine
