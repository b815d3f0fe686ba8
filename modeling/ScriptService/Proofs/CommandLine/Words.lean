import Mathlib.Data.List.TakeWhile
import ScriptService.CommandLine.Reader
import ScriptService.Proofs.Attempt

/-!
# The words of a command line

A word has one of four shapes: it is bare, two hyphens alone, a name behind two hyphens, or letters
behind one. Its shape says how it is read, and whichever it is, it becomes one argument of the
script at most.

Main statements: `CommandLine.shape`, `CommandLine.step_length` and `CommandLine.foldlM_length`.
-/

namespace ScriptService.CommandLine

open Reading

/-- A word that is never read as an option. -/
def Bare (word : String) : Prop := ∀ c cs, word.toList ≠ '-' :: c :: cs

/-- Whether the program takes a word for itself that stands right behind the script's file. -/
def isOwn (word : String) : Bool :=
  match word.toList with
  | ['-', '-'] => true
  | '-' :: '-' :: cs => (Switch.ofName? (splitValue cs).1).isSome
  | '-' :: c :: cs => (c :: cs).all fun c => (Switch.ofLetter? c).isSome
  | _ => false

/-! ## Shapes -/

theorem splitValue_joined {name : List Char} (value : List Char) (hname : '=' ∉ name) :
    splitValue (name ++ '=' :: value) = (String.ofList name, some (String.ofList value)) := by
  have hall : ∀ c ∈ name, (c != '=') = true := by
    intro c hc
    simpa using fun heq : c = '=' => hname (heq ▸ hc)
  unfold splitValue
  rw [List.takeWhile_append_of_pos hall, List.dropWhile_append_of_pos hall]
  simp

theorem splitValue_of_not_mem {name : List Char} (hname : '=' ∉ name) :
    splitValue name = (String.ofList name, none) := by
  have hall : ∀ c ∈ name, (c != '=') = true := by
    intro c hc
    simpa using fun heq : c = '=' => hname (heq ▸ hc)
  unfold splitValue
  rw [List.takeWhile_eq_self_iff.2 hall, List.dropWhile_eq_nil_iff.2 hall]

/-- The shapes that a word can have. -/
inductive Shape (word : String) : Prop where
  | bare (hword : Bare word)
  | hyphens (hword : word.toList = ['-', '-'])
  | named (c : Char) (cs : List Char) (hword : word.toList = '-' :: '-' :: c :: cs)
  | letters (c : Char) (cs : List Char) (hword : word.toList = '-' :: c :: cs) (hc : c ≠ '-')

theorem shape (word : String) : Shape word := by
  by_cases hbare : Bare word
  · exact .bare hbare
  · simp only [Bare, ne_eq, not_forall, not_not] at hbare
    rcases hbare with ⟨c, cs, hword⟩
    by_cases hc : c = '-'
    · subst hc
      cases cs with
      | nil => exact .hyphens hword
      | cons c cs => exact .named c cs hword
    · exact .letters c cs hword hc

section

variable {r : Reading} {word : String} {c : Char} {cs : List Char}

theorem step_bare (hplain : r.plain = false) (hword : Bare word) :
    r.step word = r.addValue word := by
  unfold step
  rw [hplain, if_neg Bool.false_ne_true]
  split
  · rename_i heq
    exact absurd heq (hword _ _)
  · rename_i heq
    exact absurd heq (hword _ _)
  · rename_i heq
    exact absurd heq (hword _ _)
  · rfl

theorem step_hyphens (hplain : r.plain = false) (hword : word.toList = ['-', '-']) :
    r.step word = .ok { r with plain := true } := by
  unfold step
  rw [hplain, if_neg Bool.false_ne_true, hword]
  rfl

theorem step_named (hplain : r.plain = false) (hword : word.toList = '-' :: '-' :: c :: cs) :
    r.step word = r.addNamed word (splitValue (c :: cs)).1 (splitValue (c :: cs)).2 := by
  unfold step
  rw [hplain, if_neg Bool.false_ne_true, hword]
  rfl

theorem step_letters (hplain : r.plain = false) (hword : word.toList = '-' :: c :: cs)
    (hc : c ≠ '-') : r.step word =
      if r.hasScript && (c :: cs).any fun c => (Switch.ofLetter? c).isNone then r.addValue word
      else r.addLetters (c :: cs) := by
  unfold step
  rw [hplain, if_neg Bool.false_ne_true, hword]
  split
  · rename_i heq
    exact absurd (List.cons.inj (List.cons.inj heq).2).1 hc
  · rename_i heq
    exact absurd (List.cons.inj (List.cons.inj heq).2).1 hc
  · rename_i heq
    cases heq
    rfl
  · rename_i hother
    exact absurd rfl (hother c cs)

theorem isOwn_bare (hword : Bare word) : isOwn word = false := by
  unfold isOwn
  split
  · rename_i heq
    exact absurd heq (hword _ _)
  · rename_i heq
    exact absurd heq (hword _ _)
  · rename_i heq
    exact absurd heq (hword _ _)
  · rfl

theorem isOwn_named (hword : word.toList = '-' :: '-' :: c :: cs) :
    isOwn word = (Switch.ofName? (splitValue (c :: cs)).1).isSome := by
  unfold isOwn
  rw [hword]
  rfl

theorem isOwn_letters (hword : word.toList = '-' :: c :: cs) (hc : c ≠ '-') :
    isOwn word = !(c :: cs).any fun c => (Switch.ofLetter? c).isNone := by
  have hall : ((c :: cs).all fun c => (Switch.ofLetter? c).isSome) =
      !(c :: cs).any fun c => (Switch.ofLetter? c).isNone := by
    rw [List.all_eq_not_any_not]
    simp only [Option.not_isSome]
  rw [← hall]
  unfold isOwn
  rw [hword]
  split
  · rename_i heq
    exact absurd (List.cons.inj (List.cons.inj heq).2).1 hc
  · rename_i heq
    exact absurd (List.cons.inj (List.cons.inj heq).2).1 hc
  · rename_i heq
    cases heq
    rfl
  · rename_i hother
    exact absurd rfl (hother c cs)

end

/-- A value that is taken over says nothing of the script. -/
theorem setValue_frame {r next : Reading} {o : Switch} {value : String}
    (hset : r.setValue o value = .ok next) :
    next.script = r.script ∧ next.args = r.args ∧ next.plain = r.plain := by
  cases o with
  | busSocket =>
    simp only [setValue, setBusSocket, wrong] at hset
    split at hset
    · cases hset
    · split at hset
      · cases hset
      · cases hset
        exact ⟨rfl, rfl, rfl⟩
  | reconnectInterval =>
    simp only [setValue, setReconnectInterval, wrong] at hset
    split at hset
    · cases hset
    · split at hset
      · cases hset
        exact ⟨rfl, rfl, rfl⟩
      · cases hset
  | _ =>
    cases hset
    exact ⟨rfl, rfl, rfl⟩

/-! ## What is read at most -/

theorem complete_args {r next : Reading} (hcomplete : r.complete = .ok next) :
    next.args = r.args := by
  unfold complete at hcomplete
  split at hcomplete
  · cases hcomplete
    rfl
  · split at hcomplete
    · cases hcomplete
    · cases hcomplete
      rfl
  · cases hcomplete
  · exact (setValue_frame hcomplete).2.1

theorem setFlag_args {r next : Reading} {o : Switch} (hset : r.setFlag o = .ok next) :
    next.args = r.args := by
  rcases bind_eq_ok_iff.1 hset with ⟨taken, htaken, hflag⟩
  have hargs := complete_args htaken
  cases o with
  | keepChildren => 
    simp only at hflag
    split at hflag
    · cases hflag
    · cases hflag
      exact hargs
  | verbose =>
    simp only at hflag
    split at hflag
    · cases hflag
    · cases hflag
      exact hargs
  | help => cases hflag
  | version => cases hflag
  | _ =>
    cases hflag
    exact hargs

theorem addLetters_args {r next : Reading} {cs : List Char} (hadd : r.addLetters cs = .ok next) :
    next.args = r.args := by
  induction cs generalizing r with
  | nil =>
    cases hadd
    rfl
  | cons c cs ih =>
    unfold addLetters at hadd
    split at hadd
    · rcases bind_eq_ok_iff.1 hadd with ⟨taken, htaken, hrest⟩
      rw [ih hrest, setFlag_args htaken]
    · cases hadd

/-- A word is at most one argument. -/
theorem addWord_length {r next : Reading} {word : String} (hadd : r.addWord word = .ok next) :
    next.args.length ≤ r.args.length + 1 := by
  rcases bind_eq_ok_iff.1 hadd with ⟨taken, htaken, hword⟩
  have hargs := complete_args htaken
  split at hword
  · cases hword
    simp [hargs]
  · cases hword
    simp [hargs]

theorem addValue_length {r next : Reading} {word : String} (hadd : r.addValue word = .ok next) :
    next.args.length ≤ r.args.length + 1 := by
  unfold addValue at hadd
  split at hadd
  · cases hadd
    exact Nat.le_succ _
  · exact addWord_length hadd

/-- A word that names an option is no argument. -/
theorem addNamed_args {r next : Reading} {word name : String} {value : Option String}
    (hknown : (Switch.ofName? name).isSome = true) (hadd : r.addNamed word name value = .ok next) :
    next.args = r.args := by
  unfold addNamed at hadd
  split at hadd
  · split at hadd
    · rcases bind_eq_ok_iff.1 hadd with ⟨taken, htaken, hset⟩
      rw [(setValue_frame hset).2.1, complete_args htaken]
    · cases hadd
  · split at hadd
    · rcases bind_eq_ok_iff.1 hadd with ⟨taken, htaken, hset⟩
      have hargs := complete_args htaken
      cases hset
      exact hargs
    · exact setFlag_args hadd
  · rename_i hnone
    rw [hnone] at hknown
    cases hknown

theorem addNamed_length {r next : Reading} {word name : String} {value : Option String}
    (hadd : r.addNamed word name value = .ok next) : next.args.length ≤ r.args.length + 1 := by
  by_cases hknown : (Switch.ofName? name).isSome = true
  · rw [addNamed_args hknown hadd]
    exact Nat.le_succ _
  · rw [Bool.not_eq_true, Option.isSome_eq_false_iff, Option.isNone_iff_eq_none] at hknown
    unfold addNamed at hadd
    simp only [hknown] at hadd
    split at hadd
    · exact addValue_length hadd
    · cases hadd

theorem step_length {r next : Reading} {word : String} (hstep : r.step word = .ok next) :
    next.args.length ≤ r.args.length + 1 := by
  by_cases hplain : r.plain = true
  · unfold step at hstep
    rw [if_pos hplain] at hstep
    exact addWord_length hstep
  · rw [Bool.not_eq_true] at hplain
    cases shape word with
    | bare hword =>
      rw [step_bare hplain hword] at hstep
      exact addValue_length hstep
    | hyphens hword =>
      rw [step_hyphens hplain hword] at hstep
      cases hstep
      exact Nat.le_succ _
    | named c cs hword =>
      rw [step_named hplain hword] at hstep
      exact addNamed_length hstep
    | letters c cs hword hc =>
      rw [step_letters hplain hword hc] at hstep
      split at hstep
      · exact addValue_length hstep
      · rw [addLetters_args hstep]
        exact Nat.le_succ _

theorem foldlM_length {r next : Reading} {words : List String}
    (hwords : words.foldlM step r = .ok next) : next.args.length ≤ r.args.length + words.length := by
  induction words generalizing r with
  | nil =>
    cases hwords
    exact Nat.le_refl _
  | cons word words ih =>
    rw [List.foldlM_cons] at hwords
    rcases bind_eq_ok_iff.1 hwords with ⟨middle, hstep, hrest⟩
    have hfirst := step_length hstep
    have hlater := ih hrest
    rw [List.length_cons]
    omega

/-- The two settings are taken from the environment one after the other. -/
theorem addEnvironment_eq_bind (env : Environment) (r : Reading) : r.addEnvironment env =
    (match r.busSocket, env.busSocket with
      | none, some value => r.setBusSocket value
      | _, _ => .ok r) >>= fun r =>
        match r.reconnectInterval, env.reconnectInterval with
        | none, some value => r.setReconnectInterval value
        | _, _ => .ok r := by
  unfold Reading.addEnvironment
  cases r.busSocket with
  | none =>
    cases env.busSocket with
    | none => rfl
    | some value => rfl
  | some socket => rfl

/-- What the environment says is no argument. -/
theorem addEnvironment_args {env : Environment} {r next : Reading}
    (hadd : r.addEnvironment env = .ok next) : next.args = r.args := by
  rw [addEnvironment_eq_bind] at hadd
  rcases bind_eq_ok_iff.1 hadd with ⟨middle, hfirst, hsecond⟩
  have hmiddle : middle.args = r.args := by
    split at hfirst
    · unfold setBusSocket wrong at hfirst
      split at hfirst
      · cases hfirst
      · cases hfirst
        rfl
    · cases hfirst
      rfl
  rw [← hmiddle]
  split at hsecond
  · unfold setReconnectInterval wrong at hsecond
    split at hsecond
    · cases hsecond
      rfl
    · cases hsecond
  · cases hsecond
    rfl

end ScriptService.CommandLine
