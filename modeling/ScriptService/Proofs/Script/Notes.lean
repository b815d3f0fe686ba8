import ScriptService.Proofs.Script.Related

/-!
# Notes on script code

What a host sees of the script code that it runs are the calls of its functions. A host that notes
them beside its state runs the same code in the same way, so what code notes is well defined, and an
invariant of state and notes that every call keeps is kept by all script code.

Main statements: `Code.keeps_scripted` and `Code.keeps`.
-/

namespace ScriptService

variable {σ ν α : Type}

/-- A host that keeps notes beside its state, latest first; `seen` says what is noted of a call. -/
def Natives.noting (natives : Natives σ) (seen : String → List Value → σ → List ν) :
    Natives (σ × List ν) where
  invoke name args p :=
    (natives.invoke name args p.1).map fun (result, s) => (result, s, seen name args p.1 ++ p.2)
  note e p := (natives.note e p.1, p.2)
  held p := natives.held p.1

namespace Code

/-- Code that uses nothing of its host but its functions. -/
def Parametric (code : Code α) : Prop :=
  ∀ {σ τ : Type} {R : σ → τ → Prop} {natives : Natives σ} {others : Natives τ},
    Natives.Related R natives others → Run.Related R (code σ natives) (code τ others)

/-- What is noted while code runs, latest first. -/
def notes (code : Code α) (natives : Natives σ) (seen : String → List Value → σ → List ν)
    (m : Machine σ) : List ν :=
  ((code (σ × List ν) (natives.noting seen)).run.run ⟨m.script, m.host, []⟩).2.host.2

/-- Code keeps what all functions of the host and the events of scripts keep. -/
theorem keeps_scripted {code : Code α} (hcode : code.Parametric) {natives : Natives σ}
    {seen : String → List Value → σ → List ν} (inv : σ → List ν → Prop)
    (hinvoke : ∀ name args s h result s', inv s h →
      natives.invoke name args s = some (result, s') → inv s' (seen name args s ++ h))
    (hnote : ∀ e s h, e.isScripted = true → inv s h → inv (natives.note e s) h) {m : Machine σ}
    {past : List ν} (hm : inv m.host past) :
    inv ((code σ natives).run.run m).2.host (code.notes natives seen m ++ past) := by
  -- The host with notes is the host itself, and the invariant holds of its notes.
  have hrelated : Natives.Related (fun (p : σ × List ν) s => p.1 = s ∧ inv s (p.2 ++ past))
      (natives.noting seen) natives := by
    constructor
    · rintro name args ⟨s, h⟩ t ⟨rfl, hs⟩
      cases hresult : natives.invoke name args s with
      | none =>
        left
        exact ⟨by simp [Natives.noting, hresult], rfl⟩
      | some p =>
        right
        have hnext := hinvoke name args s _ p.1 p.2 hs hresult
        rw [← List.append_assoc] at hnext
        exact ⟨p.1, (p.2, seen name args s ++ h), p.2, by simp [Natives.noting, hresult], rfl, rfl,
          hnext⟩
    · rintro e ⟨s, h⟩ t he ⟨rfl, hs⟩
      exact ⟨rfl, hnote e s _ he hs⟩
    · rintro ⟨s, h⟩ t ⟨rfl, hs⟩
      rfl
  -- Related hosts are related after the code, too.
  have hrun := (hcode hrelated ⟨m.script, m.host, []⟩ m ⟨rfl, rfl, hm⟩).2.host
  exact hrun.2

/-- Code keeps what all functions of the host keep. -/
theorem keeps {code : Code α} (hcode : code.Parametric) {natives : Natives σ}
    {seen : String → List Value → σ → List ν} (inv : σ → List ν → Prop)
    (hinvoke : ∀ name args s h result s', inv s h →
      natives.invoke name args s = some (result, s') → inv s' (seen name args s ++ h))
    (hnote : ∀ e s h, inv s h → inv (natives.note e s) h) {m : Machine σ} {past : List ν}
    (hm : inv m.host past) :
    inv ((code σ natives).run.run m).2.host (code.notes natives seen m ++ past) :=
  keeps_scripted hcode inv hinvoke (fun e s h _ hs => hnote e s h hs) hm

/-- What every function of the host keeps is kept by code. -/
theorem preserves {code : Code α} (hcode : code.Parametric) {natives : Natives σ} (P : σ → Prop)
    (hinvoke : ∀ name args s result s', P s → natives.invoke name args s = some (result, s') → P s')
    (hnote : ∀ e s, e.isScripted = true → P s → P (natives.note e s)) {m : Machine σ}
    (hm : P m.host) : P ((code σ natives).run.run m).2.host := by
  have hsilent : ∀ name args s (h : List Unit) result s', P s →
      natives.invoke name args s = some (result, s') → P s' :=
    fun name args s _ result s' hs heq => hinvoke name args s result s' hs heq
  have hnotes : ∀ e s (h : List Unit), e.isScripted = true → P s → P (natives.note e s) :=
    fun e s _ he hs => hnote e s he hs
  exact @keeps_scripted _ _ _ _ hcode _ (fun _ _ _ => []) (fun s _ => P s) hsilent hnotes _ [] hm

/-- What code notes is what is noted of the calls that it makes. -/
theorem mem_notes {code : Code α} (hcode : code.Parametric) {natives : Natives σ}
    {seen : String → List Value → σ → List ν} {P : ν → Prop}
    (hseen : ∀ name args s, ∀ n ∈ seen name args s, P n) {m : Machine σ} :
    ∀ n ∈ code.notes natives seen m, P n := by
  have hinvoke : ∀ name args s h result s', (∀ n ∈ h, P n) →
      natives.invoke name args s = some (result, s') → ∀ n ∈ seen name args s ++ h, P n := by
    intro name args s h result s' hold _ n hn
    rcases List.mem_append.1 hn with hn | hn
    · exact hseen name args s n hn
    · exact hold n hn
  have hnone : ∀ n ∈ ([] : List ν), P n := by simp
  have hall : ∀ n ∈ code.notes natives seen m ++ [], P n :=
    keeps hcode (fun _ h => ∀ n ∈ h, P n) hinvoke (fun _ _ _ hold => hold) hnone
  rwa [List.append_nil] at hall

end Code

namespace Interpreter

theorem parametric_callBack (held : List Value) (f : Callback) (args : List Value) :
    Code.Parametric fun _ natives => callBack natives held f args :=
  fun hnatives => callBack_related hnatives held f args

theorem parametric_runTop : Code.Parametric fun _ natives => runTop natives :=
  fun hnatives => runTop_related hnatives

end Interpreter
end ScriptService
