import ScriptService.Proofs.Json.Tokens

/-!
# Controls in JSON texts

No control stands in the text of a document: those in its strings are escaped, and a number has
none. So the text is a part of one line, whatever is in the document.

Main statement: `Json.printable_render`.
-/

namespace ScriptService.Json

/-- A text without ASCII's controls. -/
def Printable (cs : List Char) : Prop := ∀ c ∈ cs, 0x20 ≤ c.toNat

instance (cs : List Char) : Decidable (Printable cs) :=
  List.decidableBAll (fun c : Char => 0x20 ≤ c.toNat) cs

section

variable {c : Char} {cs ds : List Char}

theorem printable_nil : Printable [] := fun _ h => nomatch h

theorem printable_cons (hc : 0x20 ≤ c.toNat) (hcs : Printable cs) : Printable (c :: cs) := by
  intro d hd
  rcases List.mem_cons.1 hd with rfl | hd
  · exact hc
  · exact hcs d hd

theorem printable_append (hcs : Printable cs) (hds : Printable ds) : Printable (cs ++ ds) := by
  intro c hc
  rcases List.mem_append.1 hc with hc | hc
  · exact hcs c hc
  · exact hds c hc

/-- A printable text has no line end in it. -/
theorem Printable.not_mem (h : Printable cs) (hc : c.toNat < 0x20) : c ∉ cs := by
  intro hmem
  have hprintable := h c hmem
  omega

end

/-! ## Numbers -/

theorem printable_of_isNumeral {c : Char} (h : isNumeral c = true) : 0x20 ≤ c.toNat := by
  simp only [isNumeral, Bool.or_eq_true, beq_iff_eq] at h
  rcases h with ((((hdigit | rfl) | rfl) | rfl) | rfl) | rfl
  · unfold Digits.value? at hdigit
    split at hdigit
    · rename_i hrange
      have hzero : '0'.toNat ≤ c.toNat := Char.le_def.1 hrange.1
      have hvalue : '0'.toNat = 48 := rfl
      omega
    · cases hdigit
  all_goals decide

theorem printable_numeral {cs : List Char} (h : NumeralText cs) : Printable cs :=
  fun c hc => printable_of_isNumeral (h c hc)

theorem printable_renderReal (x : Double) : Printable (renderReal x) := by
  by_cases hx : x.isFinite = true
  · exact printable_numeral (numeralText_renderReal hx)
  · rw [renderReal, if_neg hx]
    decide

/-! ## Strings -/

/-- The digits of an escaped control. -/
theorem printable_unit (n : Nat) : Printable (Digits.padLeft 4 '0' (Digits.hex n)) := by
  have hdigit : ∀ d < 16, 0x20 ≤ (Digits.char d).toNat := by decide
  apply printable_append
  · intro c hc
    rw [(List.mem_replicate.1 hc).2]
    decide
  · intro c hc
    obtain ⟨d, hd, rfl⟩ := List.mem_map.1 hc
    exact hdigit d (Digits.lt_of_mem_inBase (by decide) hd)

theorem printable_escapeChar (c : Char) : Printable (escapeChar c) := by
  have hescape : ∀ d : Char, 0x20 ≤ d.toNat → Printable ['\\', d] := by
    intro d hd
    exact printable_cons (by decide) (printable_cons hd printable_nil)
  unfold escapeChar
  split_ifs with _ _ _ _ _ _ _ hcontrol
  all_goals try exact hescape _ (by decide)
  · apply printable_cons (by decide)
    apply printable_cons (by decide)
    exact printable_unit c.toNat
  · exact printable_cons (by omega) printable_nil

theorem printable_renderString (s : String) : Printable (renderString s) := by
  apply printable_append
  · apply printable_cons (by decide)
    intro c hc
    obtain ⟨d, -, hc⟩ := List.mem_flatMap.1 hc
    exact printable_escapeChar d c hc
  · exact printable_cons (by decide) printable_nil

/-! ## Documents -/

mutual
/-- The text of a document has no control in it. -/
theorem printable_render : ∀ j : Json, Printable (render j)
  | null => by
    rw [render]
    decide
  | bool true => by
    rw [render]
    decide
  | bool false => by
    rw [render]
    decide
  | int n => by
    rw [render]
    exact printable_numeral (numeralText_ofInt n)
  | real x => by
    rw [render]
    exact printable_renderReal x
  | string s => by
    rw [render]
    exact printable_renderString s
  | array [] => by
    rw [render]
    decide
  | array (j :: rest) => by
    rw [render]
    apply printable_append ?_ (printable_renderItems rest)
    exact printable_cons (by decide) (printable_render j)
  | object [] => by
    rw [render]
    decide
  | object ((name, j) :: rest) => by
    rw [render]
    apply printable_append ?_ (printable_renderMembers rest)
    apply printable_append (printable_cons (by decide) (printable_renderString name))
    exact printable_cons (by decide) (printable_render j)
  | unreadable => by
    rw [render]
    decide

theorem printable_renderItems : ∀ items : List Json, Printable (renderItems items)
  | [] => printable_cons (by decide) printable_nil
  | j :: rest => by
    rw [renderItems]
    apply printable_append ?_ (printable_renderItems rest)
    exact printable_cons (by decide) (printable_render j)

theorem printable_renderMembers :
    ∀ members : List (String × Json), Printable (renderMembers members)
  | [] => printable_cons (by decide) printable_nil
  | (name, j) :: rest => by
    rw [renderMembers]
    apply printable_append ?_ (printable_renderMembers rest)
    apply printable_append (printable_cons (by decide) (printable_renderString name))
    exact printable_cons (by decide) (printable_render j)
end

end ScriptService.Json
