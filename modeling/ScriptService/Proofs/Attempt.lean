import Mathlib.Data.List.Forall2

/-!
# Attempts that may fail

What is known of the parts of an attempt that succeeded, and which part decides the error of one
that failed.
-/

namespace ScriptService

variable {ε α β : Type}

theorem bind_eq_ok_iff {x : Except ε α} {f : α → Except ε β} {b : β} :
    (x >>= f) = .ok b ↔ ∃ a, x = .ok a ∧ f a = .ok b := by
  cases x with
  | error e => simp [bind, Except.bind]
  | ok a => simp [bind, Except.bind]

theorem bind_eq_error_iff {x : Except ε α} {f : α → Except ε β} {e : ε} :
    (x >>= f) = .error e ↔ x = .error e ∨ ∃ a, x = .ok a ∧ f a = .error e := by
  cases x with
  | error e' => simp [bind, Except.bind]
  | ok a => simp [bind, Except.bind]

/-- A list of attempts succeeds with one result for each of them. -/
theorem mapM_eq_ok_iff {f : α → Except ε β} {as : List α} {bs : List β} :
    as.mapM f = .ok bs ↔ List.Forall₂ (fun a b => f a = .ok b) as bs := by
  induction as generalizing bs with
  | nil => simp [pure, Except.pure, eq_comm]
  | cons a rest ih =>
    rw [List.mapM_cons]
    constructor
    · intro h
      obtain ⟨first, hfirst, h⟩ := bind_eq_ok_iff.1 h
      obtain ⟨more, hmore, h⟩ := bind_eq_ok_iff.1 h
      cases h
      exact .cons hfirst (ih.1 hmore)
    · intro h
      cases h with
      | cons hfirst hmore =>
        exact bind_eq_ok_iff.2 ⟨_, hfirst, bind_eq_ok_iff.2 ⟨_, ih.2 hmore, rfl⟩⟩

/-- A list of attempts fails with the error of the first one that fails. -/
theorem mapM_eq_error_iff {f : α → Except ε β} {as : List α} {e : ε} :
    as.mapM f = .error e ↔ ∃ before a after,
      as = before ++ a :: after ∧ (∀ b ∈ before, ∃ c, f b = .ok c) ∧ f a = .error e := by
  induction as with
  | nil => simp [pure, Except.pure]
  | cons a rest ih =>
    rw [List.mapM_cons]
    constructor
    · intro h
      rcases bind_eq_error_iff.1 h with hfirst | ⟨first, hfirst, h⟩
      · exact ⟨[], a, rest, rfl, by simp, hfirst⟩
      · rcases bind_eq_error_iff.1 h with hmore | ⟨more, hmore, h⟩
        · obtain ⟨before, a', after, rfl, hbefore, herror⟩ := ih.1 hmore
          refine ⟨a :: before, a', after, rfl, ?_, herror⟩
          intro b hb
          rcases List.mem_cons.1 hb with rfl | hb
          · exact ⟨first, hfirst⟩
          · exact hbefore b hb
        · cases h
    · rintro ⟨before, a', after, hsplit, hbefore, herror⟩
      cases before with
      | nil =>
        cases hsplit
        exact bind_eq_error_iff.2 (.inl herror)
      | cons b before =>
        cases hsplit
        obtain ⟨c, hc⟩ := hbefore a List.mem_cons_self
        have hrest := ih.2 ⟨before, a', after, rfl, fun b hb => hbefore b (.tail a hb), herror⟩
        exact bind_eq_error_iff.2 (.inr ⟨c, hc, bind_eq_error_iff.2 (.inl hrest)⟩)

/-- Every result of a list of attempts comes from one of them. -/
theorem exists_of_mapM_eq_ok {f : α → Except ε β} {as : List α} {bs : List β} {b : β}
    (h : as.mapM f = .ok bs) (hb : b ∈ bs) : ∃ a ∈ as, f a = .ok b := by
  induction as generalizing bs with
  | nil =>
    cases h
    cases hb
  | cons a rest ih =>
    rw [List.mapM_cons] at h
    obtain ⟨first, hfirst, h⟩ := bind_eq_ok_iff.1 h
    obtain ⟨more, hmore, h⟩ := bind_eq_ok_iff.1 h
    cases h
    rcases List.mem_cons.1 hb with rfl | hb
    · exact ⟨a, List.mem_cons_self, hfirst⟩
    · obtain ⟨a', ha', hfound⟩ := ih hmore hb
      exact ⟨a', List.mem_cons_of_mem a ha', hfound⟩

end ScriptService
