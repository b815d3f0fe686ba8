import Mathlib.Data.List.Nodup
import Mathlib.Data.List.Range

/-!
# Histories

A run takes a system through a list of acts. What an observer notes on the way is the history of
the run; it is kept with the latest note first, so that what a note says about the past is a
function of the rest of the list.
-/

namespace ScriptService

/-- A system under observation: what an act makes of a state, and what is noted of it, latest
first. -/
structure Observed (σ α ν : Type) where
  act : σ → α → σ
  notes : σ → α → List ν

namespace Observed

variable {σ α ν : Type} (sys : Observed σ α ν)

/-- The state and the history after one more act. -/
def after (p : σ × List ν) (a : α) : σ × List ν := (sys.act p.1 a, sys.notes p.1 a ++ p.2)

/-- The state and the history after a list of acts. -/
def run (s : σ) (acts : List α) : σ × List ν := acts.foldl sys.after (s, [])

theorem run_append_singleton (s : σ) (acts : List α) (a : α) :
    sys.run s (acts ++ [a]) = sys.after (sys.run s acts) a := by
  simp [run, List.foldl_append]

/-- A run goes on from where an earlier one ended. -/
theorem run_append (s : σ) (acts more : List α) :
    sys.run s (acts ++ more) =
      ((sys.run (sys.run s acts).1 more).1,
        (sys.run (sys.run s acts).1 more).2 ++ (sys.run s acts).2) := by
  induction more using List.reverseRecOn with
  | nil => simp [run]
  | append_singleton more a ih =>
    rw [← List.append_assoc, run_append_singleton, run_append_singleton, ih]
    simp [after]

theorem run_singleton (s : σ) (a : α) : sys.run s [a] = (sys.act s a, sys.notes s a) := by
  simp [run, after]

/-- Invariant induction over runs in which each act is allowed when it comes: what holds of a state
and the history so far, and is kept by every act that is allowed there, holds after every run. -/
theorem run_invariant_along {inv : σ → List ν → Prop} {ok : List ν → α → Prop} {s : σ}
    {past : List ν} (hinit : inv s past)
    (hstep : ∀ s h a, ok h a → inv s h → inv (sys.act s a) (sys.notes s a ++ h)) {acts : List α}
    (hacts : ∀ before a, before ++ [a] <+: acts → ok ((sys.run s before).2 ++ past) a) :
    inv (sys.run s acts).1 ((sys.run s acts).2 ++ past) := by
  induction acts using List.reverseRecOn with
  | nil => exact hinit
  | append_singleton acts a ih =>
    have hbefore : ∀ before b, before ++ [b] <+: acts → ok ((sys.run s before).2 ++ past) b :=
      fun before b hb => hacts before b (hb.trans (List.prefix_append acts [a]))
    rw [run_append_singleton, after, List.append_assoc]
    exact hstep _ _ a (hacts acts a (List.prefix_refl _)) (ih hbefore)

/-- Invariant induction over runs of acts that are all allowed. -/
theorem run_invariant_from {inv : σ → List ν → Prop} {ok : α → Prop} {s : σ} {past : List ν}
    (hinit : inv s past)
    (hstep : ∀ s h a, ok a → inv s h → inv (sys.act s a) (sys.notes s a ++ h)) {acts : List α}
    (hacts : ∀ a ∈ acts, ok a) : inv (sys.run s acts).1 ((sys.run s acts).2 ++ past) :=
  sys.run_invariant_along hinit (fun s h a => hstep s h a)
    fun _ a hbefore => hacts a (hbefore.mem (by simp))

/-- Invariant induction over all runs from the start. -/
theorem run_invariant {inv : σ → List ν → Prop} {s : σ} (hinit : inv s [])
    (hstep : ∀ s h a, inv s h → inv (sys.act s a) (sys.notes s a ++ h)) (acts : List α) :
    inv (sys.run s acts).1 (sys.run s acts).2 := by
  have hall : ∀ a ∈ acts, True := fun _ _ => trivial
  have hrun := sys.run_invariant_from hinit (fun s h a (_ : True) => hstep s h a) hall
  rwa [List.append_nil] at hrun

/-- Simulation: a system goes the way of a plainer one, and is noted the same, if each of its acts
does. -/
theorem run_simulates {τ : Type} {plain : Observed τ α ν} {f : σ → τ} {inv : σ → Prop} {s : σ}
    (hinit : inv s)
    (hstep : ∀ s a, inv s → inv (sys.act s a) ∧ plain.act (f s) a = f (sys.act s a) ∧
      plain.notes (f s) a = sys.notes s a) (acts : List α) :
    inv (sys.run s acts).1 ∧ plain.run (f s) acts = (f (sys.run s acts).1, (sys.run s acts).2) := by
  induction acts using List.reverseRecOn with
  | nil => exact ⟨hinit, rfl⟩
  | append_singleton acts a ih =>
    rcases ih with ⟨hinv, hrun⟩
    rcases hstep _ a hinv with ⟨hnext, hact, hnotes⟩
    rw [run_append_singleton, run_append_singleton, hrun]
    refine ⟨hnext, ?_⟩
    rw [after, after, hact, hnotes]

/-- Two systems of the same acts go the same way, whatever is noted of it. -/
theorem run_fst_eq {μ : Type} {sys : Observed σ α ν} {other : Observed σ α μ}
    (hact : sys.act = other.act) (s : σ) (acts : List α) :
    (sys.run s acts).1 = (other.run s acts).1 := by
  induction acts using List.reverseRecOn with
  | nil => rfl
  | append_singleton acts a ih =>
    rw [sys.run_append_singleton, other.run_append_singleton, after, after]
    simp only [ih, hact]

end Observed

/-- What holds of every note and what was noted before it. -/
def Throughout {ν : Type} (P : ν → List ν → Prop) (h : List ν) : Prop :=
  ∀ n past, n :: past <:+ h → P n past

section

variable {ν : Type} {P : ν → List ν → Prop} {h : List ν}

theorem throughout_nil : Throughout P [] := by
  intro n past hpast
  simp at hpast

theorem throughout_cons {n : ν} : Throughout P (n :: h) ↔ P n h ∧ Throughout P h := by
  constructor
  · intro hall
    exact ⟨hall n h (List.suffix_refl _),
      fun m past hpast => hall m past (hpast.trans (List.suffix_cons n h))⟩
  · rintro ⟨hn, hall⟩ m past hpast
    rcases List.suffix_cons_iff.1 hpast with heq | hpast
    · cases heq
      exact hn
    · exact hall m past hpast

end

/-! ## Numbers given out in turn -/

/-- The numbers that a counter of 32 bits gives out, in order. -/
def numbersGiven (n : Nat) : List UInt32 := (List.range n).map UInt32.ofNat

theorem numbersGiven_succ (n : Nat) :
    numbersGiven (n + 1) = numbersGiven n ++ [UInt32.ofNat n] := by
  simp [numbersGiven, List.range_succ]

/-- The numbers that a counter gives out in one round tell apart what they are given to. -/
theorem nodup_drop_numbersGiven {m n : Nat} (h : n ≤ m + UInt32.size) :
    ((numbersGiven n).drop m).Nodup := by
  have hbounds : ∀ a ∈ (List.range n).drop m, m ≤ a ∧ a < n := by
    intro a ha
    obtain ⟨i, hi, rfl⟩ := List.mem_drop_iff_getElem.1 ha
    simp only [List.length_range] at hi
    simp only [List.getElem_range]
    omega
  rw [numbersGiven, ← List.map_drop]
  refine List.Nodup.map_on ?_ (List.nodup_range.sublist (List.drop_sublist m _))
  intro a ha b hb hab
  have ha' := hbounds a ha
  have hb' := hbounds b hb
  have hmod : a % UInt32.size = b % UInt32.size := by
    have hnat : (UInt32.ofNat a).toNat = (UInt32.ofNat b).toNat := by rw [hab]
    rwa [UInt32.toNat_ofNat', UInt32.toNat_ofNat'] at hnat
  simp only [UInt32.size] at h hmod
  omega

/-- A counter that has not wrapped around gives out every number once. -/
theorem nodup_numbersGiven {n : Nat} (h : n ≤ UInt32.size) : (numbersGiven n).Nodup := by
  have hround : n ≤ 0 + UInt32.size := by rwa [Nat.zero_add]
  exact nodup_drop_numbersGiven hround

/-- The next number of a counter that has not wrapped around is a new one. -/
theorem not_mem_numbersGiven {n : Nat} (h : n < UInt32.size) : UInt32.ofNat n ∉ numbersGiven n := by
  have hnodup : (numbersGiven (n + 1)).Nodup := nodup_numbersGiven h
  rw [numbersGiven_succ, List.nodup_append] at hnodup
  intro hmem
  exact hnodup.2.2 _ hmem _ (List.mem_singleton_self _) rfl

/-! ## Keys -/

/-- The only element with its key. -/
theorem filter_key_eq {α κ : Type} [BEq κ] [LawfulBEq κ] {key : α → κ} {l : List α}
    (hkeys : (l.map key).Nodup) {a : α} (ha : a ∈ l) :
    l.filter (fun b => key b == key a) = [a] := by
  induction l with
  | nil => cases ha
  | cons b l ih =>
    rw [List.map_cons, List.nodup_cons] at hkeys
    rcases List.mem_cons.1 ha with rfl | ha
    · have hnone : l.filter (fun b => key b == key a) = [] := by
        rw [List.filter_eq_nil_iff]
        intro b hb hkey
        exact hkeys.1 (List.mem_map.2 ⟨b, hb, by simpa using hkey⟩)
      simp [hnone]
    · have hne : key b ≠ key a := fun hkey => hkeys.1 (List.mem_map.2 ⟨a, ha, hkey.symm⟩)
      simp [hne, ih hkeys.2 ha]

/-- Erasing the element with a key leaves those with other keys. -/
theorem eraseP_key_eq {α κ : Type} [BEq κ] [LawfulBEq κ] {key : α → κ} {l : List α}
    (hkeys : (l.map key).Nodup) (k : κ) :
    l.eraseP (fun a => key a == k) = l.filter fun a => key a != k := by
  induction l with
  | nil => rfl
  | cons a l ih =>
    rw [List.map_cons, List.nodup_cons] at hkeys
    by_cases hkey : key a = k
    · have hkeep : l.filter (fun b => key b != k) = l := by
        rw [List.filter_eq_self]
        intro b hb
        have hne : key b ≠ k := by
          intro hbk
          exact hkeys.1 (List.mem_map.2 ⟨b, hb, hbk.trans hkey.symm⟩)
        simpa using hne
      simp [hkey, hkeep]
    · simp [hkey, ih hkeys.2]

/-- What is found by a key among the elements that have not another one. -/
theorem find?_filter_key {α κ : Type} [BEq κ] [LawfulBEq κ] [DecidableEq κ] (key : α → κ)
    (l : List α) (k other : κ) :
    (l.filter fun a => key a != k).find? (fun a => key a == other) =
      if k = other then none else l.find? fun a => key a == other := by
  rw [List.find?_filter]
  by_cases hother : k = other
  · subst hother
    simp
  · rw [if_neg hother]
    congr 1
    funext a
    by_cases ha : key a = other
    · simp [ha, Ne.symm hother]
    · simp [ha]

end ScriptService
