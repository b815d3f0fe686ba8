import Mathlib.Algebra.Order.Ring.Nat
import Mathlib.Tactic.Ring
import ScriptService.Number.Double

/-!
# The range of rounded quotients

Rounding moves a quotient by less than a power of two or so, so quotients and numbers can be bounded
by powers of two and stay bounded through a few roundings. The bounds are generous: what they are
for is that a number well below the greatest one does not become infinite.

Main statements: `Double.atMost_ofRatio` and `Double.atMost_div`.
-/

namespace ScriptService.Double

/-! ## Magnitudes -/

theorem magnitude_ofMagnitude (negative : Bool) {m : Nat} (h : m < signBit) :
    (ofMagnitude negative m).magnitude = m := by
  have hsign : signBit = 2 ^ 63 := rfl
  have hsum : m + (if negative then signBit else 0) < 2 ^ 64 := by
    split
    all_goals omega
  have hbits : (ofMagnitude negative m).bits.toNat = m + if negative then signBit else 0 :=
    UInt64.toNat_ofNat_of_lt' hsum
  rw [magnitude, hbits]
  split
  · rw [Nat.add_mod_right, Nat.mod_eq_of_lt h]
  · exact Nat.mod_eq_of_lt h

theorem isFinite_neg (x : Double) : x.neg.isFinite = x.isFinite := by
  have hbelow : x.magnitude < signBit := Nat.mod_lt _ (by decide)
  rw [isFinite, neg, magnitude_ofMagnitude _ hbelow, isFinite]

/-- A magnitude of at most about `2 ^ k`. -/
def AtMost (k : Nat) (x : Double) : Prop := x.magnitude ≤ (k + 1023) * leadingBit

theorem AtMost.mono {k l : Nat} {x : Double} (h : AtMost k x) (hkl : k ≤ l) : AtMost l x :=
  h.trans (Nat.mul_le_mul_right _ (Nat.add_le_add_right hkl _))

theorem AtMost.isFinite {k : Nat} {x : Double} (h : AtMost k x) (hk : k < 1024) :
    x.isFinite = true := by
  have hlead : leadingBit = 4503599627370496 := rfl
  have hmagnitude : x.magnitude < infiniteMagnitude := by
    unfold AtMost at h
    unfold infiniteMagnitude
    rw [hlead] at h ⊢
    omega
  simpa [Double.isFinite] using hmagnitude

theorem AtMost.ratio_le {k : Nat} {x : Double} (h : AtMost k x) :
    x.ratio.1 ≤ 2 ^ (k + 1) * x.ratio.2 := by
  have hlead : leadingBit = 2 ^ 52 := rfl
  have hfraction : x.fractionField < 2 ^ 52 := Nat.mod_lt _ (by decide)
  have hfield : x.exponentField ≤ k + 1023 := by
    have hdiv : x.magnitude / leadingBit ≤ (k + 1023) * leadingBit / leadingBit :=
      Nat.div_le_div_right h
    rwa [Nat.mul_div_cancel _ (by decide)] at hdiv
  have hsignificand : x.significand ≤ 2 ^ 53 := by
    unfold significand
    split
    all_goals omega
  -- Above `2 ^ 52` the significand is shifted up, else the place of its last digit is a fraction.
  have hexponent : 53 + x.scale.toNat ≤ k + 1 + (-x.scale).toNat := by
    unfold scale
    split
    all_goals omega
  calc x.significand * 2 ^ x.scale.toNat
      ≤ 2 ^ 53 * 2 ^ x.scale.toNat := Nat.mul_le_mul_right _ hsignificand
    _ = 2 ^ (53 + x.scale.toNat) := (pow_add 2 53 _).symm
    _ ≤ 2 ^ (k + 1 + (-x.scale).toNat) := Nat.pow_le_pow_right (by omega) hexponent
    _ = 2 ^ (k + 1) * 2 ^ (-x.scale).toNat := pow_add 2 _ _

/-! ## Rounding -/

theorem roundQuotient_le {num den c : Nat} (h : num ≤ c * den) : roundQuotient num den ≤ c := by
  have hquotient : num / den ≤ c := Nat.div_le_of_le_mul (by rwa [Nat.mul_comm])
  have hsplit := Nat.div_add_mod num den
  rcases Nat.lt_or_eq_of_le hquotient with hlt | heq
  · unfold roundQuotient
    simp only
    split
    · omega
    · split
      all_goals omega
  · -- The quotient is as great as it can be, so nothing is left to round up.
    have hrest : num % den = 0 := by
      rw [heq, Nat.mul_comm] at hsplit
      omega
    unfold roundQuotient
    simp only [heq, hrest]
    split
    · exact Nat.le_refl c
    · split
      · omega
      · have hnone : den = 0 := by omega
        subst hnone
        simp at heq
        omega

/-- The difference of the binary lengths, from which the spacing is found. -/
def lengthGap (num den : Nat) : Int := (num.log2 : Int) - den.log2

theorem spacing_bounds (num den : Nat) :
    lengthGap num den - 53 ≤ spacing num den ∧
      spacing num den ≤ max (lengthGap num den - 52) (-1074) := by
  unfold spacing lengthGap
  simp only
  split
  all_goals omega

theorem magnitude_ofRatio {num den : Nat} (hnum : num ≠ 0) (negative : Bool) :
    (ofRatio negative num den).magnitude =
      min ((spacing num den + 1074).toNat * leadingBit +
        roundQuotient (num * 2 ^ (-spacing num den).toNat) (den * 2 ^ (spacing num den).toNat))
        infiniteMagnitude := by
  rw [ofRatio, if_neg hnum]
  refine magnitude_ofMagnitude negative ?_
  have hinfinite : infiniteMagnitude < signBit := by decide
  omega

theorem magnitude_ofRatio_le (negative : Bool) (num den : Nat) :
    (ofRatio negative num den).magnitude ≤ infiniteMagnitude := by
  by_cases hnum : num = 0
  · rw [ofRatio, if_pos hnum, zero, magnitude_ofMagnitude negative (by decide)]
    exact Nat.zero_le _
  · rw [magnitude_ofRatio hnum]
    exact Nat.min_le_right _ _

/-- A quotient is at most two to the gap of the lengths, and one. -/
theorem num_le_den {num den : Nat} (hden : den ≠ 0) {a b : Nat}
    (h : lengthGap num den + 1 + b ≤ a) : num * 2 ^ b ≤ 2 ^ a * den := by
  have hupper : num < 2 ^ (num.log2 + 1) := Nat.lt_log2_self
  have hlower : 2 ^ den.log2 ≤ den := Nat.log2_self_le hden
  unfold lengthGap at h
  calc num * 2 ^ b
      ≤ 2 ^ (num.log2 + 1) * 2 ^ b := Nat.mul_le_mul_right _ hupper.le
    _ = 2 ^ (num.log2 + 1 + b) := (pow_add 2 _ _).symm
    _ ≤ 2 ^ (a + den.log2) := Nat.pow_le_pow_right (by omega) (by omega)
    _ = 2 ^ a * 2 ^ den.log2 := pow_add 2 _ _
    _ ≤ 2 ^ a * den := Nat.mul_le_mul_left _ hlower

/-- A quotient of at most `2 ^ k` stays below about `2 ^ (k + 3)` when it is rounded. -/
theorem atMost_ofRatio (negative : Bool) {num den k : Nat} (hden : den ≠ 0)
    (h : num ≤ 2 ^ k * den) : AtMost (k + 3) (ofRatio negative num den) := by
  by_cases hnum : num = 0
  · rw [AtMost, ofRatio, if_pos hnum, zero, magnitude_ofMagnitude negative (by decide)]
    exact Nat.zero_le _
  have hgap : lengthGap num den ≤ k := by
    have hlower : 2 ^ num.log2 ≤ num := Nat.log2_self_le hnum
    have hupper : den < 2 ^ (den.log2 + 1) := Nat.lt_log2_self
    have hlt : 2 ^ num.log2 < 2 ^ (k + (den.log2 + 1)) := by
      rw [pow_add]
      exact (hlower.trans h).trans_lt (Nat.mul_lt_mul_of_pos_left hupper (Nat.two_pow_pos k))
    have hlog := (Nat.pow_lt_pow_iff_right (by omega : 1 < 2)).1 hlt
    unfold lengthGap
    omega
  have hspacing := spacing_bounds num den
  -- Rounding to the spacing keeps at most one binary digit more than a significand has.
  have hround : roundQuotient (num * 2 ^ (-spacing num den).toNat)
      (den * 2 ^ (spacing num den).toNat) ≤ 2 ^ 54 := by
    refine roundQuotient_le ?_
    have hshifted : num * 2 ^ (-spacing num den).toNat ≤
        2 ^ (54 + (spacing num den).toNat) * den := num_le_den hden (by omega)
    calc num * 2 ^ (-spacing num den).toNat
        ≤ 2 ^ (54 + (spacing num den).toNat) * den := hshifted
      _ = 2 ^ 54 * (den * 2 ^ (spacing num den).toNat) := by ring
  have hplace : (spacing num den + 1074).toNat ≤ k + 1022 := by omega
  have hlead : leadingBit = 2 ^ 52 := rfl
  rw [AtMost, magnitude_ofRatio hnum]
  refine (Nat.min_le_left _ _).trans ?_
  calc (spacing num den + 1074).toNat * leadingBit + _
      ≤ (k + 1022) * leadingBit + 4 * leadingBit :=
        Nat.add_le_add (Nat.mul_le_mul_right _ hplace) (by omega)
    _ = (k + 3 + 1023) * leadingBit := by ring

/-- A quotient of at least one is rounded to at least about a quarter. -/
theorem le_magnitude_ofRatio (negative : Bool) {num den : Nat} (hden : den ≠ 0) (h : den ≤ num) :
    1021 * leadingBit ≤ (ofRatio negative num den).magnitude := by
  have hnum : num ≠ 0 := by omega
  have hgap : 0 ≤ lengthGap num den := by
    have hlower : 2 ^ den.log2 ≤ den := Nat.log2_self_le hden
    have hupper : num < 2 ^ (num.log2 + 1) := Nat.lt_log2_self
    have hlog := (Nat.pow_lt_pow_iff_right (by omega : 1 < 2)).1 ((hlower.trans h).trans_lt hupper)
    unfold lengthGap
    omega
  have hspacing := spacing_bounds num den
  have hplace : 1021 ≤ (spacing num den + 1074).toNat := by omega
  rw [magnitude_ofRatio hnum]
  refine Nat.le_min.2 ⟨?_, by decide⟩
  exact (Nat.mul_le_mul_right _ hplace).trans (Nat.le_add_right _ _)

/-! ## Division -/

theorem ratio_snd_ne_zero (x : Double) : x.ratio.2 ≠ 0 :=
  Nat.ne_of_gt (Nat.two_pow_pos (-x.scale).toNat)

/-- A divisor that is neither small nor no number. -/
def IsLarge (y : Double) : Prop :=
  1021 * leadingBit ≤ y.magnitude ∧ y.magnitude ≤ infiniteMagnitude

theorem isLarge_ofNat {n : Nat} (hn : 1 ≤ n) : IsLarge (ofNat n) :=
  ⟨le_magnitude_ofRatio false (by omega) hn, magnitude_ofRatio_le false n 1⟩

theorem IsLarge.le_ratio {y : Double} (h : IsLarge y) : y.ratio.2 ≤ 4 * y.ratio.1 := by
  have hfield : 1021 ≤ y.exponentField := (Nat.le_div_iff_mul_le (by decide)).2 h.1
  have hnormal : y.exponentField ≠ 0 := by omega
  have hlead : leadingBit = 2 ^ 52 := rfl
  have hsignificand : 2 ^ 52 ≤ y.significand := by
    rw [significand, if_neg hnormal]
    omega
  have hexponent : (-y.scale).toNat ≤ 54 + y.scale.toNat := by
    rw [scale, if_neg hnormal]
    omega
  calc 2 ^ (-y.scale).toNat
      ≤ 2 ^ (54 + y.scale.toNat) := Nat.pow_le_pow_right (by omega) hexponent
    _ = 4 * (2 ^ 52 * 2 ^ y.scale.toNat) := by ring
    _ ≤ 4 * (y.significand * 2 ^ y.scale.toNat) :=
      Nat.mul_le_mul_left _ (Nat.mul_le_mul_right _ hsignificand)

/-- Dividing by a number that is not small leaves a number about as bounded as it was. -/
theorem atMost_div {k : Nat} {x y : Double} (hx : AtMost k x) (hk : k < 1024) (hy : IsLarge y) :
    AtMost (k + 6) (x.div y) := by
  have hfinite : x.magnitude < infiniteMagnitude := by simpa [isFinite] using hx.isFinite hk
  have hnumber : x.isNaN = false := by
    simp only [isNaN, decide_eq_false_iff_not]
    omega
  have hbounded : x.isInfinite = false := by
    simp only [isInfinite, beq_eq_false_iff_ne]
    omega
  have hdivisor : y.isNaN = false := by
    have hle := hy.2
    simp only [isNaN, decide_eq_false_iff_not]
    omega
  have hnonzero : y.isZero = false := by
    have hle := hy.1
    have hlead : leadingBit = 2 ^ 52 := rfl
    simp only [isZero, beq_eq_false_iff_ne]
    omega
  unfold Double.div
  simp only [hnumber, hdivisor, hbounded, hnonzero, Bool.or_self, Bool.false_eq_true, if_false]
  split
  · -- What is divided by infinity is zero.
    rw [AtMost, zero, magnitude_ofMagnitude _ (by decide)]
    exact Nat.zero_le _
  · have hyratio : y.ratio.1 ≠ 0 := by
      have hle := hy.le_ratio
      have hne := ratio_snd_ne_zero y
      omega
    refine atMost_ofRatio _ (Nat.mul_ne_zero (ratio_snd_ne_zero x) hyratio) ?_
    calc x.ratio.1 * y.ratio.2
        ≤ (2 ^ (k + 1) * x.ratio.2) * (4 * y.ratio.1) := Nat.mul_le_mul hx.ratio_le hy.le_ratio
      _ = 2 ^ (k + 3) * (x.ratio.2 * y.ratio.1) := by ring

/-- An integer of 64 bits is a finite number. -/
theorem isFinite_ofInt {n : Int} (h : n.natAbs < 2 ^ 64) : (ofInt n).isFinite = true := by
  have hbound : (ofInt n).AtMost (64 + 3) := atMost_ofRatio _ (by omega) (by omega)
  exact hbound.isFinite (by omega)

end ScriptService.Double
