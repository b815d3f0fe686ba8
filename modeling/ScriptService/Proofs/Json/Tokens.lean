import Mathlib.Data.List.Basic
import ScriptService.Json.Reader
import ScriptService.Json.Writer

/-!
# Tokens of JSON texts

What is written for a string or a number is read back, whatever stands behind it. A number ends
where no character of a numeral follows.

Main statements: `Json.readString_renderString`, `Json.readValue_int` and `Json.readValue_real`.
-/

namespace ScriptService

/-! ## Digits -/

namespace Digits

theorem lt_of_mem_inBase {base n d : Nat} (hbase : 2 ≤ base) (h : d ∈ inBase base n) :
    d < base := by
  fun_induction inBase base n with
  | case1 n hsmall =>
    obtain rfl := List.mem_singleton.1 h
    omega
  | case2 n hlarge ih =>
    rcases List.mem_append.1 h with hfront | hlast
    · exact ih hfront
    · obtain rfl := List.mem_singleton.1 hlast
      exact Nat.mod_lt n (by omega)

theorem inBase_ne_nil (base n : Nat) : inBase base n ≠ [] := by
  unfold inBase
  split
  · simp
  · simp

/-- Only zero begins with a zero. -/
theorem head?_inBase {base n : Nat} (hbase : 2 ≤ base) (hn : 0 < n) :
    (inBase base n).head? ≠ some 0 := by
  fun_induction inBase base n with
  | case1 n hsmall => simpa using Nat.ne_of_gt hn
  | case2 n hlarge ih =>
    have hrest : 0 < n / base := Nat.div_pos (by omega) (by omega)
    rw [List.head?_append_of_ne_nil _ (inBase_ne_nil base (n / base))]
    exact ih hrest

theorem value?_char : ∀ d < 10, value? (char d) = some d := by decide

end Digits

namespace Json

/-! ## Strings -/

/-- The element of a string literal that stands for a character as it is written. -/
def elementOf (c : Char) : Element :=
  if c.toNat < 0x20 ∧ c ≠ '\x08' ∧ c ≠ '\x0c' ∧ c ≠ '\n' ∧ c ≠ '\r' ∧ c ≠ '\t' then .unit c.toNat
  else .char c

/-- A control is written as a unit of four digits. -/
theorem hexUnit?_control {n : Nat} (h : n < 0x20) :
    ∃ a b c d, Digits.padLeft 4 '0' (Digits.hex n) = [a, b, c, d] ∧ hexUnit? a b c d = some n := by
  have hlow : ∀ m < 16, Digits.hexValue? (Digits.char m) = some m := by decide
  by_cases hone : n < 16
  · refine ⟨'0', '0', '0', Digits.char n, ?_, ?_⟩
    · have hdigits : Digits.inBase 16 n = [n] := by rw [Digits.inBase, if_pos (Or.inl hone)]
      simp [Digits.hex, hdigits, Digits.padLeft]
    · have hzero : Digits.hexValue? '0' = some 0 := rfl
      simp [hexUnit?, hzero, hlow n hone, Digits.toNat]
  · have htwo : ¬(n < 16 ∨ 16 < 2) := by omega
    have hdigits : Digits.inBase 16 n = [1, n - 16] := by
      have hfirst : n / 16 = 1 := by omega
      have hlast : n % 16 = n - 16 := by omega
      rw [Digits.inBase, if_neg htwo, hfirst, hlast, Digits.inBase, if_pos (by omega)]
      rfl
    refine ⟨'0', '0', Digits.char 1, Digits.char (n - 16), ?_, ?_⟩
    · simp [Digits.hex, hdigits, Digits.padLeft]
    · have hzero : Digits.hexValue? '0' = some 0 := rfl
      have hsum : 16 + (n - 16) = n := by omega
      simp [hexUnit?, hzero, hlow 1 (by omega), hlow (n - 16) (by omega), Digits.toNat, hsum]

/-- One written character is read as one element. -/
theorem readElements_escapeChar (c : Char) (r : List Char) :
    readElements (escapeChar c ++ r) = (readElements r).map fun p => (elementOf c :: p.1, p.2) := by
  have hmap : ∀ e : Element, ((readElements r).bind fun p => some (e :: p.1, p.2)) =
      (readElements r).map fun p => (e :: p.1, p.2) := by
    intro e
    cases readElements r with
    | none => rfl
    | some p => rfl
  unfold escapeChar elementOf
  by_cases hquote : c = '"'
  · subst hquote
    exact hmap (.char '"')
  by_cases hslash : c = '\\'
  · subst hslash
    exact hmap (.char '\\')
  by_cases hback : c = '\x08'
  · subst hback
    exact hmap (.char '\x08')
  by_cases hfeed : c = '\x0c'
  · subst hfeed
    exact hmap (.char '\x0c')
  by_cases hline : c = '\n'
  · subst hline
    exact hmap (.char '\n')
  by_cases hreturn : c = '\r'
  · subst hreturn
    exact hmap (.char '\r')
  by_cases htab : c = '\t'
  · subst htab
    exact hmap (.char '\t')
  simp only [hquote, hslash, hback, hfeed, hline, hreturn, htab, if_false, ne_eq,
    not_false_eq_true, and_true]
  by_cases hcontrol : c.toNat < 0x20
  · rcases hexUnit?_control hcontrol with ⟨x, y, z, w, htext, hvalue⟩
    simp only [hcontrol, if_true, htext, List.cons_append, List.nil_append, readElements, hvalue]
    exact hmap (.unit c.toNat)
  · simp only [hcontrol, if_false, List.singleton_append]
    rw [readElements]
    · rw [if_neg (by simp [hcontrol, hslash])]
      exact hmap (.char c)
    all_goals simp_all

theorem readElements_render (s r : List Char) :
    readElements (s.flatMap escapeChar ++ '"' :: r) = some (s.map elementOf, r) := by
  induction s with
  | nil => rfl
  | cons c s ih =>
    rw [List.flatMap_cons, List.append_assoc, readElements_escapeChar, ih]
    rfl

theorem assemble_map_elementOf (s : List Char) : assemble (s.map elementOf) = some s := by
  induction s with
  | nil => rfl
  | cons c s ih =>
    rw [List.map_cons]
    by_cases hcontrol : c.toNat < 0x20 ∧ c ≠ '\x08' ∧ c ≠ '\x0c' ∧ c ≠ '\n' ∧ c ≠ '\r' ∧ c ≠ '\t'
    · -- A control is no surrogate.
      have hlow : isLowSurrogate c.toNat = false := by
        simp only [isLowSurrogate, Bool.and_eq_false_iff, decide_eq_false_iff_not]
        omega
      have hhigh : isHighSurrogate c.toNat = false := by
        simp only [isHighSurrogate, Bool.and_eq_false_iff, decide_eq_false_iff_not]
        omega
      rw [elementOf, if_pos hcontrol, assemble.eq_def]
      simp [hlow, hhigh, ih]
    · rw [elementOf, if_neg hcontrol]
      simp [assemble, ih]

/-- The string that was written is the string that is read. -/
theorem readString_renderString (s : String) (r : List Char) :
    readString (s.toList.flatMap escapeChar ++ '"' :: r) = some (some s, r) := by
  simp [readString, readElements_render, assemble_map_elementOf]

/-! ## Numerals -/

/-- The characters of numerals. -/
def isNumeral (c : Char) : Bool :=
  (Digits.value? c).isSome || c == '-' || c == '+' || c == '.' || c == 'e' || c == 'E'

/-- No numeral goes on in a text. -/
def Ends (r : List Char) : Prop := ∀ c ∈ r.head?, isNumeral c = false

theorem ends_nil : Ends [] := fun c hc => by cases hc

theorem ends_cons {c : Char} (h : isNumeral c = false) (r : List Char) : Ends (c :: r) := by
  intro d hd
  cases hd
  exact h

namespace Numeral

section

variable {r : List Char}

theorem digits_ends (hr : Ends r) : digits r = ([], r) := by
  cases r with
  | nil => rfl
  | cons c r =>
    have hc := hr c rfl
    cases hvalue : Digits.value? c with
    | some d => simp [isNumeral, hvalue] at hc
    | none => rw [digits, hvalue]

theorem digits_append (hr : Ends r) (cs : List Char) :
    digits (cs ++ r) = ((digits cs).1, (digits cs).2 ++ r) := by
  induction cs with
  | nil => exact digits_ends hr
  | cons c cs ih =>
    rw [List.cons_append, digits, digits, ih]
    cases Digits.value? c <;> rfl

theorem digits1?_append (hr : Ends r) (cs : List Char) :
    digits1? (cs ++ r) = (digits1? cs).map fun p => (p.1, p.2 ++ r) := by
  unfold digits1?
  rw [digits_append hr]
  rcases digits cs with ⟨ds, rest⟩
  cases ds <;> rfl

/-- A text that begins with one of these does not end a numeral. -/
theorem ne_of_ends {c : Char} (hr : Ends (c :: r)) :
    c ≠ '-' ∧ c ≠ '+' ∧ c ≠ '.' ∧ c ≠ 'e' ∧ c ≠ 'E' := by
  have hc := hr c rfl
  refine ⟨?_, ?_, ?_, ?_, ?_⟩
  all_goals
    rintro rfl
    simp [isNumeral] at hc

theorem readFraction_append (hr : Ends r) (cs : List Char) :
    readFraction (cs ++ r) = (readFraction cs).map fun p => (p.1, p.2 ++ r) := by
  cases cs with
  | nil =>
    cases r with
    | nil => rfl
    | cons c r =>
      have hne := ne_of_ends hr
      simp [readFraction, hne]
  | cons c cs =>
    by_cases hpoint : c = '.'
    · subst hpoint
      exact digits1?_append hr cs
    · simp [readFraction, hpoint]

theorem readSigned_append (hr : Ends r) (cs : List Char) :
    readSigned (cs ++ r) = (readSigned cs).map fun p => (p.1, p.2 ++ r) := by
  cases cs with
  | nil =>
    have hnone : readSigned r = none := by
      have hdigits : digits1? r = none := by simp [digits1?, digits_ends hr]
      unfold readSigned
      split
      · exact absurd rfl (ne_of_ends hr).1
      · exact absurd rfl (ne_of_ends hr).2.1
      · rw [hdigits]
        rfl
    rw [List.nil_append, hnone]
    rfl
  | cons c cs =>
    have hdigits := digits1?_append hr cs
    by_cases hminus : c = '-'
    · subst hminus
      simp only [List.cons_append, readSigned, hdigits, Option.map_map]
      rfl
    by_cases hplus : c = '+'
    · subst hplus
      simp only [List.cons_append, readSigned, hdigits, Option.map_map]
      rfl
    have hall := digits1?_append hr (c :: cs)
    rw [List.cons_append] at hall
    simp [readSigned, hminus, hplus, hall, Function.comp_def]

theorem readExponent_append (hr : Ends r) (cs : List Char) :
    readExponent (cs ++ r) = (readExponent cs).map fun p => (p.1, p.2 ++ r) := by
  cases cs with
  | nil =>
    cases r with
    | nil => rfl
    | cons c r =>
      have hne := ne_of_ends hr
      simp [readExponent, hne]
  | cons c cs =>
    have hsigned := readSigned_append hr cs
    by_cases hlower : c = 'e'
    · subst hlower
      simp only [List.cons_append, readExponent, hsigned, Option.map_map]
      rfl
    by_cases hupper : c = 'E'
    · subst hupper
      simp only [List.cons_append, readExponent, hsigned, Option.map_map]
      rfl
    simp [readExponent, hlower, hupper]

theorem readUnsigned_append (hr : Ends r) (negative : Bool) (cs : List Char) :
    readUnsigned negative (cs ++ r) = (readUnsigned negative cs).map fun p => (p.1, p.2 ++ r) := by
  simp only [readUnsigned, digits1?_append hr]
  rcases digits1? cs with _ | ⟨whole, rest⟩
  · rfl
  simp only [Option.map_some, Option.bind_eq_bind, Option.bind_some]
  split
  · rfl
  rw [readFraction_append hr]
  rcases readFraction rest with _ | ⟨fraction, rest⟩
  · rfl
  simp only [Option.map_some, Option.bind_some]
  rw [readExponent_append hr]
  rcases readExponent rest with _ | ⟨exponent, rest⟩
  · rfl
  · rfl

/-- What ends a numeral is not looked at. -/
theorem read_append (hr : Ends r) (cs : List Char) :
    read (cs ++ r) = (read cs).map fun p => (p.1, p.2 ++ r) := by
  cases cs with
  | nil =>
    have hnone : read r = none := by
      have hdigits : digits1? r = none := by simp [digits1?, digits_ends hr]
      unfold read
      split
      · exact absurd rfl (ne_of_ends hr).1
      · simp [readUnsigned, hdigits]
    rw [List.nil_append, hnone]
    rfl
  | cons c cs =>
    by_cases hminus : c = '-'
    · subst hminus
      exact readUnsigned_append hr true cs
    · have hall := readUnsigned_append hr false (c :: cs)
      rw [List.cons_append] at hall
      simpa [read, hminus] using hall

end

/-! ### What is left over is an end of the text -/

theorem suffix_digits (cs : List Char) : (digits cs).2 <:+ cs := by
  induction cs with
  | nil => exact List.suffix_refl []
  | cons c cs ih =>
    rw [digits]
    cases Digits.value? c with
    | some d => exact ih.trans (List.suffix_cons c cs)
    | none => exact List.suffix_refl _

theorem suffix_of_digits1? {cs r : List Char} {ds : List Nat} (h : digits1? cs = some (ds, r)) :
    r <:+ cs := by
  have hsuffix := suffix_digits cs
  unfold digits1? at h
  split at h
  · cases h
  · rw [Option.some.inj h] at hsuffix
    exact hsuffix

theorem suffix_of_readFraction {cs r : List Char} {ds : List Nat}
    (h : readFraction cs = some (ds, r)) : r <:+ cs := by
  unfold readFraction at h
  split at h
  · exact (suffix_of_digits1? h).trans (List.suffix_cons _ _)
  · cases h
    exact List.suffix_refl _

theorem suffix_of_readSigned {cs r : List Char} {e : Int} (h : readSigned cs = some (e, r)) :
    r <:+ cs := by
  unfold readSigned at h
  split at h
  all_goals
    rcases Option.map_eq_some_iff.1 h with ⟨⟨ds, rest⟩, hdigits, heq⟩
    cases heq
  · exact (suffix_of_digits1? hdigits).trans (List.suffix_cons _ _)
  · exact (suffix_of_digits1? hdigits).trans (List.suffix_cons _ _)
  · exact suffix_of_digits1? hdigits

theorem suffix_of_readExponent {cs r : List Char} {e : Option Int}
    (h : readExponent cs = some (e, r)) : r <:+ cs := by
  unfold readExponent at h
  split at h
  · rcases Option.map_eq_some_iff.1 h with ⟨⟨i, rest⟩, hsigned, heq⟩
    cases heq
    exact (suffix_of_readSigned hsigned).trans (List.suffix_cons _ _)
  · rcases Option.map_eq_some_iff.1 h with ⟨⟨i, rest⟩, hsigned, heq⟩
    cases heq
    exact (suffix_of_readSigned hsigned).trans (List.suffix_cons _ _)
  · cases h
    exact List.suffix_refl _

theorem suffix_of_readUnsigned {negative : Bool} {cs r : List Char} {n : Numeral}
    (h : readUnsigned negative cs = some (n, r)) : r <:+ cs := by
  simp only [readUnsigned, Option.bind_eq_bind, Option.bind_eq_some_iff] at h
  rcases h with ⟨⟨whole, rest⟩, hwhole, h⟩
  split at h
  · simp at h
  simp only [Option.bind_eq_some_iff, Option.pure_def, Option.some.injEq, Prod.mk.injEq] at h
  rcases h with ⟨⟨fraction, more⟩, hfraction, ⟨exponent, left⟩, hexponent, -, rfl⟩
  exact ((suffix_of_readExponent hexponent).trans (suffix_of_readFraction hfraction)).trans
    (suffix_of_digits1? hwhole)

theorem suffix_of_read {cs r : List Char} {n : Numeral} (h : read cs = some (n, r)) : r <:+ cs := by
  unfold read at h
  split at h
  · exact (suffix_of_readUnsigned h).trans (List.suffix_cons _ _)
  · exact suffix_of_readUnsigned h

end Numeral

/-! ### Integers -/

/-- The decimal digits of a natural number are read as they were written. -/
theorem Numeral.digits_ofNat {r : List Char} (hr : Ends r) (n : Nat) :
    Numeral.digits (Digits.ofNat n ++ r) = (Digits.inBase 10 n, r) := by
  have hsmall : ∀ d ∈ Digits.inBase 10 n, d < 10 :=
    fun d hd => Digits.lt_of_mem_inBase (by omega) hd
  unfold Digits.ofNat
  generalize Digits.inBase 10 n = ds at hsmall
  induction ds with
  | nil => exact Numeral.digits_ends hr
  | cons d ds ih =>
    have hrest := ih fun e he => hsmall e (List.mem_cons_of_mem d he)
    rw [List.map_cons, List.cons_append, Numeral.digits,
      Digits.value?_char d (hsmall d List.mem_cons_self), hrest]

theorem Numeral.readUnsigned_ofNat {r : List Char} (hr : Ends r) (negative : Bool) (n : Nat) :
    Numeral.readUnsigned negative (Digits.ofNat n ++ r) =
      some (⟨negative, Digits.inBase 10 n, [], none⟩, r) := by
  have hdigits : Numeral.digits1? (Digits.ofNat n ++ r) = some (Digits.inBase 10 n, r) := by
    unfold Numeral.digits1?
    rw [Numeral.digits_ofNat hr]
    have hne := Digits.inBase_ne_nil 10 n
    cases hds : Digits.inBase 10 n with
    | nil => exact absurd hds hne
    | cons d ds => rfl
  -- Only the number zero begins with a zero.
  have hlead : ¬((Digits.inBase 10 n).head? = some 0 ∧ (Digits.inBase 10 n).length ≠ 1) := by
    rintro ⟨hhead, hlength⟩
    by_cases hn : 0 < n
    · exact Digits.head?_inBase (by omega) hn hhead
    · have hzero : n = 0 := by omega
      subst hzero
      simp [Digits.inBase] at hlength
  have hfraction : Numeral.readFraction r = some ([], r) := Numeral.readFraction_append hr []
  have hexponent : Numeral.readExponent r = some (none, r) := Numeral.readExponent_append hr []
  simp [Numeral.readUnsigned, hdigits, hlead, hfraction, hexponent]

theorem Numeral.toJson_negative {ds : List Nat} (hpos : 0 < Digits.toNat 10 ds)
    (hfits : Digits.toNat 10 ds ≤ UInt64.size / 2) :
    Numeral.toJson ⟨true, ds, [], none⟩ = .int (-(Digits.toNat 10 ds : Int)) := by
  simp [Numeral.toJson, Numeral.isInteger, hpos, hfits]

theorem Numeral.toJson_natural {ds : List Nat} (hfits : Digits.toNat 10 ds < UInt64.size) :
    Numeral.toJson ⟨false, ds, [], none⟩ = .int (Digits.toNat 10 ds) := by
  simp [Numeral.toJson, Numeral.isInteger, hfits]

/-- An integer of 64 bits is read as it was written. -/
theorem read_ofInt {r : List Char} (hr : Ends r) {n : Int} (hlow : -9223372036854775808 ≤ n)
    (hhigh : n < 18446744073709551616) :
    ∃ m : Numeral, Numeral.read (Digits.ofInt n ++ r) = some (m, r) ∧ m.toJson = .int n := by
  by_cases hneg : n < 0
  · refine ⟨⟨true, Digits.inBase 10 n.natAbs, [], none⟩, ?_, ?_⟩
    · rw [Digits.ofInt, if_pos hneg]
      exact Numeral.readUnsigned_ofNat hr true n.natAbs
    · have hvalue := Digits.toNat_inBase 10 n.natAbs
      have hpos : 0 < Digits.toNat 10 (Digits.inBase 10 n.natAbs) := by omega
      have hfits : Digits.toNat 10 (Digits.inBase 10 n.natAbs) ≤ UInt64.size / 2 := by
        rw [hvalue, UInt64.size]
        omega
      have habs : -(n.natAbs : Int) = n := by omega
      rw [Numeral.toJson_negative hpos hfits, hvalue, habs]
  · refine ⟨⟨false, Digits.inBase 10 n.natAbs, [], none⟩, ?_, ?_⟩
    · rw [Digits.ofInt, if_neg hneg]
      have hread := Numeral.readUnsigned_ofNat hr false n.natAbs
      unfold Numeral.read
      split
      · -- A digit is no sign.
        rename_i r' heq
        rw [heq] at hread
        have hnone : Numeral.digits1? ('-' :: r') = none := rfl
        simp [Numeral.readUnsigned, hnone] at hread
      · exact hread
    · have hvalue := Digits.toNat_inBase 10 n.natAbs
      have hfits : Digits.toNat 10 (Digits.inBase 10 n.natAbs) < UInt64.size := by
        rw [hvalue, UInt64.size]
        omega
      have habs : (n.natAbs : Int) = n := by omega
      rw [Numeral.toJson_natural hfits, hvalue, habs]

/-! ### Texts of numbers -/

/-- A text that could be a numeral, as far as its characters go. -/
def NumeralText (cs : List Char) : Prop := ∀ c ∈ cs, isNumeral c = true

theorem numeralText_append {cs ds : List Char} (hcs : NumeralText cs) (hds : NumeralText ds) :
    NumeralText (cs ++ ds) := by
  intro c hc
  rcases List.mem_append.1 hc with hc | hc
  · exact hcs c hc
  · exact hds c hc

theorem numeralText_replicate (n : Nat) : NumeralText (List.replicate n '0') := by
  intro c hc
  rw [(List.mem_replicate.1 hc).2]
  rfl

theorem numeralText_ofNat (n : Nat) : NumeralText (Digits.ofNat n) := by
  intro c hc
  rcases List.mem_map.1 hc with ⟨d, hd, rfl⟩
  simp [isNumeral, Digits.value?_char d (Digits.lt_of_mem_inBase (by omega) hd)]

theorem numeralText_ofInt (n : Int) : NumeralText (Digits.ofInt n) := by
  unfold Digits.ofInt
  split
  · have hsign : NumeralText ['-'] := by simp [NumeralText, isNumeral]
    exact numeralText_append hsign (numeralText_ofNat _)
  · exact numeralText_ofNat _

theorem numeralText_positional (d : Decimal) :
    NumeralText (Layout.interchange.positional d) := by
  have hdigits := numeralText_ofNat d.digits
  unfold Layout.positional
  simp only
  split
  · have hpoint : NumeralText ['.', '0'] := by simp [NumeralText, isNumeral, Digits.value?]
    exact numeralText_append (numeralText_append hdigits (numeralText_replicate _)) hpoint
  · have hpadded : ∀ n, NumeralText (Digits.padLeft n '0' (Digits.ofNat d.digits)) :=
      fun n => numeralText_append (numeralText_replicate _) hdigits
    intro c hc
    rcases List.mem_append.1 hc with hwhole | hrest
    · exact hpadded _ c (List.mem_of_mem_take hwhole)
    · rcases List.mem_cons.1 hrest with rfl | hrest
      · rfl
      · exact hpadded _ c (List.mem_of_mem_drop hrest)

theorem numeralText_exponential (d : Decimal) :
    NumeralText (Layout.interchange.exponential d) := by
  have hdigits := numeralText_ofNat d.digits
  unfold Layout.exponential
  simp only
  have hplus : ∀ p : Prop, [Decidable p] → NumeralText (if p then ['+'] else []) := by
    intro p _
    split
    · simp [NumeralText, isNumeral]
    · simp [NumeralText]
  have hrest : NumeralText (if ((Digits.ofNat d.digits).drop 1).isEmpty then []
      else '.' :: (Digits.ofNat d.digits).drop 1) := by
    split
    · simp [NumeralText]
    · intro c hc
      rcases List.mem_cons.1 hc with rfl | hc
      · rfl
      · exact hdigits c (List.mem_of_mem_drop hc)
  have hmark : NumeralText ['e'] := by simp [NumeralText, isNumeral]
  refine numeralText_append (numeralText_append (numeralText_append ?_ hrest) ?_)
    (numeralText_ofInt _)
  · exact fun c hc => hdigits c (List.mem_of_mem_take hc)
  · exact numeralText_append hmark (hplus _)

/-- A finite number is written with a sign, if need be, and one of the two notations. -/
theorem renderReal_finite {x : Double} (hx : x.isFinite = true) :
    ∃ sign body, renderReal x = sign ++ body ∧ (sign = [] ∨ sign = ['-']) ∧
      ∃ d, body = Layout.interchange.exponential d ∨
        body = Layout.interchange.positional d := by
  have hbelow : x.magnitude < Double.infiniteMagnitude := by simpa [Double.isFinite] using hx
  have hnumber : x.isNaN = false := by
    simp only [Double.isNaN, decide_eq_false_iff_not]
    omega
  have hbounded : x.isInfinite = false := by
    simp only [Double.isInfinite, beq_eq_false_iff_ne]
    omega
  rw [renderReal, if_pos hx, Layout.render]
  simp only [hnumber, hbounded, Bool.false_eq_true, if_false]
  refine ⟨_, _, rfl, ?_, Decimal.shortest x, ?_⟩
  · split
    · exact .inr rfl
    · exact .inl rfl
  · split
    · exact .inl rfl
    · exact .inr rfl

theorem numeralText_renderReal {x : Double} (hx : x.isFinite = true) :
    NumeralText (renderReal x) := by
  rcases renderReal_finite hx with ⟨sign, body, heq, hsign, d, hbody⟩
  rw [heq]
  refine numeralText_append ?_ ?_
  · rcases hsign with rfl | rfl
    · simp [NumeralText]
    · simp [NumeralText, isNumeral]
  · rcases hbody with rfl | rfl
    · exact numeralText_exponential d
    · exact numeralText_positional d

theorem ofNat_ne_nil (n : Nat) : Digits.ofNat n ≠ [] := by
  simpa [Digits.ofNat] using Digits.inBase_ne_nil 10 n

theorem ofInt_ne_nil (n : Int) : Digits.ofInt n ≠ [] := by
  unfold Digits.ofInt
  split
  · simp
  · exact ofNat_ne_nil n.natAbs

theorem renderReal_ne_nil {x : Double} (hx : x.isFinite = true) : renderReal x ≠ [] := by
  rcases renderReal_finite hx with ⟨sign, body, heq, -, d, hbody⟩
  rw [heq]
  refine List.append_ne_nil_of_right_ne_nil _ ?_
  rcases hbody with rfl | rfl
  · simp [Layout.exponential]
  · have hdigits := ofNat_ne_nil d.digits
    unfold Layout.positional
    simp only
    split
    · simp [hdigits]
    · simp

/-- A character of a numeral begins nothing else. -/
theorem ne_of_isNumeral {c : Char} (h : isNumeral c = true) :
    isSpace c = false ∧ c ≠ '[' ∧ c ≠ '\x7b' ∧ c ≠ ']' ∧ c ≠ '\x7d' ∧ c ≠ '"' ∧ c ≠ 'n' ∧
      c ≠ 't' ∧ c ≠ 'f' := by
  refine ⟨?_, ?_, ?_, ?_, ?_, ?_, ?_, ?_, ?_⟩
  · by_contra hspace
    simp only [isSpace, Bool.not_eq_false, Bool.or_eq_true, beq_iff_eq] at hspace
    rcases hspace with ((rfl | rfl) | rfl) | rfl
    all_goals exact absurd h (by decide)
  all_goals
    rintro rfl
    exact absurd h (by decide)

theorem skipSpace_cons {c : Char} (h : isSpace c = false) (cs : List Char) :
    skipSpace (c :: cs) = c :: cs := by
  simp [skipSpace, h]

/-- A value that begins like a numeral is one. -/
theorem readValue_numeral {c : Char} (h : isNumeral c = true) (fuel : Nat) (cs : List Char) :
    readValue (fuel + 1) (c :: cs) =
      (Numeral.read (c :: cs)).map fun p => (p.1.toJson, p.2) := by
  rcases ne_of_isNumeral h with ⟨hspace, harray, hobject, -, -, hquote, hn, ht, hf⟩
  rw [readValue, skipSpace_cons hspace]
  simp [readScalar, harray, hobject, hquote, hn, ht, hf]

theorem readValue_of_read {cs r : List Char} {n : Numeral} (hcs : NumeralText cs)
    (hne : cs ≠ []) (hread : Numeral.read (cs ++ r) = some (n, r)) (fuel : Nat) :
    readValue (fuel + 1) (cs ++ r) = some (n.toJson, r) := by
  cases cs with
  | nil => exact absurd rfl hne
  | cons c cs =>
    rw [List.cons_append] at hread ⊢
    rw [readValue_numeral (hcs c List.mem_cons_self), hread]
    rfl

theorem readValue_int {r : List Char} (hr : Ends r) {n : Int} (hlow : -9223372036854775808 ≤ n)
    (hhigh : n < 18446744073709551616) (fuel : Nat) :
    readValue (fuel + 1) (Digits.ofInt n ++ r) = some (.int n, r) := by
  rcases read_ofInt hr hlow hhigh with ⟨m, hread, hm⟩
  rw [readValue_of_read (numeralText_ofInt n) (ofInt_ne_nil n) hread fuel, hm]

/-- The text of a number is read as that number. -/
def ReadsBack (x : Double) : Prop := parse (renderReal x) = some (.real x)

instance : DecidablePred ReadsBack := fun x =>
  match h : parse (renderReal x) with
  | some (.real y) => decidable_of_iff (y = x) (by simp [ReadsBack, h])
  | some .null | some (.bool _) | some (.int _) | some (.string _) | some (.array _)
  | some (.object _) | some .unreadable | none => isFalse (by simp [ReadsBack, h])

/-- A number that is read back by itself is read back in front of anything that ends a numeral. -/
theorem readValue_real {r : List Char} (hr : Ends r) {x : Double} (hx : x.isFinite = true)
    (hback : ReadsBack x) (fuel : Nat) :
    readValue (fuel + 1) (renderReal x ++ r) = some (.real x, r) := by
  have htext := numeralText_renderReal hx
  simp only [ReadsBack, parse, Option.bind_eq_bind, Option.bind_eq_some_iff] at hback
  rcases hback with ⟨⟨j, left⟩, hvalue, hleft⟩
  cases hcs : renderReal x with
  | nil => exact absurd hcs (renderReal_ne_nil hx)
  | cons c cs =>
    have hc : isNumeral c = true := htext c (by rw [hcs]; exact List.mem_cons_self)
    rw [hcs, readValue_numeral hc] at hvalue
    obtain ⟨⟨n, rest⟩, hread, heq⟩ := Option.map_eq_some_iff.1 hvalue
    obtain ⟨rfl, rfl⟩ := Prod.mk.inj heq
    -- What was left over is blank, and a part of the text, which has no blanks.
    have hnone : rest = [] := by
      cases rest with
      | nil => rfl
      | cons d rest =>
        have hd : d ∈ renderReal x := by
          rw [hcs]
          exact (Numeral.suffix_of_read hread).mem List.mem_cons_self
        have hspace := (ne_of_isNumeral (htext d hd)).1
        simp [skipSpace_cons hspace] at hleft
    subst hnone
    have hj : n.toJson = .real x := by simpa [skipSpace] using hleft
    have hlonger := Numeral.read_append hr (c :: cs)
    rw [hread] at hlonger
    rw [hcs] at htext
    rw [readValue_of_read htext (by simp) hlonger fuel, hj]

end Json
end ScriptService
