import ScriptService.Json.Reader
import ScriptService.Proofs.Number.Range

/-!
# Documents that texts are read as

Not every document is the document of a text: its integers have 64 bits, and its floating-point
numbers are finite, whatever the text looks like. A number of a text that is not finite cannot be
read.

Main statement: `Json.parse_sound`.
-/

namespace ScriptService.Json

mutual
/-- Every number in a document is finite, and an integer has 64 bits. -/
def IsFinite : Json → Prop
  | int n => n.natAbs < 2 ^ 64
  | real x => x.isFinite = true
  | array items => ItemsFinite items
  | object members => MembersFinite members
  | _ => True

def ItemsFinite : List Json → Prop
  | [] => True
  | j :: rest => IsFinite j ∧ ItemsFinite rest

def MembersFinite : List (String × Json) → Prop
  | [] => True
  | (_, j) :: rest => IsFinite j ∧ MembersFinite rest
end

/-! ## Numerals -/

namespace Numeral

theorem collect_lt {significand : Nat} (digits : List Nat) (h : significand < UInt64.size) :
    (collect significand digits).1 < UInt64.size := by
  induction digits generalizing significand with
  | nil => exact h
  | cons d rest ih =>
    rw [collect]
    split
    · rename_i hfits
      exact ih hfits
    · exact h

/-- One step of scaling down divides by a power of ten, or leaves the number as it is. -/
theorem scaleDown_succ (fuel : Nat) (x : Double) (e : Nat) :
    ∃ n, scaleDown (fuel + 1) x e =
      if e ≤ 308 then x.div (Double.ofNat (Nat.pow 10 e))
      else if x.isZero then x
      else scaleDown fuel (x.div (Double.ofNat (Nat.pow 10 n))) (e - 308) :=
  ⟨308, rfl⟩

/-- Each division leaves the number about as bounded as it was. -/
theorem atMost_scaleDown {fuel k : Nat} {x : Double} {e : Nat} (hx : x.AtMost k)
    (hk : k + 6 * fuel < 1024) : (scaleDown fuel x e).AtMost (k + 6 * fuel) := by
  have hlarge : ∀ n : Nat, (Double.ofNat (Nat.pow 10 n)).IsLarge := fun n =>
    Double.isLarge_ofNat (Nat.pow_pos (by omega))
  induction fuel generalizing k x e with
  | zero => exact hx
  | succ fuel ih =>
    have hsmall : k < 1024 := by omega
    obtain ⟨n, hstep⟩ := scaleDown_succ fuel x e
    rw [hstep]
    split
    · exact (Double.atMost_div hx hsmall (hlarge e)).mono (by omega)
    · split
      · exact hx.mono (by omega)
      · exact (ih (Double.atMost_div hx hsmall (hlarge n)) (by omega)).mono (by omega)

/-- Scaling up is refused if the product is not finite; scaling down cannot make it so. -/
theorem isFinite_of_scale? {x y : Double} {e : Int} (hx : x.AtMost 67) (h : scale? x e = some y) :
    y.isFinite = true := by
  unfold scale? at h
  split at h
  · -- At most four divisions are made, so that the bound stays far from infinity.
    have hdown : (scaleDown 4 x e.natAbs).AtMost (67 + 6 * 4) := atMost_scaleDown hx (by omega)
    rw [← Option.some.inj h]
    exact hdown.isFinite (by omega)
  · split at h
    · simp only at h
      split at h
      · rename_i hproduct
        rwa [← Option.some.inj h]
      · cases h
    · split at h
      · rw [← Option.some.inj h]
        exact hx.isFinite (by omega)
      · cases h

theorem isFinite_of_real? {n : Numeral} {x : Double} (h : n.real? = some x) :
    x.isFinite = true := by
  simp only [real?, Option.bind_eq_bind, Option.bind_eq_some_iff, Option.pure_def,
    Option.some.injEq] at h
  obtain ⟨y, hscale, rfl⟩ := h
  have hdigits := collect_lt n.fraction (collect_lt n.whole (by decide : 0 < UInt64.size))
  have hsize : UInt64.size = 2 ^ 64 := rfl
  have hbound : (Double.ofNat (collect (collect 0 n.whole).1 n.fraction).1).AtMost (64 + 3) :=
    Double.atMost_ofRatio false (by omega) (by omega)
  have hfinite := isFinite_of_scale? hbound hscale
  split
  · rw [Double.isFinite_neg, hfinite]
  · exact hfinite

/-- The number that a numeral denotes is finite, if there is one. -/
theorem isFinite_toJson (n : Numeral) : n.toJson.IsFinite := by
  have hsize : UInt64.size = 2 ^ 64 := rfl
  unfold toJson
  simp only [Bool.and_eq_true, decide_eq_true_eq]
  split
  · rename_i hnatural
    have hlt := hnatural.2
    rw [IsFinite]
    omega
  · split
    · rename_i hnegative
      have hle := hnegative.2
      rw [IsFinite]
      omega
    · cases hreal : n.real? with
      | none => trivial
      | some x => exact isFinite_of_real? hreal

end Numeral

/-! ## Values -/

theorem readScalar_sound {cs r : List Char} {j : Json} (h : readScalar cs = some (j, r)) :
    j.IsFinite := by
  unfold readScalar at h
  split at h
  · cases h
    trivial
  · cases h
    trivial
  · cases h
    trivial
  · obtain ⟨⟨s, rest⟩, -, heq⟩ := Option.map_eq_some_iff.1 h
    cases heq
    cases s with
    | none => trivial
    | some s => trivial
  · obtain ⟨⟨n, rest⟩, -, heq⟩ := Option.map_eq_some_iff.1 h
    cases heq
    exact n.isFinite_toJson

/-- Names say nothing of numbers. -/
theorem isFinite_ofMembers {members : List (Option String × Json)}
    (h : ∀ m ∈ members, m.2.IsFinite) : (ofMembers members).IsFinite := by
  unfold ofMembers
  split
  · rename_i ms hnames
    rw [IsFinite]
    induction members generalizing ms with
    | nil =>
      cases hnames
      trivial
    | cons m members ih =>
      simp only [List.mapM_cons, Option.bind_eq_bind, Option.bind_eq_some_iff, Option.pure_def,
        Option.some.injEq] at hnames
      obtain ⟨first, hfirst, rest, hrest, rfl⟩ := hnames
      obtain ⟨name, -, rfl⟩ := Option.map_eq_some_iff.1 hfirst
      exact ⟨h m List.mem_cons_self, ih (fun m hm => h m (List.mem_cons_of_mem _ hm)) rest hrest⟩
  · trivial

mutual
/-- The numbers in a value that is read are finite. -/
theorem readValue_sound : ∀ {fuel : Nat} {cs r : List Char} {j : Json},
    readValue fuel cs = some (j, r) → j.IsFinite
  | 0, _, _, _, h => by simp [readValue] at h
  | fuel + 1, cs, r, j, h => by
    rw [readValue] at h
    split at h
    · split at h
      · cases h
        trivial
      · obtain ⟨⟨items, rest⟩, hitems, heq⟩ := Option.map_eq_some_iff.1 h
        cases heq
        exact readItems_sound hitems
    · split at h
      · cases h
        trivial
      · obtain ⟨⟨members, rest⟩, hmembers, heq⟩ := Option.map_eq_some_iff.1 h
        cases heq
        exact isFinite_ofMembers (readMembers_sound hmembers)
    · exact readScalar_sound h

theorem readItems_sound : ∀ {fuel : Nat} {cs r : List Char} {items : List Json},
    readItems fuel cs = some (items, r) → ItemsFinite items
  | 0, _, _, _, h => by simp [readItems] at h
  | fuel + 1, cs, r, items, h => by
    simp only [readItems, Option.bind_eq_bind, Option.bind_eq_some_iff] at h
    obtain ⟨⟨item, rest⟩, hitem, h⟩ := h
    have hfirst := readValue_sound hitem
    split at h
    · obtain ⟨⟨more, left⟩, hmore, heq⟩ := Option.map_eq_some_iff.1 h
      cases heq
      exact ⟨hfirst, readItems_sound hmore⟩
    · cases h
      exact ⟨hfirst, trivial⟩
    · cases h

theorem readMembers_sound : ∀ {fuel : Nat} {cs r : List Char}
    {members : List (Option String × Json)}, readMembers fuel cs = some (members, r) →
      ∀ m ∈ members, m.2.IsFinite
  | 0, _, _, _, h => by simp [readMembers] at h
  | fuel + 1, cs, r, members, h => by
    simp only [readMembers, Option.bind_eq_bind, Option.bind_eq_some_iff] at h
    obtain ⟨⟨name, rest⟩, -, ⟨value, left⟩, hvalue, h⟩ := h
    have hfirst := readValue_sound hvalue
    split at h
    · obtain ⟨⟨more, behind⟩, hmore, heq⟩ := Option.map_eq_some_iff.1 h
      cases heq
      have hrest := readMembers_sound hmore
      exact List.forall_mem_cons.2 ⟨hfirst, hrest⟩
    · cases h
      exact List.forall_mem_cons.2 ⟨hfirst, fun m hm => nomatch hm⟩
    · cases h
end

/-- The numbers in the document of a text are finite. -/
theorem parse_sound {text : List Char} {j : Json} (h : parse text = some j) : j.IsFinite := by
  simp only [parse, Option.bind_eq_bind, Option.bind_eq_some_iff] at h
  obtain ⟨⟨k, r⟩, hread, h⟩ := h
  split at h
  · cases h
    exact readValue_sound hread
  · cases h

end ScriptService.Json
