import Mathlib.Data.List.Basic

/-!
# The lines of a text

A text is a sequence of lines with a line feed behind each, and perhaps a last one without. In the
bytes of the text a character of ASCII is where it is in the text, as every byte of a longer
encoding is above the ASCII ones.

Main statements: `Text.mem_utf8`, `Text.lines_cons` and `Text.lines_flatMap`.
-/

namespace ScriptService

namespace Text

/-! ## Bytes -/

/-- The bytes of a text. -/
def utf8 (cs : List Char) : List UInt8 := cs.flatMap String.utf8EncodeChar

@[simp] theorem utf8_nil : utf8 [] = [] := rfl

@[simp] theorem utf8_cons (c : Char) (cs : List Char) :
    utf8 (c :: cs) = String.utf8EncodeChar c ++ utf8 cs := rfl

@[simp] theorem utf8_append (cs ds : List Char) : utf8 (cs ++ ds) = utf8 cs ++ utf8 ds :=
  List.flatMap_append

theorem utf8_flatMap {α : Type} (f : α → List Char) (xs : List α) :
    utf8 (xs.flatMap f) = xs.flatMap fun x => utf8 (f x) := by
  induction xs with
  | nil => rfl
  | cons x xs ih => simp [ih]

theorem utf8_eq_nil {cs : List Char} : utf8 cs = [] ↔ cs = [] := by
  cases cs with
  | nil => simp
  | cons c cs => simp

theorem toArray_utf8 (cs : List Char) : (⟨(utf8 cs).toArray⟩ : ByteArray) = cs.utf8Encode := by
  rw [List.utf8Encode, utf8]
  exact ByteArray.ext (by simp)

/-- A character of ASCII is one byte, and any other has bytes above those. -/
theorem utf8EncodeChar_cases (c : Char) :
    (c.toNat < 128 ∧ String.utf8EncodeChar c = [UInt8.ofNat c.toNat]) ∨
      (128 ≤ c.toNat ∧ ∀ b ∈ String.utf8EncodeChar c, 128 ≤ b.toNat) := by
  have hval : c.val.toNat = c.toNat := rfl
  fun_cases String.utf8EncodeChar c with
  | case1 v h =>
    left
    exact ⟨by omega, rfl⟩
  | case2 v hone h =>
    right
    refine ⟨by omega, ?_⟩
    simp only [List.mem_cons, List.not_mem_nil, or_false, forall_eq_or_imp, forall_eq,
      UInt8.toNat_ofNat']
    omega
  | case3 v hone htwo h =>
    right
    refine ⟨by omega, ?_⟩
    simp only [List.mem_cons, List.not_mem_nil, or_false, forall_eq_or_imp, forall_eq,
      UInt8.toNat_ofNat']
    omega
  | case4 v hone htwo hthree =>
    right
    refine ⟨by omega, ?_⟩
    simp only [List.mem_cons, List.not_mem_nil, or_false, forall_eq_or_imp, forall_eq,
      UInt8.toNat_ofNat']
    omega

/-- A character of ASCII is where its byte is. -/
theorem mem_utf8EncodeChar {a c : Char} (ha : a.toNat < 128) :
    UInt8.ofNat a.toNat ∈ String.utf8EncodeChar c ↔ c = a := by
  have hbyte : (UInt8.ofNat a.toNat).toNat = a.toNat := by
    rw [UInt8.toNat_ofNat']
    omega
  rcases utf8EncodeChar_cases c with ⟨hc, hbytes⟩ | ⟨hc, hbytes⟩
  · rw [hbytes, List.mem_singleton]
    constructor
    · intro heq
      have hnat : a.toNat = c.toNat := by
        have hmod := congrArg UInt8.toNat heq
        rw [hbyte, UInt8.toNat_ofNat'] at hmod
        omega
      exact Char.toNat_inj.1 hnat.symm
    · rintro rfl
      rfl
  · constructor
    · intro hmem
      have habove := hbytes _ hmem
      omega
    · rintro rfl
      omega

theorem mem_utf8 {a : Char} (ha : a.toNat < 128) {cs : List Char} :
    UInt8.ofNat a.toNat ∈ utf8 cs ↔ a ∈ cs := by
  induction cs with
  | nil => simp
  | cons c cs ih => rw [utf8_cons, List.mem_append, mem_utf8EncodeChar ha, ih, List.mem_cons,
      eq_comm]

/-! ## Lines -/

/-- A line without a carriage return at its end. -/
def dropReturn (line : List Char) : List Char :=
  if line.getLast? = some '\r' then line.dropLast else line

/-- The lines of a text: what is between the line feeds, each without a carriage return before the
line feed; what is behind the last line feed is a line only once the text has ended, and if it is
not empty. -/
def lines (ended : Bool) (cs : List Char) : List (List Char) :=
  let pieces := cs.splitOn '\n'
  let last := pieces.getLast (List.splitOn_ne_nil '\n' cs)
  pieces.dropLast.map dropReturn ++ if ended && !last.isEmpty then [last] else []

theorem lines_cons (ended : Bool) {line : List Char} (h : '\n' ∉ line) (cs : List Char) :
    lines ended (line ++ '\n' :: cs) = dropReturn line :: lines ended cs := by
  have hpieces : (line ++ '\n' :: cs).splitOn '\n' = line :: cs.splitOn '\n' := by
    rw [List.splitOn_append_cons_self, List.splitOn_eq_singleton h]
    rfl
  have hne := List.splitOn_ne_nil '\n' cs
  simp only [lines, hpieces, List.dropLast_cons_of_ne_nil hne, List.getLast_cons hne,
    List.map_cons, List.cons_append]

theorem lines_of_not_mem (ended : Bool) {line : List Char} (h : '\n' ∉ line) :
    lines ended line = if ended && !line.isEmpty then [line] else [] := by
  simp [lines, List.splitOn_eq_singleton h]

/-- Induction over the lines of a text. -/
theorem lines_induction {P : List Char → Prop} (hlast : ∀ line, '\n' ∉ line → P line)
    (hline : ∀ line cs, '\n' ∉ line → P cs → P (line ++ '\n' :: cs)) (cs : List Char) : P cs := by
  by_cases h : '\n' ∈ cs
  · obtain ⟨line, rest, rfl, hfirst⟩ := List.eq_append_cons_of_mem h
    exact hline line rest hfirst (lines_induction hlast hline rest)
  · exact hlast cs h
termination_by cs.length
decreasing_by simp_all; omega

/-- Lines that are written with a line feed behind each are the lines of what was written. -/
theorem lines_flatMap {α : Type} (f : α → List Char) {xs : List α}
    (h : ∀ x ∈ xs, '\n' ∉ f x ∧ '\r' ∉ f x) (ended : Bool) :
    lines ended (xs.flatMap fun x => f x ++ ['\n']) = xs.map f := by
  induction xs with
  | nil => rw [List.flatMap_nil, lines_of_not_mem ended (by simp)]; simp
  | cons x xs ih =>
    obtain ⟨hfeed, hreturn⟩ := h x List.mem_cons_self
    have hkept : dropReturn (f x) = f x := by
      refine if_neg fun hlast => hreturn ?_
      exact List.mem_of_getLast? hlast
    rw [List.flatMap_cons, List.append_assoc, List.singleton_append, lines_cons ended hfeed, hkept,
      ih fun y hy => h y (List.mem_cons_of_mem x hy)]
    rfl

end Text

end ScriptService
