import ScriptService.Proofs.Wire.RoundTrip

/-!
# From the text and from a buffer

An attribute may be read straight from the text, or from a buffer that its text was put into, and
which of the two it is depends on what stands in front of it. What the text gives the buffer gives
too. The buffer knows more spellings of a kind, and nothing gets into it that cannot be read; apart
from that (`Attribute.Told`) the two agree.

Main statements: `Attribute.read?_buffered`, `Attribute.read?_streamed`.
-/

namespace ScriptService

namespace Json

/-- A kind that is spelled as only a buffer takes it: an object around an empty one. -/
def isHollow : Json → Bool
  | object [(_, object [])] => true
  | _ => false

theorem alternative?_buffered {limit : Nat} {j : Json} {name : String}
    (h : j.alternative? .streamed limit = some name) :
    j.alternative? .buffered limit = some name := by
  unfold alternative? at h ⊢
  split at h
  · exact h
  · exact h
  · simp at h
  · cases h

theorem alternative?_streamed {limit : Nat} {j : Json} {name : String} (hj : j.isHollow = false)
    (h : j.alternative? .buffered limit = some name) :
    j.alternative? .streamed limit = some name := by
  unfold alternative? at h ⊢
  split at h
  · exact h
  · exact h
  · simp [isHollow] at hj
  · cases h

end Json

open Json (Reading)

/-- Attempts that succeed on all items of a list succeed if each attempt does that did before. -/
theorem mapM_of_mapM {α β : Type} {f g : α → Option β} {as : List α} {bs : List β}
    (hfg : ∀ a ∈ as, ∀ b, f a = some b → g a = some b) (h : as.mapM f = some bs) :
    as.mapM g = some bs := by
  induction as generalizing bs with
  | nil => exact h
  | cons a as ih =>
    simp only [List.mapM_cons, Option.bind_eq_bind, Option.bind_eq_some_iff, Option.pure_def,
      Option.some.injEq] at h ⊢
    obtain ⟨b, hb, cs, hcs, rfl⟩ := h
    exact ⟨b, hfg a List.mem_cons_self b hb, cs,
      ih (fun a ha => hfg a (List.mem_cons_of_mem _ ha)) hcs, rfl⟩

namespace Attribute

/-- A pair with a number in front, for which only a buffer knows a kind. -/
def isNumbered : List Json → Bool
  | [.int _, _] => true
  | _ => false

/-- The kinds in a document are told by their names, down to a limit. What an attribute does not
know among its members does not matter. -/
def namesKinds : Nat → Json → Bool
  | limit + 1, .array items => !isNumbered items && items.all (namesKinds limit)
  | limit + 1, .object members => members.all fun m =>
    if m.1 = "type" then !m.2.isHollow else if m.1 = "value" then namesKinds limit m.2 else true
  | _, _ => true

/-- The contents of attributes in a document can be put into a buffer. -/
def buffersContents : Nat → Json → Bool
  | limit + 1, .array items => items.all (buffersContents limit)
  | limit + 1, .object members => members.all fun m =>
    if m.1 = "value" then m.2.isReadable limit else true
  | _, _ => true

/-- A document that says the same in a buffer and outside of one. -/
structure Told (limit : Nat) (j : Json) : Prop where
  kinds : namesKinds limit j = true
  contents : buffersContents limit j = true

theorem buffersContents_of_isReadable : ∀ {limit : Nat} {j : Json}, j.isReadable limit = true →
    buffersContents limit j = true
  | 0, j, _ => by cases j <;> rfl
  | limit + 1, .array items, h => by
    rw [Json.isReadable, List.all_eq_true] at h
    rw [buffersContents, List.all_eq_true]
    exact fun j hj => buffersContents_of_isReadable (h j hj)
  | limit + 1, .object members, h => by
    rw [Json.isReadable, List.all_eq_true] at h
    rw [buffersContents, List.all_eq_true]
    intro m hm
    split
    · exact h m hm
    · rfl
  | _ + 1, .null, _ => rfl
  | _ + 1, .bool _, _ => rfl
  | _ + 1, .int _, _ => rfl
  | _ + 1, .real _, _ => rfl
  | _ + 1, .string _, _ => rfl
  | _ + 1, .unreadable, _ => rfl

namespace Told

variable {limit : Nat}

theorem not_isNumbered {items : List Json} (h : Told (limit + 1) (.array items)) :
    isNumbered items = false := by
  have hkinds := h.kinds
  rw [namesKinds, Bool.and_eq_true] at hkinds
  simpa using hkinds.1

theorem item {items : List Json} (h : Told (limit + 1) (.array items)) {j : Json} (hj : j ∈ items) :
    Told limit j := by
  obtain ⟨hkinds, hcontents⟩ := h
  rw [namesKinds, Bool.and_eq_true] at hkinds
  exact ⟨List.all_eq_true.1 hkinds.2 j hj, List.all_eq_true.1 hcontents j hj⟩

theorem kind {members : List (String × Json)} (h : Told (limit + 1) (.object members)) {j : Json}
    (hj : ("type", j) ∈ members) : j.isHollow = false := by
  have hkind := List.all_eq_true.1 h.kinds _ hj
  simpa using hkind

/-- The content of an attribute that is an object can be read, and tells as much as the object. -/
theorem content {members : List (String × Json)} (h : Told (limit + 1) (.object members)) {j : Json}
    (hj : ("value", j) ∈ members) : j.isReadable limit = true ∧ Told limit j := by
  have hkinds := List.all_eq_true.1 h.kinds _ hj
  have hcontents : j.isReadable limit = true := by
    simpa using List.all_eq_true.1 h.contents _ hj
  exact ⟨hcontents, by simpa using hkinds, buffersContents_of_isReadable hcontents⟩

end Told

/-! ## From one reading to another -/

/-- A way from one reading of a document to another: the form of an attribute is found again, and
the way goes on in its content and in the items of lists. -/
structure Passes (way : Nat → Reading → Reading → Json → Prop) : Prop where
  form : ∀ {limit : Nat} {source target : Reading} {j : Json} {form : Form},
    way (limit + 1) source target j → form? limit source j = some form →
      ∃ inside, form? limit target j = some { form with reading := inside } ∧
        ∀ content, form.content = some content → way limit form.reading inside content
  item : ∀ {limit : Nat} {source target : Reading} {items : List Json} {j : Json},
    way (limit + 1) source target (.array items) → j ∈ items → way limit source target j

section Passes

variable {way : Nat → Reading → Reading → Json → Prop}

mutual
theorem Passes.read? (hway : Passes way) : ∀ {limit : Nat} {source target : Reading} {j : Json}
    {a : Attribute}, way limit source target j → Attribute.read? limit source j = some a →
      Attribute.read? limit target j = some a
  | 0, _, _, _, _, _, h => nomatch h
  | limit + 1, source, target, j, a, hj, h => by
    rw [Attribute.read?] at h ⊢
    obtain ⟨form, hform, hcontent⟩ := Option.bind_eq_some_iff.1 h
    obtain ⟨inside, hinside, hon⟩ := hway.form hj hform
    rw [hinside]
    exact hway.content? hon hcontent

theorem Passes.content? (hway : Passes way) : ∀ {limit : Nat} {source target : Reading}
    {kind : String} {content : Option Json} {a : Attribute},
    (∀ j, content = some j → way limit source target j) →
      Attribute.content? limit source kind content = some a →
        Attribute.content? limit target kind content = some a
  | 0, source, target, kind, content, a, _, h => by cases content <;> exact h
  | limit + 1, source, target, kind, content, a, hcontent, h => by
    by_cases harray : ∃ items, content = some (.array items)
    · -- Only the items of a list are looked into; all other content is a scalar.
      obtain ⟨items, rfl⟩ := harray
      have hitem : ∀ {j}, j ∈ items → way limit source target j := hway.item (hcontent _ rfl)
      rw [Attribute.content?] at h ⊢
      split
      · rename_i hkind
        rw [if_pos hkind] at h
        obtain ⟨as, has, rfl⟩ := Option.map_eq_some_iff.1 h
        rw [mapM_of_mapM (fun j hj a => hway.read? (hitem hj)) has]
        rfl
      · rename_i hkind
        rw [if_neg hkind] at h
        split
        · rename_i htable
          rw [if_pos htable] at h
          obtain ⟨fields, hfields, rfl⟩ := Option.map_eq_some_iff.1 h
          rw [mapM_of_mapM (fun j hj f => hway.field? (hitem hj)) hfields]
          rfl
        · rename_i htable
          rw [if_neg htable] at h
          exact h
    · have hnone : ∀ items, content ≠ some (.array items) := fun items heq => harray ⟨items, heq⟩
      rw [content?_of_not_array _ _ hnone] at h ⊢
      exact h

theorem Passes.field? (hway : Passes way) : ∀ {limit : Nat} {source target : Reading} {j : Json}
    {f : String × Attribute}, way limit source target j → Attribute.field? limit source j = some f →
      Attribute.field? limit target j = some f
  | 0, _, _, _, _, _, h => nomatch h
  | limit + 1, source, target, j, f, hj, h => by
    unfold Attribute.field? at h ⊢
    split at h
    · rename_i hlimit
      cases hlimit
      obtain ⟨a, ha, rfl⟩ := Option.map_eq_some_iff.1 h
      have hread := hway.read? (hway.item hj (by simp)) ha
      exact congrArg (Option.map _) hread
    · cases h
end

end Passes

/-! ## Into a buffer and out of it -/

/-- Whatever is in a buffer is read there. -/
theorem reading_of_form? {limit : Nat} {j : Json} {form : Form}
    (h : form? limit .buffered j = some form) : form.reading = .buffered := by
  unfold form? at h
  split at h
  · split at h
    · obtain ⟨kind, -, rfl⟩ := Option.map_eq_some_iff.1 h
      rfl
    · obtain ⟨kind, -, rfl⟩ := Option.map_eq_some_iff.1 h
      rfl
    · rw [if_pos (.inl rfl)] at h
      obtain ⟨kind, -, rfl⟩ := Option.map_eq_some_iff.1 h
      rfl
    · cases h
  · obtain ⟨kind, -, rfl⟩ := Option.map_eq_some_iff.1 h
    rfl
  · cases h

theorem pairKind?_buffered {j : Json} {kind : String} (h : pairKind? .streamed j = some kind) :
    pairKind? .buffered j = some kind := by
  unfold pairKind? at h ⊢
  split at h
  · exact h
  · simp at h
  · cases h

/-- A record that is told from the text is told from a buffer. -/
theorem form?_buffered {limit : Nat} {j : Json} {form : Form}
    (h : form? limit .streamed j = some form) :
    form? limit .buffered j = some { form with reading := .buffered } := by
  unfold form? at h ⊢
  split at h
  · split at h
    · obtain ⟨kind, hkind, rfl⟩ := Option.map_eq_some_iff.1 h
      rw [Json.alternative?_buffered hkind]
      rfl
    · obtain ⟨kind, hkind, rfl⟩ := Option.map_eq_some_iff.1 h
      rw [Json.alternative?_buffered hkind]
      rfl
    · split at h
      · obtain ⟨kind, hkind, rfl⟩ := Option.map_eq_some_iff.1 h
        rw [Json.alternative?_buffered hkind]
        rfl
      · cases h
    · cases h
  · obtain ⟨kind, hkind, rfl⟩ := Option.map_eq_some_iff.1 h
    rw [pairKind?_buffered hkind]
    rfl
  · cases h

theorem passes_buffered : Passes fun _ _ target _ => target = .buffered where
  form := by
    rintro limit source target j form rfl h
    cases source with
    | streamed => exact ⟨.buffered, form?_buffered h, fun _ _ => rfl⟩
    | buffered => exact ⟨form.reading, h, fun _ _ => reading_of_form? h⟩
  item h _ := h

/-- What is read from the text is read from a buffer too. -/
theorem read?_buffered {limit : Nat} {reading : Reading} {j : Json} {a : Attribute}
    (h : read? limit reading j = some a) : read? limit .buffered j = some a :=
  passes_buffered.read? rfl h

theorem field?_buffered {limit : Nat} {reading : Reading} {j : Json} {f : String × Attribute}
    (h : field? limit reading j = some f) : field? limit .buffered j = some f :=
  passes_buffered.field? rfl h

theorem pairKind?_streamed {content j : Json} {kind : String}
    (hj : isNumbered [j, content] = false) (h : pairKind? .buffered j = some kind) :
    pairKind? .streamed j = some kind := by
  unfold pairKind? at h ⊢
  split at h
  · exact h
  · simp [isNumbered] at hj
  · cases h

theorem passes_streamed : Passes fun limit source target j =>
    source = .buffered ∧ (target = .buffered ∨ Told limit j) where
  form := by
    rintro limit source target j form ⟨rfl, htarget⟩ h
    have hreading := reading_of_form? h
    cases target with
    | buffered => exact ⟨form.reading, h, fun _ _ => ⟨hreading, .inl hreading⟩⟩
    | streamed =>
      obtain htold : Told (limit + 1) j := htarget.resolve_left (by decide)
      -- The members of an object decide what comes first: the kind alone, the kind or the content.
      unfold form? at h ⊢
      split at h
      · split at h
        · rename_i hown
          obtain ⟨kind, hkind, rfl⟩ := Option.map_eq_some_iff.1 h
          have hname := htold.kind (mem_of_ownMembers hown List.mem_cons_self)
          rw [Json.alternative?_streamed hname hkind]
          exact ⟨.streamed, rfl, fun _ hcontent => nomatch hcontent⟩
        · rename_i hown
          obtain ⟨kind, hkind, rfl⟩ := Option.map_eq_some_iff.1 h
          have hname := htold.kind (mem_of_ownMembers hown List.mem_cons_self)
          have hmem := mem_of_ownMembers hown (List.mem_cons_of_mem _ List.mem_cons_self)
          have hcontent := htold.content hmem
          rw [Json.alternative?_streamed hname hkind]
          refine ⟨.streamed, rfl, ?_⟩
          rintro content ⟨⟩
          exact ⟨rfl, .inr hcontent.2⟩
        · -- Content in front of its kind is read from a buffer in either case.
          rename_i hown
          rw [if_pos (.inl rfl)] at h
          obtain ⟨kind, hkind, rfl⟩ := Option.map_eq_some_iff.1 h
          have hname := htold.kind
            (mem_of_ownMembers hown (List.mem_cons_of_mem _ List.mem_cons_self))
          have hcontent := htold.content (mem_of_ownMembers hown List.mem_cons_self)
          rw [if_pos (.inr hcontent.1), Json.alternative?_streamed hname hkind]
          exact ⟨.buffered, rfl, fun _ _ => ⟨rfl, .inl rfl⟩⟩
        · cases h
      · obtain ⟨kind, hkind, rfl⟩ := Option.map_eq_some_iff.1 h
        rw [pairKind?_streamed htold.not_isNumbered hkind]
        refine ⟨.streamed, rfl, ?_⟩
        rintro content ⟨⟩
        exact ⟨rfl, .inr (htold.item (by simp))⟩
      · cases h
  item := by
    rintro limit source target items j ⟨rfl, htarget⟩ hj
    exact ⟨rfl, htarget.imp id fun htold => htold.item hj⟩

/-- What is read from a buffer is read from the text if it is told there. -/
theorem read?_streamed {limit : Nat} {j : Json} {a : Attribute} (hj : Told limit j)
    (h : read? limit .buffered j = some a) : read? limit .streamed j = some a :=
  passes_streamed.read? ⟨rfl, .inr hj⟩ h

theorem field?_streamed {limit : Nat} {j : Json} {f : String × Attribute} (hj : Told limit j)
    (h : field? limit .buffered j = some f) : field? limit .streamed j = some f :=
  passes_streamed.field? ⟨rfl, .inr hj⟩ h

end Attribute

namespace Table

open Attribute (Told)

theorem read?_buffered {limit : Nat} {reading : Reading} {j : Json} {table : Table}
    (h : read? limit reading j = some table) : read? limit .buffered j = some table := by
  unfold read? at h ⊢
  split at h
  · exact mapM_of_mapM (fun j _ f => Attribute.field?_buffered) h
  · cases h

theorem read?_streamed {limit : Nat} {j : Json} {table : Table} (hj : Told limit j)
    (h : read? limit .buffered j = some table) : read? limit .streamed j = some table := by
  unfold read? at h ⊢
  split at h
  · exact mapM_of_mapM (fun k hk f => Attribute.field?_streamed (hj.item hk)) h
  · cases h

end Table

end ScriptService
