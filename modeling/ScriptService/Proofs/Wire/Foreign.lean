import Mathlib.Data.List.Permutation
import ScriptService.Bus.Session
import ScriptService.Proofs.Bus.Stream

/-!
# Kinds that this side does not know

An attribute of a kind that this side does not know is read as unknown if it has no content or null
for it, and then the message around it is read as if it said unknown there. With any other content
it is no attribute, and the message around it is no message.

A document with a place for one attribute is a function of what stands in the place
(`Attribute.Slot`, `Wire.Slot`). What is read from such a document is read from the attribute first
(`ReadsThrough`), whatever else stands around it.

Main statement: `Stream.outcome?_foreign`.
-/

namespace ScriptService

namespace Json

/-- What is read of a document in a place of another one; in a buffer it must be readable. -/
def within? {α : Type} (limit : Nat) (reading : Reading) (read : Json → Option α) (j : Json) :
    Option α :=
  match reading with
  | .streamed => read j
  | .buffered => (j.buffer? limit).bind read

theorem within?_eq_none {α : Type} {limit : Nat} {reading : Reading} {read : Json → Option α}
    {j : Json} (h : read j = none) : within? limit reading read j = none := by
  cases reading with
  | streamed => exact h
  | buffered => exact buffer?_eq_none h

/-- A document with a place in it: what is read of it is read of what stands in the place first, and
if it is readable, so is that. -/
structure Leads {α β : Type} (outer : Nat) (read : Json → Option α) (around : Json → Json)
    (inner : Nat) (readInside : Json → Option β) : Prop where
  reads : ∃ rest : β → Option α, ∀ j, read (around j) = (readInside j).bind rest
  readable : ∀ j, (around j).isReadable outer = true → j.isReadable inner = true

namespace Leads

variable {α β γ : Type} {outer middle inner : Nat} {read : Json → Option α}
  {readBetween : Json → Option β} {readInside : Json → Option γ} {around within : Json → Json}

theorem refl (limit : Nat) (read : Json → Option α) : Leads limit read (fun j => j) limit read where
  reads := ⟨some, fun j => by simp⟩
  readable _ h := h

/-- A place in a document that itself stands in a place. -/
theorem trans (houter : Leads outer read around middle readBetween)
    (hinner : Leads middle readBetween within inner readInside) :
    Leads outer read (fun j => around (within j)) inner readInside where
  reads := by
    obtain ⟨after, hafter⟩ := houter.reads
    obtain ⟨rest, hrest⟩ := hinner.reads
    refine ⟨fun a => (rest a).bind after, fun j => ?_⟩
    rw [hafter, hrest, Option.bind_assoc]
  readable j h := hinner.readable j (houter.readable _ h)

/-- What is done with what was read does not matter. -/
theorem bind (h : Leads outer read around inner readInside) {read' : Json → Option β}
    (f : α → Option β) (heq : ∀ j, read' (around j) = (read (around j)).bind f) :
    Leads outer read' around inner readInside where
  reads := by
    obtain ⟨rest, hrest⟩ := h.reads
    refine ⟨fun a => (rest a).bind f, fun j => ?_⟩
    rw [heq, hrest, Option.bind_assoc]
  readable := h.readable

/-- A document of which nothing is read, whatever stands in the place. -/
theorem of_none (hreads : ∀ j, read (around j) = none)
    (hreadable : ∀ j, (around j).isReadable outer = true → j.isReadable inner = true) :
    Leads outer read around inner readInside where
  reads := ⟨fun _ => none, fun j => by simp [hreads]⟩
  readable := hreadable

end Leads

/-- What stands around a place one level down is readable or not by itself. -/
def Encloses (around : Json → Json) : Prop :=
  ∀ limit, ∃ others : Bool, ∀ j, (around j).isReadable (limit + 1) = (others && j.isReadable limit)

theorem Encloses.inside {around : Json → Json} (h : Encloses around) {limit : Nat} {j : Json}
    (hj : (around j).isReadable (limit + 1) = true) : j.isReadable limit = true := by
  obtain ⟨others, hothers⟩ := h limit
  rw [hothers, Bool.and_eq_true] at hj
  exact hj.2

/-- Reading one level further down, be it from the text or from a buffer. -/
theorem leads_within {α β : Type} {read : Json → Option α} {around : Json → Json}
    {readInside : Json → Option β} (haround : Encloses around) (limit : Nat) (reading : Reading)
    (h : ∃ rest : β → Option α, ∀ j, read (around j) = (readInside j).bind rest) :
    Leads (limit + 1) (within? (limit + 1) reading read) around limit
      (within? limit reading readInside) where
  reads := by
    obtain ⟨rest, hrest⟩ := h
    cases reading with
    | streamed => exact ⟨rest, hrest⟩
    | buffered =>
      obtain ⟨others, hothers⟩ := haround limit
      refine ⟨fun a => if others then rest a else none, fun j => ?_⟩
      rw [within?, within?, buffer?, buffer?, hothers]
      cases others with
      | false => cases j.isReadable limit <;> simp
      | true =>
        cases j.isReadable limit with
        | false => rfl
        | true => simpa using hrest j
  readable _ := haround.inside

/-- Where nothing may nest, nothing is read of a container. -/
theorem leads_zero {α β : Type} {read : Json → Option α} {around : Json → Json}
    {readInside : Json → Option β} (reading : Reading)
    (haround : ∀ j, (around j).isReadable 0 = false) (hread : ∀ j, read (around j) = none) :
    Leads 0 (within? 0 reading read) around 0 (within? 0 reading readInside) := by
  refine .of_none (fun j => within?_eq_none (hread j)) fun j hj => ?_
  rw [haround] at hj
  cases hj

/-- An array with an item between others. -/
def itemPlace (before after : List Json) (j : Json) : Json := array (before ++ j :: after)

theorem not_isReadable_itemPlace (before after : List Json) (j : Json) :
    (itemPlace before after j).isReadable 0 = false := by
  simp [itemPlace, isReadable]

/-- An object with a member between others. -/
def memberPlace (before after : List (String × Json)) (j : Json) (name : String) : Json :=
  object (before ++ (name, j) :: after)

theorem encloses_itemPlace (before after : List Json) : Encloses (itemPlace before after) := by
  intro limit
  refine ⟨before.all (isReadable limit) && after.all (isReadable limit), fun j => ?_⟩
  simp only [itemPlace, isReadable, List.all_append, List.all_cons]
  cases before.all (isReadable limit) <;> cases j.isReadable limit <;> simp

theorem encloses_memberPlace (before after : List (String × Json)) (name : String) :
    Encloses (memberPlace before after · name) := by
  intro limit
  refine ⟨before.all (fun m => m.2.isReadable limit) && after.all fun m => m.2.isReadable limit,
    fun j => ?_⟩
  simp only [memberPlace, isReadable, List.all_append, List.all_cons]
  cases before.all (fun m => m.2.isReadable limit) <;> cases j.isReadable limit <;> simp

end Json

open Json (Leads Encloses itemPlace memberPlace within?)

namespace Attribute

/-! ## Attributes by kind and content -/

/-- A document spells an attribute of a kind if it is an object with this kind for its only type and
at most one value, among members of other names, or the pair of the kind and the value. -/
def Spells (kind : String) (content : Option Json) : Json → Prop
  | .object members =>
    Json.values "type" members = [.string kind] ∧ Json.values "value" members = content.toList
  | .array items => ∃ value, content = some value ∧ items = [.string kind, value]
  | _ => False

/-- The kinds that this side knows. -/
def knownKinds : List String :=
  ["bool", "int16", "int32", "int64", "double", "string", "array", "table", "unspec"]

/-- Whether there is no content: none is given, or null. -/
def isVacant : Option Json → Bool
  | none => true
  | some .null => true
  | _ => false

/-- A kind that is not known takes no content. -/
theorem scalar?_foreign {kind : String} (h : kind ∉ knownKinds) (content : Option Json) :
    scalar? kind content = if isVacant content then some unknown else none := by
  simp only [knownKinds, List.mem_cons, List.not_mem_nil, or_false, not_or] at h
  unfold scalar?
  split
  all_goals simp_all [isVacant, scalar?.isContentKind]

/-! ## Members of an attribute -/

section Members

variable {members : List (String × Json)} {kind content : Json}

theorem ownMembers_cons (name : String) (value : Json) (members : List (String × Json)) :
    ownMembers ((name, value) :: members) =
      if name = "type" ∨ name = "value" then (name, value) :: ownMembers members
      else ownMembers members := by
  simp [ownMembers, List.filter_cons]

theorem values_cons (other name : String) (value : Json) (members : List (String × Json)) :
    Json.values other ((name, value) :: members) =
      if name = other then value :: Json.values other members else Json.values other members := by
  by_cases h : name = other
  · simp [Json.values, h]
  · simp [Json.values, h]

/-- The members of an attribute are those of its two names, in some order. -/
theorem ownMembers_perm (members : List (String × Json)) :
    (ownMembers members).Perm
      ((Json.values "type" members).map (("type", ·)) ++
        (Json.values "value" members).map (("value", ·))) := by
  induction members with
  | nil => exact .nil
  | cons m members ih =>
    obtain ⟨name, value⟩ := m
    rw [ownMembers_cons, values_cons, values_cons]
    by_cases htype : name = "type"
    · subst htype
      simpa using ih
    · by_cases hvalue : name = "value"
      · subst hvalue
        simpa using (ih.cons _).trans List.perm_middle.symm
      · simpa [htype, hvalue] using ih

theorem ownMembers_kind (hkind : Json.values "type" members = [kind])
    (hcontent : Json.values "value" members = []) : ownMembers members = [("type", kind)] := by
  have hperm := ownMembers_perm members
  rw [hkind, hcontent] at hperm
  exact List.perm_singleton.1 hperm

theorem ownMembers_both (hkind : Json.values "type" members = [kind])
    (hcontent : Json.values "value" members = [content]) :
    ownMembers members = [("type", kind), ("value", content)] ∨
      ownMembers members = [("value", content), ("type", kind)] := by
  have hperm := ownMembers_perm members
  rw [hkind, hcontent] at hperm
  exact List.perm_pair.1 hperm

end Members

/-! ## Reading an attribute of an unknown kind -/

section Foreign

variable {kind : String} {content : Option Json}

theorem content?_foreign (h : kind ∉ knownKinds) (limit : Nat) (reading : Json.Reading)
    (content : Option Json) :
    content? limit reading kind content = if isVacant content then some unknown else none := by
  have harray : kind ≠ "array" := fun heq => h (heq ▸ by decide)
  have htable : kind ≠ "table" := fun heq => h (heq ▸ by decide)
  unfold content?
  split
  · rw [if_neg harray, if_neg htable]
    rfl
  · exact scalar?_foreign h content

/-- Wherever it is read from, and whatever stands first. -/
theorem read?_foreign (h : kind ∉ knownKinds) {j : Json} (hj : Spells kind content j)
    (limit : Nat) (reading : Json.Reading) :
    read? (limit + 1) reading j = if isVacant content then some unknown else none := by
  rw [read?]
  cases j with
  | object members =>
    obtain ⟨hkind, hcontent⟩ := hj
    cases content with
    | none =>
      simp only [form?, ownMembers_kind hkind hcontent]
      exact content?_foreign h limit reading none
    | some c =>
      rcases ownMembers_both hkind hcontent with hown | hown
      · simp only [form?, hown]
        exact content?_foreign h limit reading (some c)
      · simp only [form?, hown]
        have hbuffered := content?_foreign h limit .buffered (some c)
        by_cases hvacant : isVacant (some c) = true
        · -- Null can be put into a buffer, and nothing else would be vacant.
          have hreadable : c.isReadable limit = true := by
            cases c with
            | null => simp [Json.isReadable]
            | _ => simp [isVacant] at hvacant
          rw [if_pos (.inr hreadable)]
          exact hbuffered
        · rw [if_neg hvacant] at hbuffered ⊢
          split
          · exact hbuffered
          · rfl
  | array items =>
    obtain ⟨value, rfl, rfl⟩ := hj
    exact content?_foreign h limit reading (some value)
  | _ => exact hj.elim

/-- The document of unknown is the plainest of these spellings. -/
theorem read?_toJson_unknown (limit : Nat) (reading : Json.Reading) :
    read? (limit + 1) reading unknown.toJson = some unknown := by
  have hspells : Spells "unknown" none unknown.toJson := ⟨rfl, rfl⟩
  exact read?_foreign (by decide) hspells limit reading

end Foreign

/-! ## Places for an attribute -/

/-- The documents of an attribute of a kind with a place for its content, in front of the kind or
behind it. -/
inductive ContentPlace (kind : String) : (Json → Json) → Prop where
  | object (before after : List (String × Json))
    (hkind : Json.values "type" (before ++ after) = [.string kind])
    (hcontent : Json.values "value" (before ++ after) = []) :
    ContentPlace kind (memberPlace before after · "value")
  | pair : ContentPlace kind (itemPlace [.string kind] [])

/-- What is read in the place of an attribute. -/
def readAt? (limit : Nat) (reading : Json.Reading) : Json → Option Attribute :=
  within? limit reading (read? limit reading)

/-- In its place it is passed on if it is vacant and can be read, and refused if it is not
vacant. -/
theorem readAt?_foreign {kind : String} {content : Option Json} {j : Json}
    (hkind : kind ∉ knownKinds) (hj : Spells kind content j) (limit : Nat)
    (reading : Json.Reading) :
    if isVacant content then
      j.isReadable limit = true → readAt? limit reading j = readAt? limit reading unknown.toJson
    else readAt? limit reading j = none := by
  cases limit with
  | zero =>
    -- No attribute fits where nothing may nest.
    have hnone : ∀ j, readAt? 0 reading j = none := fun j => Json.within?_eq_none rfl
    rw [hnone, hnone]
    simp
  | succ limit =>
    have hread := read?_foreign hkind hj limit reading
    have hunknown := read?_toJson_unknown limit reading
    cases reading with
    | streamed =>
      by_cases hvacant : isVacant content = true
      · rw [if_pos hvacant] at hread ⊢
        intro _
        exact hread.trans hunknown.symm
      · rw [if_neg hvacant] at hread ⊢
        exact hread
    | buffered =>
      by_cases hvacant : isVacant content = true
      · rw [if_pos hvacant] at hread ⊢
        intro hreadable
        have hplain : unknown.toJson.isReadable (limit + 1) = true := by
          simp [toJson, Json.isReadable]
        rw [readAt?, within?, within?, Json.buffer?, Json.buffer?, if_pos hreadable, if_pos hplain]
        exact hread.trans hunknown.symm
      · rw [if_neg hvacant] at hread ⊢
        exact Json.within?_eq_none hread

/-- What is read in the place of the content of a kind. -/
def contentAt? (limit : Nat) (reading : Json.Reading) (kind : String) : Json → Option Attribute :=
  within? limit reading fun content => content? limit reading kind (some content)

theorem ContentPlace.not_isReadable {kind : String} {form : Json → Json}
    (h : ContentPlace kind form) (j : Json) : (form j).isReadable 0 = false := by
  cases h with
  | object before after hkind hcontent => simp [memberPlace, Json.isReadable]
  | pair => exact Json.not_isReadable_itemPlace [.string kind] [] j

theorem ContentPlace.encloses {kind : String} {form : Json → Json} (h : ContentPlace kind form) :
    Encloses form := by
  cases h with
  | object before after hkind hcontent => exact Json.encloses_memberPlace before after "value"
  | pair => exact Json.encloses_itemPlace [.string kind] []

/-- The content stands behind the kind or in front of it, whatever it is. -/
theorem ownMembers_place {kind : String} {before after : List (String × Json)}
    (hkind : Json.values "type" (before ++ after) = [.string kind])
    (hcontent : Json.values "value" (before ++ after) = []) :
    (∀ content, ownMembers (before ++ ("value", content) :: after) =
        [("type", .string kind), ("value", content)]) ∨
      ∀ content, ownMembers (before ++ ("value", content) :: after) =
        [("value", content), ("type", .string kind)] := by
  have hsplit : ∀ content, ownMembers (before ++ ("value", content) :: after) =
      ownMembers before ++ ("value", content) :: ownMembers after := by
    simp [ownMembers]
  have hone : ownMembers before ++ ownMembers after = [("type", .string kind)] := by
    rw [← ownMembers_kind hkind hcontent]
    simp [ownMembers]
  rcases List.append_eq_singleton_iff.1 hone with ⟨hbefore, hafter⟩ | ⟨hbefore, hafter⟩
  · right
    intro content
    rw [hsplit, hbefore, hafter]
    rfl
  · left
    intro content
    rw [hsplit, hbefore, hafter]
    rfl

/-- What is read of an attribute is read of its content, from a buffer if that comes first. -/
theorem ContentPlace.leads {kind : String} {form : Json → Json} (h : ContentPlace kind form)
    (limit : Nat) (reading : Json.Reading) :
    ∃ below inside, Leads limit (readAt? limit reading) form below
      (contentAt? below inside kind) := by
  cases limit with
  | zero => exact ⟨0, reading, Json.leads_zero reading h.not_isReadable fun j => rfl⟩
  | succ limit =>
    have hencloses := h.encloses
    cases h with
    | pair =>
      refine ⟨limit, reading, Json.leads_within hencloses limit reading ⟨some, fun j => ?_⟩⟩
      rw [Option.bind_fun_some]
      rfl
    | object before after hkind hcontent =>
      rcases ownMembers_place hkind hcontent with hown | hown
      · refine ⟨limit, reading, Json.leads_within hencloses limit reading ⟨some, fun j => ?_⟩⟩
        rw [Option.bind_fun_some, read?, memberPlace, form?, hown]
        rfl
      · -- With the content in front, what is in a buffer stays there, and what is not goes into one.
        cases reading with
        | buffered =>
          refine ⟨limit, .buffered, Json.leads_within hencloses limit .buffered
            ⟨some, fun j => ?_⟩⟩
          rw [Option.bind_fun_some, read?, memberPlace, form?, hown]
          rfl
        | streamed =>
          refine ⟨limit, .buffered, ⟨some, fun j => ?_⟩, fun _ => hencloses.inside⟩
          rw [Option.bind_fun_some, readAt?, within?, read?, memberPlace, form?, hown, contentAt?,
            within?, Json.buffer?]
          by_cases hreadable : j.isReadable limit = true
          · simp [hreadable, Json.alternative?]
          · simp [hreadable]

/-- A list is read only if what stands in one place of it is read. -/
theorem mapM_place {α β : Type} (f : α → Option β) (before after : List α) (a : α) :
    (before ++ a :: after).mapM f =
      (f a).bind fun b => (before.mapM f).bind fun bs => (after.mapM f).map fun cs =>
        bs ++ b :: cs := by
  rw [List.mapM_append, List.mapM_cons]
  cases f a with
  | none => cases before.mapM f <;> rfl
  | some b =>
    cases before.mapM f with
    | none => rfl
    | some bs => cases after.mapM f <;> rfl

/-- The array of a table, with a field between others. -/
def fieldPlace (name : String) (before after : List Json) (j : Json) : Json :=
  itemPlace before after (itemPlace [.string name] [] j)

/-- The documents with a place for an attribute in them: the place itself, and any spelling of an
array or a table that has such a document for one of its items or fields. -/
inductive Slot : (Json → Json) → Prop where
  | here : Slot fun j => j
  | item {around form : Json → Json} (before after : List Json) (hform : ContentPlace "array" form)
    (h : Slot around) : Slot fun j => form (itemPlace before after (around j))
  | field {around form : Json → Json} (name : String) (before after : List Json)
    (hform : ContentPlace "table" form) (h : Slot around) :
    Slot fun j => form (fieldPlace name before after (around j))

end Attribute

/-- What is read from a document with a place in it comes from the attribute in that place, wherever
this is read from; if there is no attribute, nothing is read. -/
def ReadsThrough {α : Type} (outer : Nat) (read : Json → Option α) (around : Json → Json) : Prop :=
  ∃ limit reading, Leads outer read around limit (Attribute.readAt? limit reading)

/-- What is read in the place of a table. -/
def Table.readAt? (limit : Nat) (reading : Json.Reading) : Json → Option Table :=
  within? limit reading (read? limit reading)

namespace Attribute

variable (limit : Nat) (reading : Json.Reading)

theorem content?_eq_table (content : Json) :
    content? limit reading "table" (some content) =
      (Table.read? limit reading content).map table := by
  cases limit with
  | zero => cases content <;> rfl
  | succ limit => cases content <;> rfl

theorem contentAt?_table (j : Json) :
    contentAt? limit reading "table" j =
      (Table.readAt? limit reading j).bind fun t => some (table t) := by
  cases reading with
  | streamed => exact (content?_eq_table limit .streamed j).trans Option.map_eq_bind
  | buffered =>
    simp only [contentAt?, Table.readAt?, within?, content?_eq_table, Option.map_eq_bind,
      Option.bind_assoc, Function.comp_def]

/-- What is read in the place of a field. -/
def fieldAt? : Json → Option (String × Attribute) :=
  within? limit reading (field? limit reading)

theorem leads_item (before after : List Json) :
    ∃ inner, Leads limit (contentAt? limit reading "array") (itemPlace before after) inner
      (readAt? inner reading) := by
  cases limit with
  | zero => exact ⟨0, Json.leads_zero reading (Json.not_isReadable_itemPlace _ _) fun j => rfl⟩
  | succ limit =>
    refine ⟨limit, Json.leads_within (Json.encloses_itemPlace before after) limit reading
      ⟨fun a => (before.mapM (read? limit reading)).bind fun as =>
        (after.mapM (read? limit reading)).map fun bs => array (as ++ a :: bs), fun j => ?_⟩⟩
    rw [itemPlace, content?_array, mapM_place]
    simp only [Option.map_bind, Option.map_map, Function.comp_def]

theorem leads_field (name : String) :
    ∃ inner, Leads limit (fieldAt? limit reading) (itemPlace [.string name] []) inner
      (readAt? inner reading) := by
  cases limit with
  | zero => exact ⟨0, Json.leads_zero reading (Json.not_isReadable_itemPlace _ _) fun j => rfl⟩
  | succ limit =>
    refine ⟨limit, Json.leads_within (Json.encloses_itemPlace _ _) limit reading
      ⟨fun a => some (name, a), fun j => ?_⟩⟩
    exact Option.map_eq_bind

end Attribute

namespace Table

open Attribute (fieldPlace fieldAt? mapM_place)

variable {around : Json → Json} (limit : Nat) (reading : Json.Reading)

theorem leads_field (name : String) (before after : List Json) :
    ∃ inner, Leads limit (readAt? limit reading) (fieldPlace name before after) inner
      (Attribute.readAt? inner reading) := by
  cases limit with
  | zero =>
    exact ⟨0, Json.leads_zero reading (fun j => Json.not_isReadable_itemPlace _ _ _) fun j => rfl⟩
  | succ limit =>
    have houter : Leads (limit + 1) (readAt? (limit + 1) reading) (itemPlace before after) limit
        (fieldAt? limit reading) := by
      refine Json.leads_within (Json.encloses_itemPlace before after) limit reading
        ⟨fun f => (before.mapM (Attribute.field? limit reading)).bind fun fs =>
          (after.mapM (Attribute.field? limit reading)).map fun gs => fs ++ f :: gs, fun j => ?_⟩
      exact mapM_place _ before after j
    obtain ⟨inner, hinner⟩ := Attribute.leads_field limit reading name
    exact ⟨inner, houter.trans hinner⟩

end Table

/-- Whatever stands around the place, the attribute in it is read first. -/
theorem Attribute.Slot.readsThrough {around : Json → Json} (h : Slot around) (limit : Nat)
    (reading : Json.Reading) : ReadsThrough limit (readAt? limit reading) around := by
  induction h generalizing limit reading with
  | here => exact ⟨limit, reading, .refl limit _⟩
  | @item around form before after hform _ ih =>
    obtain ⟨below, inside, hcontent⟩ := hform.leads limit reading
    obtain ⟨inner, hitem⟩ := leads_item below inside before after
    obtain ⟨last, lastReading, hlast⟩ := ih inner inside
    exact ⟨last, lastReading, (hcontent.trans hitem).trans hlast⟩
  | @field around form name before after hform _ ih =>
    obtain ⟨below, inside, hcontent⟩ := hform.leads limit reading
    obtain ⟨inner, hfield⟩ := Table.leads_field below inside name before after
    obtain ⟨last, lastReading, hlast⟩ := ih inner inside
    have htable := hfield.bind (fun t => some (table t)) fun j =>
      contentAt?_table below inside (fieldPlace name before after j)
    exact ⟨last, lastReading, (hcontent.trans htable).trans hlast⟩

/-! ## Places in a message -/

namespace Json

variable {name other : String} (before after : List (String × Json)) (j : Json)

theorem values_place_self :
    values name (before ++ (name, j) :: after) = values name before ++ j :: values name after := by
  simp [values]

theorem values_place_other (h : name ≠ other) :
    values name (before ++ (other, j) :: after) = values name (before ++ after) := by
  simp [values, Ne.symm h]

theorem member?_place_other (h : name ≠ other) :
    member? name (before ++ (other, j) :: after) = member? name (before ++ after) := by
  rw [member?, values_place_other before after j h, member?]

/-- A member among others of its own name is repeated, else it has its value. -/
theorem member?_place_self :
    member? name (before ++ (name, j) :: after) =
      if values name (before ++ after) = [] then some (some j) else none := by
  have hsplit : values name (before ++ after) = values name before ++ values name after := by
    simp [values]
  rw [member?, values_place_self, hsplit]
  cases values name before with
  | nil =>
    cases values name after with
    | nil => rfl
    | cons b bs => rfl
  | cons a as =>
    cases as with
    | nil => rfl
    | cons b bs => rfl

theorem mapM_member?_place {names : List String} (h : name ∉ names) :
    names.mapM (member? · (before ++ (name, j) :: after)) =
      names.mapM (member? · (before ++ after)) := by
  induction names with
  | nil => rfl
  | cons other names ih =>
    obtain ⟨hother, hnames⟩ := not_or.1 fun hor => h (List.mem_cons.2 hor)
    rw [List.mapM_cons, List.mapM_cons, ih hnames,
      member?_place_other before after j (Ne.symm hother)]

/-- A record has a tag and, for the last of its fields, what stands in the place; its other fields
are the same whatever stands there. -/
def Carries (tag : String) (names : List String) (name : String) (optional : Nat)
    (around : Json → Json) : Prop :=
  ∃ (record : Json → Json) (others : Option (List (Option Json))), ∀ j,
    tagged? "op" (around j) = some (tag, record j) ∧
      fields? (names ++ [name]) optional (record j) = others.map (· ++ [some j])

variable {tag : String} {names : List String}

theorem carries_memberPlace (htag : values "op" (before ++ after) = [.string tag])
    (hname : "op" ≠ name) (hnames : name ∉ names) (optional : Nat) :
    Carries tag names name optional fun j => memberPlace before after j name := by
  let rest := before.filter (·.1 != "op") ++ after.filter (·.1 != "op")
  refine ⟨fun j => memberPlace (before.filter (·.1 != "op")) (after.filter (·.1 != "op")) j name,
    if values name rest = [] then names.mapM (member? · rest) else none, fun j => ⟨?_, ?_⟩⟩
  · simp [memberPlace, tagged?, values_place_other before after j hname, htag, Ne.symm hname]
  · simp only [memberPlace, fields?, List.mapM_append, mapM_member?_place _ _ _ hnames,
      List.mapM_cons, List.mapM_nil, member?_place_self]
    by_cases hnone : values name rest = []
    · rw [if_pos hnone, if_pos hnone]
      cases names.mapM (member? · rest) <;> rfl
    · rw [if_neg hnone, if_neg hnone]
      cases names.mapM (member? · rest) <;> rfl

/-- In the array form all fields are given in their order. -/
theorem carries_array {items : List Json} (h : items.length = names.length) (optional : Nat) :
    Carries tag names name optional fun j => array (.string tag :: items ++ [j]) := by
  refine ⟨fun j => array (items ++ [j]), some (items.map some), fun j => ⟨rfl, ?_⟩⟩
  simp [fields?, h]

end Json

namespace Table

/-- The documents of a table with a place for an attribute in them. -/
inductive Slot : (Json → Json) → Prop where
  | field {around : Json → Json} (name : String) (before after : List Json)
    (h : Attribute.Slot around) : Slot fun j => Attribute.fieldPlace name before after (around j)

/-- What is read in the place of a payload that may be missing. -/
def optionalAt? (limit : Nat) (reading : Json.Reading) : Json → Option (Option Table) :=
  within? limit reading fun j => readOptional? limit reading (some j)

variable {around : Json → Json}

theorem Slot.readsThrough (h : Slot around) (limit : Nat) (reading : Json.Reading) :
    ReadsThrough limit (readAt? limit reading) around := by
  obtain ⟨name, before, after, h⟩ := h
  obtain ⟨inner, hfield⟩ := leads_field limit reading name before after
  obtain ⟨last, lastReading, hlast⟩ := h.readsThrough inner reading
  exact ⟨last, lastReading, hfield.trans hlast⟩

/-- A payload with a place in it is not missing. -/
theorem Slot.readsOptional (h : Slot around) (limit : Nat) (reading : Json.Reading) :
    ReadsThrough limit (optionalAt? limit reading) around := by
  obtain ⟨last, lastReading, hlast⟩ := h.readsThrough limit reading
  refine ⟨last, lastReading, hlast.bind (fun table => some (some table)) fun j => ?_⟩
  obtain ⟨name, before, after, -⟩ := h
  cases reading with
  | streamed => exact Option.map_eq_bind
  | buffered =>
    rw [optionalAt?, readAt?, within?, within?, Json.buffer?]
    split
    · exact Option.map_eq_bind
    · rfl

end Table

/-- A call reads its payload first. -/
theorem ServerFrame.readsThrough {around payload : Json → Json} (haround : Encloses around)
    (h : Json.Carries "call" ["id", "object", "method"] "data" 1 around)
    (hpayload : Table.Slot payload) :
    ReadsThrough Json.nestingLimit ServerFrame.ofJson? fun j => around (payload j) := by
  obtain ⟨inner, reading, hinner⟩ := hpayload.readsOptional payloadLimit .buffered
  refine ⟨inner, reading, .trans (Json.leads_within haround payloadLimit .buffered ?_) hinner⟩
  obtain ⟨record, others, h⟩ := h
  by_cases hshape : ∃ id object method,
      others = some [some id, some (.string object), some (.string method)]
  · obtain ⟨id, object, method, rfl⟩ := hshape
    refine ⟨fun data => id.word?.map fun id => ServerFrame.call ⟨id, object, method, data⟩,
      fun j => ?_⟩
    obtain ⟨htag, hfields⟩ := h j
    simp only [List.cons_append, List.nil_append, Option.map_some] at hfields
    simp only [ServerFrame.ofBuffer?, htag, hfields]
    cases id.word? with
    | none => cases Table.readOptional? payloadLimit .buffered (some j) <;> rfl
    | some id => cases Table.readOptional? payloadLimit .buffered (some j) <;> rfl
  · -- With members of another shape it is no call, whatever its payload is.
    refine ⟨fun _ => none, fun j => ?_⟩
    obtain ⟨htag, hfields⟩ := h j
    simp only [List.cons_append, List.nil_append] at hfields
    simp only [ServerFrame.ofBuffer?, htag, hfields, Option.bind_fun_none]
    split
    · rename_i id object method data hothers
      obtain ⟨front, rfl, happend⟩ := Option.map_eq_some_iff.1 hothers
      have hsplit : front ++ [some j] =
          [some id, some (.string object), some (.string method)] ++ [data] := happend
      exact absurd ⟨id, object, method, congrArg some (List.append_inj_left' hsplit rfl)⟩ hshape
    · rfl

/-- So does the data of a reply. -/
theorem ClientFrame.readsThrough {around payload : Json → Json} (haround : Encloses around)
    (h : Json.Carries "data" ["id"] "data" 0 around) (hpayload : Table.Slot payload) :
    ReadsThrough Json.nestingLimit ClientFrame.ofJson? fun j => around (payload j) := by
  obtain ⟨inner, reading, hinner⟩ := hpayload.readsThrough payloadLimit .buffered
  refine ⟨inner, reading, .trans (Json.leads_within haround payloadLimit .buffered ?_) hinner⟩
  obtain ⟨record, others, h⟩ := h
  by_cases hshape : ∃ id, others = some [some id]
  · obtain ⟨id, rfl⟩ := hshape
    refine ⟨fun table => id.word?.map fun id => ClientFrame.data id table, fun j => ?_⟩
    obtain ⟨htag, hfields⟩ := h j
    simp only [List.cons_append, List.nil_append, Option.map_some] at hfields
    simp only [ClientFrame.ofBuffer?, htag, hfields]
    cases id.word? with
    | none => cases Table.read? payloadLimit .buffered j <;> rfl
    | some id => cases Table.read? payloadLimit .buffered j <;> rfl
  · refine ⟨fun _ => none, fun j => ?_⟩
    obtain ⟨htag, hfields⟩ := h j
    simp only [List.cons_append, List.nil_append] at hfields
    simp only [ClientFrame.ofBuffer?, htag, hfields, Option.bind_fun_none]
    split
    · rename_i id table hothers
      obtain ⟨front, rfl, happend⟩ := Option.map_eq_some_iff.1 hothers
      have hsplit : front ++ [some j] = [some id] ++ [some table] := happend
      exact absurd ⟨id, congrArg some (List.append_inj_left' hsplit rfl)⟩ hshape
    · rfl

namespace Wire

variable {α : Type} {around : Json → Json}

/-- The documents of what travels with a place for an attribute in their payload: an attribute, a
table, and a reply's data or a call in the object form or in the array form. -/
inductive Slot : {α : Type} → Wire α → (Json → Json) → Prop where
  | attr {around : Json → Json} (h : Attribute.Slot around) : Slot .attr around
  | table {around : Json → Json} (h : Table.Slot around) : Slot .table around
  | data {around : Json → Json} (before after : List (String × Json))
    (htag : Json.values "op" (before ++ after) = [.string "data"]) (h : Table.Slot around) :
    Slot .clientFrame fun j => Json.memberPlace before after (around j) "data"
  | dataArray {around : Json → Json} (id : Json) (h : Table.Slot around) :
    Slot .clientFrame fun j => .array [.string "data", id, around j]
  | call {around : Json → Json} (before after : List (String × Json))
    (htag : Json.values "op" (before ++ after) = [.string "call"]) (h : Table.Slot around) :
    Slot .serverFrame fun j => Json.memberPlace before after (around j) "data"
  | callArray {around : Json → Json} (id object method : Json) (h : Table.Slot around) :
    Slot .serverFrame fun j => .array [.string "call", id, object, method, around j]

theorem Slot.readsThrough {w : Wire α} (h : w.Slot around) :
    ReadsThrough Json.nestingLimit w.read? around := by
  cases h with
  | attr h => exact h.readsThrough Json.nestingLimit .streamed
  | table h => exact h.readsThrough Json.nestingLimit .streamed
  | data before after htag h =>
    exact ClientFrame.readsThrough (Json.encloses_memberPlace before after "data")
      (Json.carries_memberPlace before after htag (by decide) (by decide) 0) h
  | dataArray id h =>
    have hlength : [id].length = ["id"].length := rfl
    exact ClientFrame.readsThrough (Json.encloses_itemPlace [.string "data", id] [])
      (Json.carries_array hlength 0) h
  | call before after htag h =>
    exact ServerFrame.readsThrough (Json.encloses_memberPlace before after "data")
      (Json.carries_memberPlace before after htag (by decide) (by decide) 1) h
  | callArray id object method h =>
    have hlength : [id, object, method].length = ["id", "object", "method"].length := rfl
    exact ServerFrame.readsThrough
      (Json.encloses_itemPlace [.string "call", id, object, method] [])
      (Json.carries_array hlength 1) h

/-- What a document is decoded to. -/
def accept (w : Wire α) (j : Json) : Except BusError α :=
  (w.read? j).elim (.error .malformedFrame) .ok

theorem decode_of_parse (w : Wire α) {text : String} {j : Json}
    (h : Json.parse text.toList = some j) : w.decode text = w.accept j := by
  rw [decode, h, Option.bind_some, accept]
  cases w.read? j <;> rfl

variable {kind : String} {content : Option Json} {j : Json}

/-- A message with an attribute of an unknown kind: with no content or null it is taken for the
message that says unknown there, if all of it can be read; else for no message. -/
theorem accept_foreign {w : Wire α} (h : w.Slot around) (hkind : kind ∉ Attribute.knownKinds)
    (hj : Attribute.Spells kind content j) :
    if Attribute.isVacant content then
      (around j).isReadable Json.nestingLimit = true →
        w.accept (around j) = w.accept (around Attribute.unknown.toJson)
    else w.accept (around j) = .error .malformedFrame := by
  obtain ⟨limit, reading, hleads⟩ := h.readsThrough
  obtain ⟨rest, hrest⟩ := hleads.reads
  rw [accept, accept, hrest, hrest]
  have hread := Attribute.readAt?_foreign hkind hj limit reading
  by_cases hvacant : Attribute.isVacant content = true
  · rw [if_pos hvacant] at hread ⊢
    intro hreadable
    rw [hread (hleads.readable j hreadable)]
  · rw [if_neg hvacant] at hread ⊢
    rw [hread]
    rfl

end Wire

namespace Stream

variable {kind : String} {content : Option Json} {j : Json}

/-- What a line that is not blank gives to the client. -/
theorem outcome?_of_parse {line : List Char} (hline : line.all Text.isBlank = false) {j : Json}
    (h : Json.parse line = some j) :
    outcome? line = match Wire.serverFrame.accept j with
      | .ok (.call r) => some (.call r)
      | .error e => some (.failed e) := by
  have hparse : Json.parse (String.ofList line).toList = some j := by rwa [String.toList_ofList]
  have hdecode := Wire.serverFrame.decode_of_parse hparse
  cases haccept : Wire.serverFrame.accept j with
  | error e => simp [outcome?, hline, hdecode, haccept]
  | ok frame =>
    cases frame with
    | call r => simp [outcome?, hline, hdecode, haccept]

/--
An attribute of a kind that is not known is read as unknown if its content is missing or null, and
is no attribute otherwise. Whatever message it is part of, and wherever it stands in the payload,
the message depends on it only by what is read from it: it is decoded as the message with unknown in
that place, or not at all. A message of which some part cannot be read is not looked at here, unless
it is refused for the attribute.

So a client takes a line with such an attribute for the call with unknown in its place if there is
no content, and for no frame if there is any; then a session drops the connection it serves.
-/
theorem outcome?_foreign (hkind : kind ∉ Attribute.knownKinds)
    (hj : Attribute.Spells kind content j) :
    (∀ (limit : Nat) (reading : Json.Reading), Attribute.read? (limit + 1) reading j =
        if Attribute.isVacant content then some .unknown else none) ∧
      (∀ (α : Type) (w : Wire α) (around : Json → Json), w.Slot around →
        ReadsThrough Json.nestingLimit w.read? around ∧
          ∀ text : String, Json.parse text.toList = some (around j) →
            if Attribute.isVacant content then
              (around j).isReadable Json.nestingLimit = true →
                w.decode text = w.accept (around Attribute.unknown.toJson)
            else w.decode text = .error .malformedFrame) ∧
      (∀ call : Json → Json, Wire.serverFrame.Slot call →
        ∀ line : List Char, Json.parse line = some (call j) → line.all Text.isBlank = false →
          if Attribute.isVacant content then
            (call j).isReadable Json.nestingLimit = true →
              ∀ r, ServerFrame.ofJson? (call Attribute.unknown.toJson) = some (.call r) →
                outcome? line = some (.call r)
          else
            outcome? line = some (.failed .malformedFrame) ∧
              ∀ (s : Session) (c : ConnectionId) (now : Nat), s.stage = .serving c →
                .dropped c ∈ (s.step now (.receiveFailed .malformedFrame)).1) := by
  refine ⟨Attribute.read?_foreign hkind hj, ?_, ?_⟩
  · intro α w around hslot
    refine ⟨hslot.readsThrough, fun text htext => ?_⟩
    rw [w.decode_of_parse htext]
    exact Wire.accept_foreign hslot hkind hj
  · intro call hslot line hparse hline
    have haccept := Wire.accept_foreign hslot hkind hj
    split
    · rename_i hvacant
      intro hreadable r hr
      have hcall : Wire.serverFrame.accept (call Attribute.unknown.toJson) = .ok (.call r) := by
        rw [Wire.accept, Wire.read?, hr, Option.elim_some]
      rw [if_pos hvacant, hcall] at haccept
      rw [outcome?_of_parse hline hparse, haccept hreadable]
    · rename_i hfull
      rw [if_neg hfull] at haccept
      refine ⟨by rw [outcome?_of_parse hline hparse, haccept], fun s c now hstage => ?_⟩
      simp [Session.step, hstage, Session.lose]

/-- A call with a place for an attribute in an array in its payload. -/
def nestedCall (j : Json) : Json :=
  memberPlace [("op", .string "call"), ("id", .int 1), ("object", .string "svc"),
    ("method", .string "set")] []
    (Attribute.fieldPlace "b" [.array [.string "a", Attribute.toJson (.int32 1)]] []
      (Attribute.toJson.content "array" (itemPlace [] [Attribute.toJson (.bool true)] j)))
    "data"

theorem nestedCall_slot : Wire.serverFrame.Slot nestedCall := by
  have harray : Attribute.ContentPlace "array" (Attribute.toJson.content "array") :=
    .object [("type", .string "array")] [] rfl rfl
  exact .call _ _ rfl (.field "b" _ _ (.item [] _ harray .here))

/-- What the call says with unknown in the place. -/
theorem ofJson?_nestedCall : ServerFrame.ofJson? (nestedCall Attribute.unknown.toJson) =
    some (.call ⟨1, "svc", "set",
      some [("a", .int32 1), ("b", .array [.unknown, .bool true])]⟩) := by
  let frame : ServerFrame := .call ⟨1, "svc", "set",
    some [("a", .int32 1), ("b", .array [.unknown, .bool true])]⟩
  have hwritable : (Wire.serverFrame.toJson frame).Writable :=
    Wire.serverFrame.writable_toJson (by decide +kernel)
  have hread := Wire.serverFrame.read?_asWritten hwritable
  rw [if_pos (by decide +kernel)] at hread
  exact hread

/-- The text of such a call is read as the call. -/
theorem parse_nestedCall {j : Json} (hj : j.Writable) (hsame : j.asWritten = j) :
    Json.parse (nestedCall j).render = some (nestedCall j) := by
  have hwritable : (nestedCall j).Writable := by
    simp [nestedCall, memberPlace, Attribute.fieldPlace, itemPlace, Json.Writable,
      Json.ItemsWritable, Json.MembersWritable, Attribute.toJson, Attribute.toJson.content, hj]
  have hwritten : (nestedCall j).asWritten = nestedCall j := by
    simp [nestedCall, memberPlace, Attribute.fieldPlace, itemPlace, Json.asWritten,
      Json.itemsAsWritten, Json.membersAsWritten, Attribute.toJson, Attribute.toJson.content, hsame]
  rw [Json.parse_render hwritable, hwritten]

/-- A pair of a kind and null is read as unknown in the middle of a payload, a kind with a number
makes the call no frame. -/
theorem outcome?_foreign_int8 :
    outcome? (nestedCall (.array [.string "int8", .null])).render =
        some (.call ⟨1, "svc", "set",
          some [("a", .int32 1), ("b", .array [.unknown, .bool true])]⟩) ∧
      outcome? (nestedCall (.object [("value", .int 5), ("type", .string "int8")])).render =
        some (.failed .malformedFrame) := by
  have hnull : Attribute.Spells "int8" (some .null) (.array [.string "int8", .null]) :=
    ⟨.null, rfl, rfl⟩
  have hnumber : Attribute.Spells "int8" (some (.int 5))
      (.object [("value", .int 5), ("type", .string "int8")]) := ⟨rfl, rfl⟩
  refine ⟨?_, ?_⟩
  · have hread := (outcome?_foreign (by decide) hnull).2.2 nestedCall nestedCall_slot _
      (parse_nestedCall ⟨trivial, trivial, trivial⟩ rfl) (by decide +kernel)
    exact hread (by decide +kernel) _ ofJson?_nestedCall
  · have hread := (outcome?_foreign (by decide) hnumber).2.2 nestedCall nestedCall_slot _
      (parse_nestedCall ⟨⟨by decide, by decide⟩, trivial, trivial⟩ rfl) (by decide +kernel)
    exact hread.1

/-- The text of a call, with a given spelling for the second of its two fields. -/
def foreignCall (spelling : String) : String :=
  "\x7b\"op\":\"call\",\"id\":1,\"object\":\"svc\",\"method\":\"set\",\"data\":[[\"a\"," ++
    "\x7b\"type\":\"int32\",\"value\":1\x7d],[\"b\"," ++ spelling ++ "]]\x7d"

/-- A call is refused for a number of a kind that is not known, and is read without the number. -/
theorem foreignCall_refused :
    "int8" ∉ Attribute.knownKinds ∧
      (Attribute.read? Json.nestingLimit .streamed
        (.object [("type", .string "int8"), ("value", .int 5)])).isNone = true ∧
      (Wire.serverFrame.decode
        (foreignCall "\x7b\"type\":\"int8\",\"value\":5\x7d")).toOption.isNone = true ∧
      (Wire.serverFrame.decode
        (foreignCall "\x7b\"type\":\"int8\"\x7d")).toOption.isSome = true := by
  decide +kernel

end Stream

end ScriptService
