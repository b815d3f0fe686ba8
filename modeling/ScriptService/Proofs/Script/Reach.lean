import ScriptService.Script.Value

/-!
# Objects that values lead to

An object is alive as long as some value leads to it: through the items of arrays, the fields of
maps and tables, the values that a function brings along, and shared cells, at any depth. The labels
that are counted are those of the objects that a list of values leads to, each object once.

Main statements: `Value.mem_objects_iff` and `Value.liveLabels_perm`.
-/

namespace ScriptService

/-- A list without its repetitions has none. -/
theorem nodup_eraseDups {α : Type} [BEq α] [LawfulBEq α] (l : List α) : l.eraseDups.Nodup := by
  match l with
  | [] => simp
  | a :: rest =>
    rw [List.eraseDups_cons, List.nodup_cons]
    refine ⟨?_, nodup_eraseDups _⟩
    intro hmem
    have hother := (List.mem_filter.1 (List.mem_eraseDups.1 hmem)).2
    simp at hother
termination_by l.length
decreasing_by
  have hle := List.length_filter_le (fun b => !b == a) rest
  simp only [List.length_cons]
  omega

namespace Value

/-- A value leads to an object, which has an identity and a label. -/
inductive Reaches : Value → Nat × String → Prop where
  | object (id : Nat) (label : String) : Reaches (.object id label) (id, label)
  | item {items : List Value} {v : Value} {o : Nat × String} (hmem : v ∈ items)
      (hv : Reaches v o) : Reaches (.array items) o
  | field {fields : List (String × Value)} {name : String} {v : Value} {o : Nat × String}
      (hmem : (name, v) ∈ fields) (hv : Reaches v o) : Reaches (.map fields) o
  | entry {fields : List (String × Value)} {name : String} {v : Value} {o : Nat × String}
      (hmem : (name, v) ∈ fields) (hv : Reaches v o) : Reaches (.table fields) o
  | curried {name : String} {curried : List Value} {v : Value} {o : Nat × String}
      (hmem : v ∈ curried) (hv : Reaches v o) : Reaches (.function name curried) o
  | shared {v : Value} {o : Nat × String} (hv : Reaches v o) : Reaches (.shared v) o

variable {o : Nat × String}

theorem mem_objectsOfItems {vs : List Value} :
    o ∈ objectsOfItems vs ↔ ∃ v ∈ vs, o ∈ v.objects := by
  induction vs with
  | nil => simp [objectsOfItems]
  | cons v vs ih => simp [objectsOfItems, ih]

theorem mem_objectsOfFields {fields : List (String × Value)} :
    o ∈ objectsOfFields fields ↔ ∃ name v, (name, v) ∈ fields ∧ o ∈ v.objects := by
  induction fields with
  | nil => simp [objectsOfFields]
  | cons f fields ih =>
    rw [objectsOfFields, List.mem_append, ih]
    constructor
    · rintro (ho | ⟨name, v, hmem, ho⟩)
      · exact ⟨f.1, f.2, List.mem_cons_self, ho⟩
      · exact ⟨name, v, List.mem_cons_of_mem f hmem, ho⟩
    · rintro ⟨name, v, hmem, ho⟩
      rcases List.mem_cons.1 hmem with rfl | hmem
      · exact Or.inl ho
      · exact Or.inr ⟨name, v, hmem, ho⟩

theorem Reaches.mem_objects {v : Value} (hv : v.Reaches o) : o ∈ v.objects := by
  induction hv with
  | object id label => simp [objects]
  | item hmem _ ih =>
    rw [objects]
    exact mem_objectsOfItems.2 ⟨_, hmem, ih⟩
  | field hmem _ ih =>
    rw [objects]
    exact mem_objectsOfFields.2 ⟨_, _, hmem, ih⟩
  | entry hmem _ ih =>
    rw [objects]
    exact mem_objectsOfFields.2 ⟨_, _, hmem, ih⟩
  | curried hmem _ ih =>
    rw [objects]
    exact mem_objectsOfItems.2 ⟨_, hmem, ih⟩
  | shared _ ih =>
    rw [objects]
    exact ih

mutual

theorem reaches_of_mem_objects : ∀ v : Value, o ∈ v.objects → v.Reaches o
  | .array items, ho => by
    rw [objects] at ho
    obtain ⟨v, hmem, hv⟩ := reaches_of_mem_items items ho
    exact .item hmem hv
  | .map fields, ho => by
    rw [objects] at ho
    obtain ⟨name, v, hmem, hv⟩ := reaches_of_mem_fields fields ho
    exact .field hmem hv
  | .table fields, ho => by
    rw [objects] at ho
    obtain ⟨name, v, hmem, hv⟩ := reaches_of_mem_fields fields ho
    exact .entry hmem hv
  | .function name curried, ho => by
    rw [objects] at ho
    obtain ⟨v, hmem, hv⟩ := reaches_of_mem_items curried ho
    exact .curried hmem hv
  | .object id label, ho => by
    rw [objects, List.mem_singleton] at ho
    rw [ho]
    exact .object id label
  | .shared v, ho => by
    rw [objects] at ho
    exact .shared (reaches_of_mem_objects v ho)
  | .unit, ho => by simp [objects] at ho
  | .bool _, ho => by simp [objects] at ho
  | .int _, ho => by simp [objects] at ho
  | .float _, ho => by simp [objects] at ho
  | .char _, ho => by simp [objects] at ho
  | .string _, ho => by simp [objects] at ho
  | .blob _, ho => by simp [objects] at ho

theorem reaches_of_mem_items : ∀ vs : List Value, o ∈ objectsOfItems vs → ∃ v ∈ vs, v.Reaches o
  | [], ho => by simp [objectsOfItems] at ho
  | v :: vs, ho => by
    rw [objectsOfItems, List.mem_append] at ho
    rcases ho with ho | ho
    · exact ⟨v, List.mem_cons_self, reaches_of_mem_objects v ho⟩
    · obtain ⟨w, hmem, hw⟩ := reaches_of_mem_items vs ho
      exact ⟨w, List.mem_cons_of_mem v hmem, hw⟩

theorem reaches_of_mem_fields : ∀ fields : List (String × Value), o ∈ objectsOfFields fields →
    ∃ name v, (name, v) ∈ fields ∧ v.Reaches o
  | [], ho => by simp [objectsOfFields] at ho
  | (name, v) :: fields, ho => by
    rw [objectsOfFields, List.mem_append] at ho
    rcases ho with ho | ho
    · exact ⟨name, v, List.mem_cons_self, reaches_of_mem_objects v ho⟩
    · obtain ⟨other, w, hmem, hw⟩ := reaches_of_mem_fields fields ho
      exact ⟨other, w, List.mem_cons_of_mem _ hmem, hw⟩

end

/-- The objects that are counted of a value are those that it leads to. -/
theorem mem_objects_iff {v : Value} : o ∈ v.objects ↔ v.Reaches o :=
  ⟨reaches_of_mem_objects v, Reaches.mem_objects⟩

/-- The labels of a list of values are those of the objects that the values lead to, each object
once. -/
theorem liveLabels_perm (values : List Value) : ∃ objects : List (Nat × String), objects.Nodup ∧
    (∀ o, o ∈ objects ↔ ∃ v ∈ values, v.Reaches o) ∧
      (liveLabels values).Perm (objects.map (·.2)) := by
  refine ⟨(objectsOfItems values).eraseDups, nodup_eraseDups _, ?_, List.mergeSort_perm _ _⟩
  intro o
  rw [List.mem_eraseDups, mem_objectsOfItems]
  simp only [mem_objects_iff]

end Value
end ScriptService
