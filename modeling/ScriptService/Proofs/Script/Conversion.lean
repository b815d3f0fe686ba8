import Mathlib.Data.List.Nodup
import ScriptService.Script.Conversion

/-!
# Attributes that pass through a script

An attribute that becomes a script value and goes out again comes back in a normal form: what
scripts cannot represent is gone, integers have the narrower of two widths, and every table has each
of its names once.

Main statement: `Attribute.passes_normal`.
-/

namespace ScriptService

namespace Attribute

/-! ## Normal forms -/

mutual
/-- What is left of an attribute when a script has seen it. -/
def normal? : Attribute → Option Attribute
  | bool b => some (bool b)
  | int16 i => some (integer (.ofInt i.toInt))
  | int32 i => some (int32 i)
  | int64 i => some (integer i)
  | double x => some (double x)
  | string s => some (string s)
  | array items => some (array (normalItems items))
  | table fields => some (table (normalFields [] fields))
  | unspec => none
  | unknown => none

def normalItems : List Attribute → List Attribute
  | [] => []
  | a :: rest => (normal? a).toList ++ normalItems rest

/-- The first field of every name that was not seen before. A name counts as seen even if nothing is
left of its first field. -/
def normalFields (seen : List String) : List (String × Attribute) → List (String × Attribute)
  | [] => []
  | (name, a) :: rest =>
    if name ∈ seen then normalFields seen rest
    else ((normal? a).toList.map fun b => (name, b)) ++ normalFields (name :: seen) rest
end

mutual
/-- An attribute that goes out as it came in. -/
def IsNormal : Attribute → Prop
  | int16 _ => False
  | int64 i => i.toInt < -2147483648 ∨ 2147483647 < i.toInt
  | array items => AreNormal items
  | table fields => (fields.map (·.1)).Nodup ∧ FieldsNormal fields
  | unspec => False
  | unknown => False
  | _ => True

def AreNormal : List Attribute → Prop
  | [] => True
  | a :: rest => IsNormal a ∧ AreNormal rest

def FieldsNormal : List (String × Attribute) → Prop
  | [] => True
  | (_, a) :: rest => IsNormal a ∧ FieldsNormal rest
end

/-! ## Widths -/

theorem toInt_ofInt_int32 (i : Int32) : (Int64.ofInt i.toInt).toInt = i.toInt := by
  have hlow := i.le_toInt
  have hhigh := i.toInt_lt
  exact Int64.toInt_ofInt_of_le (by omega) (by omega)

/-- A number of 32 bits keeps its width. -/
theorem integer_int32 (i : Int32) : integer (.ofInt i.toInt) = int32 i := by
  have hlow := i.le_toInt
  have hhigh := i.toInt_lt
  have hfits : -2147483648 ≤ i.toInt ∧ i.toInt ≤ 2147483647 := by omega
  rw [integer, toInt_ofInt_int32, if_pos hfits, Int32.ofInt_toInt]

theorem integer_isNormal (i : Int64) : (integer i).IsNormal := by
  unfold integer
  split
  · rw [IsNormal]
    · trivial
    all_goals simp
  · rw [IsNormal]
    omega

theorem integer_of_isNormal {i : Int64} (h : (int64 i).IsNormal) : integer i = int64 i := by
  rw [IsNormal] at h
  have hwide : ¬(-2147483648 ≤ i.toInt ∧ i.toInt ≤ 2147483647) := by omega
  rw [integer, if_neg hwide]

/-! ## What is left is normal -/

/-- What is left of fields has none of the names seen before. -/
theorem not_mem_normalFields {seen : List String} (fields : List (String × Attribute))
    {name : String} (h : name ∈ seen) : name ∉ (normalFields seen fields).map (·.1) := by
  induction fields generalizing seen with
  | nil => simp [normalFields]
  | cons f rest ih =>
    rcases f with ⟨n, a⟩
    rw [normalFields]
    split
    · exact ih h
    · rename_i hnew
      have hne : name ≠ n := fun heq => hnew (heq ▸ h)
      rw [List.map_append, List.mem_append, not_or]
      refine ⟨?_, ih (List.mem_cons_of_mem n h)⟩
      intro hmem
      rcases List.mem_map.1 hmem with ⟨f, hf, rfl⟩
      rcases List.mem_map.1 hf with ⟨b, -, rfl⟩
      exact hne rfl

theorem nodup_normalFields (seen : List String) (fields : List (String × Attribute)) :
    ((normalFields seen fields).map (·.1)).Nodup := by
  induction fields generalizing seen with
  | nil => simp [normalFields]
  | cons f rest ih =>
    rcases f with ⟨n, a⟩
    rw [normalFields]
    split
    · exact ih seen
    · -- The name is seen from here on.
      have hseen : n ∈ n :: seen := List.mem_cons_self
      have hnone := not_mem_normalFields rest hseen
      cases normal? a with
      | none => simpa using ih (n :: seen)
      | some b => simpa using ⟨by simpa using hnone, by simpa using ih (n :: seen)⟩

mutual
theorem isNormal_of_normal? : ∀ {a b : Attribute}, normal? a = some b → b.IsNormal
  | bool _, _, h => by cases h; simp [IsNormal]
  | int16 _, _, h => by cases h; exact integer_isNormal _
  | int32 _, _, h => by cases h; simp [IsNormal]
  | int64 _, _, h => by cases h; exact integer_isNormal _
  | double _, _, h => by cases h; simp [IsNormal]
  | string _, _, h => by cases h; simp [IsNormal]
  | array items, _, h => by
    cases h
    rw [IsNormal]
    exact areNormal_normalItems items
  | table fields, _, h => by
    cases h
    rw [IsNormal]
    exact ⟨nodup_normalFields [] fields, fieldsNormal_normalFields [] fields⟩
  | unspec, _, h => by cases h
  | unknown, _, h => by cases h

theorem areNormal_normalItems : ∀ items : List Attribute, AreNormal (normalItems items)
  | [] => by simp [normalItems, AreNormal]
  | a :: rest => by
    have hrest := areNormal_normalItems rest
    rw [normalItems]
    cases ha : normal? a with
    | none => simpa using hrest
    | some b => simpa [AreNormal] using ⟨isNormal_of_normal? ha, hrest⟩

theorem fieldsNormal_normalFields :
    ∀ (seen : List String) (fields : List (String × Attribute)),
      FieldsNormal (normalFields seen fields)
  | _, [] => by simp [normalFields, FieldsNormal]
  | seen, (name, a) :: rest => by
    rw [normalFields]
    split
    · exact fieldsNormal_normalFields seen rest
    · have hrest := fieldsNormal_normalFields (name :: seen) rest
      cases ha : normal? a with
      | none => simpa using hrest
      | some b => simpa [FieldsNormal] using ⟨isNormal_of_normal? ha, hrest⟩
end

/-! ## Normal attributes stay as they are -/

mutual
theorem normal?_of_isNormal : ∀ {a : Attribute}, a.IsNormal → normal? a = some a
  | bool _, _ => rfl
  | int16 _, h => by simp [IsNormal] at h
  | int32 _, _ => rfl
  | int64 i, h => by rw [normal?, integer_of_isNormal h]
  | double _, _ => rfl
  | string _, _ => rfl
  | array items, h => by
    rw [IsNormal] at h
    rw [normal?, normalItems_of_areNormal h]
  | table fields, h => by
    rw [IsNormal] at h
    rw [normal?, normalFields_of_fieldsNormal h.2 h.1 (by simp)]
  | unspec, h => by simp [IsNormal] at h
  | unknown, h => by simp [IsNormal] at h

theorem normalItems_of_areNormal : ∀ {items : List Attribute},
    AreNormal items → normalItems items = items
  | [], _ => rfl
  | a :: rest, h => by
    rw [AreNormal] at h
    rw [normalItems, normal?_of_isNormal h.1, normalItems_of_areNormal h.2]
    rfl

theorem normalFields_of_fieldsNormal : ∀ {fields : List (String × Attribute)} {seen : List String},
    FieldsNormal fields → (fields.map (·.1)).Nodup → (∀ n ∈ fields.map (·.1), n ∉ seen) →
      normalFields seen fields = fields
  | [], _, _, _, _ => rfl
  | (name, a) :: rest, seen, h, hnames, hnew => by
    rw [FieldsNormal] at h
    rw [List.map_cons, List.nodup_cons] at hnames
    have hname : name ∉ seen := hnew name (by simp)
    have hrest : ∀ n ∈ rest.map (·.1), n ∉ name :: seen := by
      intro n hn
      rw [List.mem_cons, not_or]
      refine ⟨?_, hnew n (List.mem_cons_of_mem name hn)⟩
      rintro rfl
      exact hnames.1 hn
    rw [normalFields, if_neg hname, normal?_of_isNormal h.1,
      normalFields_of_fieldsNormal h.2 hnames.2 hrest]
    rfl
end

/-- The normal form of a normal form is itself. -/
theorem normal?_normal? (a : Attribute) : a.normal?.bind normal? = a.normal? := by
  cases ha : normal? a with
  | none => rfl
  | some b => exact normal?_of_isNormal (isNormal_of_normal? ha)

theorem normal?_eq_self_iff {a : Attribute} : a.normal? = some a ↔ a.IsNormal :=
  ⟨isNormal_of_normal?, normal?_of_isNormal⟩

end Attribute

/-! ## Through a script and back -/

namespace Value

open Attribute (normal? normalItems normalFields)

theorem attributes_cons (v : Value) (rest : List Value) :
    attributes (v :: rest) = v.toAttribute?.toList ++ attributes rest := by
  rw [attributes]
  cases v.toAttribute? with
  | none => rfl
  | some a => rfl

theorem attributeFields_append (fields more : List (String × Value)) :
    attributeFields (fields ++ more) = attributeFields fields ++ attributeFields more := by
  induction fields with
  | nil => rfl
  | cons f rest ih =>
    rcases f with ⟨name, v⟩
    rw [List.cons_append, attributeFields, attributeFields, ih]
    cases v.toAttribute? with
    | none => rfl
    | some a => rfl

theorem attributeFields_singleton (name : String) (v : Value) :
    attributeFields [(name, v)] = v.toAttribute?.toList.map fun a => (name, a) := by
  rw [attributeFields]
  cases v.toAttribute? with
  | none => rfl
  | some a => rfl

mutual
theorem toAttribute?_ofAttribute : ∀ a : Attribute, (ofAttribute a).toAttribute? = a.normal?
  | .bool _ => rfl
  | .int16 _ => rfl
  | .int32 i => by rw [ofAttribute, toAttribute?, Attribute.integer_int32, normal?]
  | .int64 _ => rfl
  | .double _ => rfl
  | .string _ => rfl
  | .array items => by rw [ofAttribute, toAttribute?, attributes_ofItems items, normal?]
  | .table fields => by
    rw [ofAttribute, toAttribute?, attributeFields_ofFields fields [], normal?]
    rfl
  | .unspec => rfl
  | .unknown => rfl

theorem attributes_ofItems : ∀ items : List Attribute,
    attributes (ofItems items) = normalItems items
  | [] => rfl
  | a :: rest => by
    rw [ofItems, attributes_cons, toAttribute?_ofAttribute a, attributes_ofItems rest, normalItems]

/-- The names seen so far are those of the fields that were added, also of fields that the bus
cannot carry. -/
theorem attributeFields_ofFields : ∀ (fields : List (String × Attribute)) (added : Fields Value),
    attributeFields (ofFields fields added) =
      attributeFields added ++ normalFields added.keys.reverse fields
  | [], added => by simp [ofFields, normalFields]
  | (name, a) :: rest, added => by
    rw [ofFields, normalFields]
    by_cases hseen : name ∈ added.keys
    · have hkept : Fields.insertNew added name (ofAttribute a) = added := by
        rw [Fields.insertNew, if_pos (Fields.contains_eq_true_iff.2 hseen)]
      rw [hkept, if_pos (List.mem_reverse.2 hseen)]
      exact attributeFields_ofFields rest added
    · have hadded : Fields.insertNew added name (ofAttribute a) =
          added ++ [(name, ofAttribute a)] := by
        rw [Fields.insertNew, if_neg fun h => hseen (Fields.contains_eq_true_iff.1 h)]
      have hkeys : (Fields.keys (added ++ [(name, ofAttribute a)])).reverse =
          name :: added.keys.reverse := by
        simp [Fields.keys]
      rw [hadded, if_neg fun h => hseen (List.mem_reverse.1 h), attributeFields_ofFields rest,
        attributeFields_append, attributeFields_singleton, toAttribute?_ofAttribute a, hkeys,
        List.append_assoc]
end

end Value

namespace Attribute

/-- An attribute that passes through a script comes back in its normal form, which a second pass
leaves alone; it comes back as it was exactly if it is its own normal form, that is, if it is
normal. -/
theorem passes_normal (a : Attribute) :
    (Value.ofAttribute a).toAttribute? = a.normal? ∧ a.normal?.bind normal? = a.normal? ∧
      ((Value.ofAttribute a).toAttribute? = some a ↔ a.normal? = some a) ∧
        (a.normal? = some a ↔ a.IsNormal) := by
  have hback := Value.toAttribute?_ofAttribute a
  refine ⟨hback, normal?_normal? a, ?_, normal?_eq_self_iff⟩
  rw [hback]

/-- A name goes with its first field, even if another field of that name could stay. -/
example :
    (Value.ofAttribute (.table [("k", .unspec), ("k", .bool true), ("n", .int64 5)])).toAttribute? =
      some (.table [("n", .int32 5)]) := by rfl

end Attribute
end ScriptService
