import ScriptService.Proofs.Script.Conversion
import ScriptService.Proofs.Script.Formed

/-!
# Values that go out

A value that the bus can carry goes out as a normal attribute, and that attribute comes in as the
value that was carried: without shared cells, without the items and fields that cannot be carried,
with characters as strings and with object maps as tables in the order of their names.

Main statement: `Value.toAttribute?_canonical`.
-/

namespace ScriptService

namespace Value

/-! ## What is carried -/

/-- Whether the bus can carry a value, seen through shared cells. -/
def isCarried : Value → Bool
  | unit => false
  | blob _ => false
  | function _ _ => false
  | object _ _ => false
  | shared v => isCarried v
  | _ => true

mutual
/-- What is left of a value on the bus. -/
def carried : Value → Value
  | char c => string (String.singleton c)
  | array items => array (carriedItems items)
  | map fields => table (Fields.sorted (carriedFields fields))
  | table fields => table (carriedFields fields)
  | shared v => carried v
  | v => v

def carriedItems : List Value → List Value
  | [] => []
  | v :: rest => if v.isCarried then carried v :: carriedItems rest else carriedItems rest

def carriedFields : List (String × Value) → List (String × Value)
  | [] => []
  | (name, v) :: rest =>
    if v.isCarried then (name, carried v) :: carriedFields rest else carriedFields rest
end

theorem toAttribute?_isSome (v : Value) : v.toAttribute?.isSome = v.isCarried := by
  fun_induction isCarried v with
  | case5 v ih => exact ih
  | case6 v => cases v <;> simp_all [toAttribute?]
  | _ => rfl

/-- The values that the bus cannot carry. -/
theorem toAttribute?_eq_none_iff {v : Value} :
    v.toAttribute? = none ↔ v.content = unit ∨ (∃ name curried, v.content = function name curried) ∨
      (∃ bytes, v.content = blob bytes) ∨ ∃ id label, v.content = object id label := by
  fun_induction content v with
  | case1 v ih => exact ih
  | case2 v hplain =>
    cases v with
    | shared v => exact absurd rfl (hplain v)
    | _ => simp [toAttribute?]

/-! ## Names -/

theorem attributeFields_cons (name : String) (v : Value) (rest : List (String × Value)) :
    attributeFields ((name, v) :: rest) =
      (v.toAttribute?.toList.map fun a => (name, a)) ++ attributeFields rest :=
  (attributeFields_append [(name, v)] rest).trans (by rw [attributeFields_singleton])

/-- The names of the fields that go out are names of the table, in the same order. -/
theorem sublist_names_attributeFields (fields : List (String × Value)) :
    ((attributeFields fields).map (·.1)).Sublist (Fields.keys fields) := by
  induction fields with
  | nil => exact List.Sublist.refl []
  | cons f rest ih =>
    rcases f with ⟨name, v⟩
    rw [attributeFields_cons]
    cases v.toAttribute? with
    | none => exact ih.cons name
    | some a => exact ih.cons_cons name

/-- Fields with distinct names come in as they are. -/
theorem ofFields_of_nodup {fields : List (String × Attribute)} {added : Fields Value}
    (h : (Fields.keys added ++ fields.map (·.1)).Nodup) :
    ofFields fields added = added ++ fields.map fun f => (f.1, ofAttribute f.2) := by
  induction fields generalizing added with
  | nil => simp [ofFields]
  | cons f rest ih =>
    rcases f with ⟨name, a⟩
    have hnew : name ∉ Fields.keys added := by
      rw [List.nodup_append] at h
      exact fun hmem => h.2.2 name hmem name (by simp) rfl
    have hadded : Fields.insertNew added name (ofAttribute a) =
        added ++ [(name, ofAttribute a)] := by
      rw [Fields.insertNew, if_neg fun hc => hnew (Fields.contains_eq_true_iff.1 hc)]
    have hrest : (Fields.keys (added ++ [(name, ofAttribute a)]) ++ rest.map (·.1)).Nodup := by
      simpa [Fields.keys] using h
    rw [ofFields, hadded, ih hrest, List.append_assoc]
    rfl

/-! ## One level -/

/-- Outbound a value becomes a normal attribute, which inbound is what is left of the value. -/
def GoesOut (v : Value) : Prop :=
  ∀ a, v.toAttribute? = some a → a.IsNormal ∧ ofAttribute a = v.carried

theorem ofAttribute_integer (i : Int64) : ofAttribute (.integer i) = int i := by
  unfold Attribute.integer
  split
  · rename_i hfits
    rw [ofAttribute, Int32.toInt_ofInt_of_le (by omega) (by omega), Int64.ofInt_toInt]
  · rfl

theorem goesOut_items {items : List Value} (h : ∀ v ∈ items, v.GoesOut) :
    Attribute.AreNormal (attributes items) ∧ ofItems (attributes items) = carriedItems items := by
  induction items with
  | nil => exact ⟨trivial, rfl⟩
  | cons v rest ih =>
    rw [List.forall_mem_cons] at h
    obtain ⟨hnormal, hcarried⟩ := ih h.2
    have hsome := toAttribute?_isSome v
    rw [attributes_cons, carriedItems]
    cases hv : v.toAttribute? with
    | none =>
      rw [hv] at hsome
      rw [← hsome]
      exact ⟨hnormal, hcarried⟩
    | some a =>
      rw [hv] at hsome
      obtain ⟨ha, hback⟩ := h.1 a hv
      rw [← hsome, ← hback, ← hcarried]
      exact ⟨⟨ha, hnormal⟩, rfl⟩

theorem goesOut_fields {fields : List (String × Value)} (h : ∀ f ∈ fields, f.2.GoesOut) :
    Attribute.FieldsNormal (attributeFields fields) ∧
      ((attributeFields fields).map fun f => (f.1, ofAttribute f.2)) = carriedFields fields := by
  induction fields with
  | nil => exact ⟨trivial, rfl⟩
  | cons f rest ih =>
    rcases f with ⟨name, v⟩
    rw [List.forall_mem_cons] at h
    obtain ⟨hnormal, hcarried⟩ := ih h.2
    have hsome := toAttribute?_isSome v
    rw [attributeFields_cons, carriedFields]
    cases hv : v.toAttribute? with
    | none =>
      rw [hv] at hsome
      rw [← hsome]
      exact ⟨hnormal, hcarried⟩
    | some a =>
      rw [hv] at hsome
      obtain ⟨ha, hback⟩ := h.1 a hv
      rw [← hsome, ← hback, ← hcarried]
      exact ⟨⟨ha, hnormal⟩, rfl⟩

/-- Fields with distinct names make a normal table, whose fields are those that are carried. -/
theorem goesOut_named {fields : List (String × Value)} (hnames : (Fields.keys fields).Nodup)
    (hfields : ∀ f ∈ fields, f.2.GoesOut) :
    (Attribute.table (attributeFields fields)).IsNormal ∧
      ofFields (attributeFields fields) [] = carriedFields fields := by
  have hnodup := hnames.sublist (sublist_names_attributeFields fields)
  obtain ⟨hnormal, hcarried⟩ := goesOut_fields hfields
  rw [Attribute.IsNormal, ofFields_of_nodup (by simpa [Fields.keys] using hnodup), hcarried]
  exact ⟨⟨hnodup, hnormal⟩, rfl⟩

theorem sublist_keys_carriedFields (fields : List (String × Value)) :
    (Fields.keys (carriedFields fields)).Sublist (Fields.keys fields) := by
  induction fields with
  | nil => exact List.Sublist.refl []
  | cons f rest ih =>
    rcases f with ⟨name, v⟩
    rw [carriedFields]
    split
    · exact ih.cons_cons name
    · exact ih.cons name

/-- What is left of a sorted map is sorted. -/
theorem sorted_carriedFields {fields : List (String × Value)} (h : Fields.Ascending fields) :
    Fields.sorted (carriedFields fields) = carriedFields fields :=
  Fields.sorted_of_ascending (List.Pairwise.sublist (sublist_keys_carriedFields fields) h)

/-! ## Every level -/

theorem WellFormed.goesOut {v : Value} (hv : v.WellFormed) : v.GoesOut := by
  -- The induction follows the value, with one level of lists at arrays, maps and tables.
  induction hv with
  | unit => exact fun a h => by cases h
  | bool b =>
    intro a h
    cases h
    exact ⟨trivial, rfl⟩
  | int i =>
    intro a h
    cases h
    exact ⟨Attribute.integer_isNormal i, ofAttribute_integer i⟩
  | float x =>
    intro a h
    cases h
    exact ⟨trivial, rfl⟩
  | char c =>
    intro a h
    cases h
    exact ⟨trivial, rfl⟩
  | string s =>
    intro a h
    cases h
    exact ⟨trivial, rfl⟩
  | array hitems ih =>
    intro a h
    cases h
    obtain ⟨hnormal, hcarried⟩ := goesOut_items ih
    rw [ofAttribute, carried, hcarried]
    exact ⟨hnormal, rfl⟩
  | blob bytes => exact fun a h => by cases h
  | map hnames hfields ih =>
    intro a h
    cases h
    obtain ⟨hnormal, hcarried⟩ := goesOut_named hnames.nodup ih
    rw [ofAttribute, carried, hcarried, sorted_carriedFields hnames]
    exact ⟨hnormal, rfl⟩
  | table hnames hfields ih =>
    intro a h
    cases h
    obtain ⟨hnormal, hcarried⟩ := goesOut_named hnames ih
    rw [ofAttribute, carried, hcarried]
    exact ⟨hnormal, rfl⟩
  | function name hcurried ih => exact fun a h => by cases h
  | object id label => exact fun a h => by cases h
  | shared hv ih =>
    intro a h
    rw [carried]
    exact ih a h

/-! ## Payloads -/

theorem integer_ne_table (i : Int64) (fields : Table) : Attribute.integer i ≠ .table fields := by
  unfold Attribute.integer
  split <;> simp

/-- The payload of a table or of an object map; nothing else is one. -/
theorem toTable?_eq_some_iff {v : Value} {t : Table} :
    v.toTable? = some t ↔
      ∃ fields, (v.content = table fields ∨ v.content = map fields) ∧
        attributeFields fields = t := by
  unfold toTable?
  fun_induction content v with
  | case1 v ih => exact ih
  | case2 v hplain =>
    cases v with
    | shared v => exact absurd rfl (hplain v)
    | int i =>
      have hscalar := integer_ne_table i
      simp [toAttribute?, hscalar]
    | _ => simp [toAttribute?]

/-- A value goes out exactly if it is, seen through shared cells, no unit, no function, no blob and
no opaque object. It goes out as a normal attribute, which has none of the kinds that scripts cannot
tell, uses the wide integers only where the narrow ones do not suffice, and has each name once in
every table. That attribute comes in as what is left of the value, and goes out again as it was. -/
theorem toAttribute?_canonical {v : Value} (hv : v.WellFormed) :
    (v.toAttribute? = none ↔
      v.content = unit ∨ (∃ name curried, v.content = function name curried) ∨
        (∃ bytes, v.content = blob bytes) ∨ ∃ id label, v.content = object id label) ∧
      (∀ a, v.toAttribute? = some a →
        a.IsNormal ∧ ofAttribute a = v.carried ∧ (ofAttribute a).toAttribute? = some a) ∧
      (v.toTable?.isSome ↔
        (∃ fields, v.content = table fields) ∨ ∃ fields, v.content = map fields) := by
  refine ⟨toAttribute?_eq_none_iff, ?_, ?_⟩
  · intro a ha
    obtain ⟨hnormal, hback⟩ := hv.goesOut a ha
    have hagain := (toAttribute?_ofAttribute a).trans (Attribute.normal?_of_isNormal hnormal)
    exact ⟨hnormal, hback, hagain⟩
  · rw [Option.isSome_iff_exists]
    constructor
    · rintro ⟨t, ht⟩
      obtain ⟨fields, hcontent | hcontent, -⟩ := toTable?_eq_some_iff.1 ht
      · exact Or.inl ⟨fields, hcontent⟩
      · exact Or.inr ⟨fields, hcontent⟩
    · rintro (⟨fields, hcontent⟩ | ⟨fields, hcontent⟩)
      · exact ⟨_, toTable?_eq_some_iff.2 ⟨fields, Or.inl hcontent, rfl⟩⟩
      · exact ⟨_, toTable?_eq_some_iff.2 ⟨fields, Or.inr hcontent, rfl⟩⟩

/-- A shared table with a map in it: the function and the unit are left out. -/
theorem toAttribute?_canonical_nested :
    ∃ a : Attribute,
      (shared (table [("z", array [unit, char 'x', int 5000000000]), ("f", function "handle" []),
        ("m", map [("a", int 1), ("b", shared (bool true))])])).toAttribute? = some a ∧
      a.IsNormal ∧
      ofAttribute a = table [("z", array [string "x", int 5000000000]),
        ("m", table [("a", int 1), ("b", bool true)])] := by
  have hitems : WellFormed (array [unit, char 'x', int 5000000000]) := by
    refine .array ?_
    simp only [List.forall_mem_cons]
    exact ⟨.unit, .char _, .int _, by simp⟩
  have hmap : WellFormed (map [("a", int 1), ("b", shared (bool true))]) := by
    have hnames : Fields.Ascending [("a", int 1), ("b", shared (bool true))] :=
      Fields.ascending_cons.2 ⟨by simp only [Fields.keys]; decide, List.pairwise_singleton _ "b"⟩
    refine .map hnames ?_
    simp only [List.forall_mem_cons]
    exact ⟨.int 1, .shared (.bool true), by simp⟩
  have hwhole : WellFormed (table [("z", array [unit, char 'x', int 5000000000]),
      ("f", function "handle" []), ("m", map [("a", int 1), ("b", shared (bool true))])]) := by
    refine .table (by simp [Fields.keys]) ?_
    simp only [List.forall_mem_cons]
    exact ⟨hitems, .function _ (by simp), hmap, by simp⟩
  obtain ⟨-, hcarried, -⟩ := toAttribute?_canonical (.shared hwhole)
  obtain ⟨hnormal, hback, -⟩ := hcarried _ rfl
  exact ⟨_, rfl, hnormal, hback⟩

end Value
end ScriptService
