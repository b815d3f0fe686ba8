import ScriptService.Proofs.Script.Cells
import ScriptService.Proofs.Script.Reach

/-!
# Lookups in payloads and in the tables scripts see

A payload may name a field twice, and a lookup finds the first one. The table that a script gets of
it has each name once, at its first place, and a lookup in it finds what the payload has under that
name. The same holds at every depth: a place inside the payload is a place inside the table, both
hold a table there or neither does, and there are no other tables inside.

Main statement: `Value.ofTable_reflects`.
-/

namespace ScriptService

namespace Fields

variable {α : Type}

/-- Of many additions of a name the first one counts. -/
theorem get?_foldl_insertNew (pairs : List (String × α)) (added : Fields α) (name : String) :
    get? (pairs.foldl (fun fields p => insertNew fields p.1 p.2) added) name =
      (get? added name).or (get? pairs name) := by
  induction pairs generalizing added with
  | nil => exact Option.or_none.symm
  | cons p rest ih =>
    rw [List.foldl_cons, ih, get?_cons]
    by_cases hmem : p.1 ∈ keys added
    · rw [insertNew_of_mem hmem]
      by_cases hname : p.1 = name
      · obtain ⟨value, hvalue⟩ : ∃ value, get? added name = some value :=
          Option.ne_none_iff_exists'.1 fun hnone => get?_eq_none_iff.1 hnone (hname ▸ hmem)
        rw [hvalue, Option.some_or, Option.some_or]
      · rw [if_neg hname]
    · rw [insertNew_of_not_mem hmem, get?_insert]
      by_cases hname : p.1 = name
      · have hnone : get? added name = none := get?_eq_none_iff.2 fun h => hmem (hname ▸ h)
        rw [if_pos hname, if_pos hname, hnone, Option.none_or, Option.some_or]
      · rw [if_neg hname, if_neg hname]

end Fields

/-! ## Places inside a value -/

/-- What leads one step into a value: the name of a field of a table, or the index of an item of an
array. -/
inductive Selector where
  | field (name : String)
  | item (index : Nat)

/-- What an attribute has under a selector; of a repeated name, the first field. -/
def Attribute.select? : Attribute → Selector → Option Attribute
  | .table fields, .field name => Table.get? fields name
  | .array items, .item index => items[index]?
  | _, _ => none

/-- What an attribute has at a place, which is a way into it step by step. -/
def Attribute.at? (a : Attribute) : List Selector → Option Attribute
  | [] => some a
  | selector :: path => (a.select? selector).bind (·.at? path)

namespace Value

open Fields

/-- What a value has under a selector. -/
def select? (v : Value) : Selector → Option Value
  | .field name => v.table?.bind fun fields => Fields.get? fields name
  | .item index => v.array?.bind fun items => items[index]?

/-- What a value has at a place. -/
def at? (v : Value) : List Selector → Option Value
  | [] => some v
  | selector :: path => (v.select? selector).bind (·.at? path)

/-- A value holds another one: itself, or something in an item or in a field. -/
inductive Holds : Value → Value → Prop where
  | itself (v : Value) : Holds v v
  | item {items : List Value} {v w : Value} (hmem : v ∈ items) (h : Holds v w) :
    Holds (.array items) w
  | mapField {fields : Fields Value} {name : String} {v w : Value} (hmem : (name, v) ∈ fields)
    (h : Holds v w) : Holds (.map fields) w
  | tableField {fields : Fields Value} {name : String} {v w : Value} (hmem : (name, v) ∈ fields)
    (h : Holds v w) : Holds (.table fields) w
  | curried {name : String} {values : List Value} {v w : Value} (hmem : v ∈ values)
    (h : Holds v w) : Holds (.function name values) w
  | shared {v w : Value} (h : Holds v w) : Holds (.shared v) w

/-! ## One table -/

/-- The fields of a script table show a payload. -/
structure Mirrors (table : Table) (fields : Fields Value) : Prop where
  /-- The names are those of the payload in the order of their first occurrence. -/
  keys_eq : keys fields = table.names.eraseDups
  /-- No name is there twice. -/
  nodup : (keys fields).Nodup
  /-- A name is present exactly if the payload has it, with the value of the attribute found. -/
  get?_eq : ∀ name, get? fields name = (table.get? name).map ofAttribute
  /-- So a script that indexes the table gets that value, and unit for a name that is absent. -/
  index_eq : ∀ name, TableCall.run fields (.index (.string name)) =
    .ok (((table.get? name).map ofAttribute).getD .unit, fields)

theorem ofItems_eq_map (items : List Attribute) : ofItems items = items.map ofAttribute := by
  induction items with
  | nil => rfl
  | cons a rest ih => exact congrArg (ofAttribute a :: ·) ih

theorem ofFields_eq_foldl (table : Table) (added : Fields Value) :
    ofFields table added = (table.map fun f => (f.1, ofAttribute f.2)).foldl
      (fun fields p => insertNew fields p.1 p.2) added := by
  induction table generalizing added with
  | nil => rfl
  | cons f rest ih => exact ih (insertNew added f.1 (ofAttribute f.2))

theorem keys_ofFields (table : Table) : keys (ofFields table []) = table.names.eraseDups := by
  have hnames : keys (table.map fun f => (f.1, ofAttribute f.2)) = table.names := by
    rw [keys, List.map_map]
    rfl
  have hput (fields : Fields Value) (name : String) (value : Value) :
      keys (insertNew fields name value) =
        if name ∈ keys fields then keys fields else keys fields ++ [name] :=
    (keys_insertNew fields name value).trans (keys_insert fields name value)
  rw [ofFields_eq_foldl, keys_foldl hput, hnames]

theorem get?_ofFields (table : Table) (name : String) :
    get? (ofFields table []) name = (table.get? name).map ofAttribute := by
  rw [ofFields_eq_foldl, get?_foldl_insertNew, get?_map]
  rfl

theorem mirrors_ofFields (table : Table) : Mirrors table (ofFields table []) where
  keys_eq := keys_ofFields table
  nodup := by
    rw [keys_ofFields]
    exact nodup_eraseDups table.names
  get?_eq := get?_ofFields table
  index_eq name := by
    rw [← get?_ofFields]
    rfl

/-! ## Every depth -/

/-- A step into the value of an attribute is a step into the attribute. -/
theorem select?_ofAttribute (a : Attribute) (selector : Selector) :
    (ofAttribute a).select? selector = (a.select? selector).map ofAttribute := by
  cases selector with
  | field name =>
    cases a with
    | table fields => exact get?_ofFields fields name
    | _ => rfl
  | item index =>
    cases a with
    | array items =>
      show (ofItems items)[index]? = _
      rw [ofItems_eq_map, List.getElem?_map]
      rfl
    | _ => rfl

theorem at?_ofAttribute (a : Attribute) (path : List Selector) :
    (ofAttribute a).at? path = (a.at? path).map ofAttribute := by
  induction path generalizing a with
  | nil => rfl
  | cons selector path ih =>
    rw [at?, Attribute.at?, select?_ofAttribute]
    cases a.select? selector with
    | none => rfl
    | some inner => exact ih inner

/-- Only a table comes in as a table, and then with its fields. -/
theorem ofAttribute_eq_table_iff {a : Attribute} {fields : Fields Value} :
    ofAttribute a = .table fields ↔ ∃ inner, a = .table inner ∧ fields = ofFields inner [] := by
  cases a with
  | table inner => simp [ofAttribute, eq_comm]
  | _ => simp [ofAttribute]

/-- All that the value of an attribute holds is at a place of it. -/
theorem Holds.exists_at? {v w : Value} (h : Holds v w) :
    ∀ a, v = ofAttribute a → ∃ path, v.at? path = some w := by
  induction h with
  | itself v => exact fun _ _ => ⟨[], rfl⟩
  | @item items v w hmem h ih =>
    intro a ha
    cases a with
    | array attributes =>
      obtain rfl : items = attributes.map ofAttribute :=
        (Value.array.inj ha).trans (ofItems_eq_map attributes)
      obtain ⟨index, hindex⟩ := List.mem_iff_getElem?.1 hmem
      obtain ⟨inner, hinner, rfl⟩ := List.mem_map.1 hmem
      obtain ⟨path, hpath⟩ := ih inner rfl
      refine ⟨.item index :: path, ?_⟩
      show ((attributes.map ofAttribute)[index]?).bind _ = _
      rw [hindex]
      exact hpath
    | _ => cases ha
  | @tableField fields name v w hmem h ih =>
    intro a ha
    obtain ⟨inner, -, rfl⟩ := ofAttribute_eq_table_iff.1 ha.symm
    have hget : get? (ofFields inner []) name = some v :=
      (mem_iff_get?_eq_some (mirrors_ofFields inner).nodup).1 hmem
    obtain ⟨found, -, hfound⟩ :=
      Option.map_eq_some_iff.1 ((get?_ofFields inner name).symm.trans hget)
    obtain ⟨path, hpath⟩ := ih found hfound.symm
    refine ⟨.field name :: path, ?_⟩
    show (get? (ofFields inner []) name).bind _ = _
    rw [hget]
    exact hpath
  -- Nothing of the other kinds that hold values comes in.
  | mapField => exact fun a ha => by cases a <;> cases ha
  | curried => exact fun a ha => by cases a <;> cases ha
  | shared => exact fun a ha => by cases a <;> cases ha

/-- A value shows a payload, at every depth. -/
structure Reflects (table : Table) (v : Value) : Prop where
  /-- The value is a table that shows the fields of the payload. -/
  top : ∃ fields, v = .table fields ∧ Mirrors table fields
  /-- At each place there is the value of what the payload has there, or nothing at all. -/
  at?_eq : ∀ path, v.at? path = ((Attribute.table table).at? path).map ofAttribute
  /-- A table inside the payload is a table of the value at that place, and shown by it. -/
  inward : ∀ path inner, (Attribute.table table).at? path = some (.table inner) →
    ∃ fields, v.at? path = some (.table fields) ∧ Mirrors inner fields
  /-- A table inside the value, however it is held, is at a place, and shows the table that the
  payload has there. -/
  outward : ∀ fields, v.Holds (.table fields) → ∃ path inner,
    v.at? path = some (.table fields) ∧
      (Attribute.table table).at? path = some (.table inner) ∧ Mirrors inner fields

/-- The table that a script gets of a payload agrees with the payload in every lookup, at every
depth. -/
theorem ofTable_reflects (table : Table) : Reflects table (ofTable table) where
  top := ⟨ofFields table [], rfl, mirrors_ofFields table⟩
  at?_eq := at?_ofAttribute (.table table)
  inward path inner hinner := by
    refine ⟨ofFields inner [], ?_, mirrors_ofFields inner⟩
    rw [ofTable, at?_ofAttribute, hinner]
    rfl
  outward fields hholds := by
    obtain ⟨path, hpath⟩ := hholds.exists_at? (.table table) rfl
    obtain ⟨a, ha, heq⟩ :=
      Option.map_eq_some_iff.1 ((at?_ofAttribute (.table table) path).symm.trans hpath)
    obtain ⟨inner, rfl, rfl⟩ := ofAttribute_eq_table_iff.1 heq
    exact ⟨path, inner, hpath, ha, mirrors_ofFields inner⟩

/-- A repeated name, also inside a table of an array. -/
example :
    (ofTable [("b", .array [.table [("x", .bool true), ("x", .bool false)]]), ("a", .unspec),
      ("b", .string "late")]).at? [.field "b", .item 0, .field "x"] = some (.bool true) := by
  cbv

end Value
end ScriptService
