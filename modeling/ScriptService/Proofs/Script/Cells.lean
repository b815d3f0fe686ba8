import Mathlib.Logic.Relation
import ScriptService.Proofs.Script.Pairs
import ScriptService.Script.Conversion

/-!
# Shared cells

To put parts of a value into shared cells changes where the value lives, not what it is: what it is
without its cells stays the same, and all that looks at values looks through the cells.

Main statements: `Value.Wraps.erase_eq` and, for each view of a value, that it can be taken before
or after the cells are removed.
-/

namespace ScriptService

/-! ## Wrapping -/

namespace Value

/-- One part of a value is put into a shared cell: the value itself, or a part of what it holds. -/
inductive WrapsOne : Value → Value → Prop where
  | here (v : Value) : WrapsOne v (.shared v)
  | item {v w : Value} (before after : List Value) (h : WrapsOne v w) :
    WrapsOne (.array (before ++ v :: after)) (.array (before ++ w :: after))
  | mapField {v w : Value} (before : Fields Value) (name : String) (after : Fields Value)
    (h : WrapsOne v w) :
    WrapsOne (.map (before ++ (name, v) :: after)) (.map (before ++ (name, w) :: after))
  | tableField {v w : Value} (before : Fields Value) (name : String) (after : Fields Value)
    (h : WrapsOne v w) :
    WrapsOne (.table (before ++ (name, v) :: after)) (.table (before ++ (name, w) :: after))
  | curried {v w : Value} (name : String) (before after : List Value) (h : WrapsOne v w) :
    WrapsOne (.function name (before ++ v :: after)) (.function name (before ++ w :: after))
  | inside {v w : Value} (h : WrapsOne v w) : WrapsOne (.shared v) (.shared w)

/-- Any parts of a value are put into shared cells, at any places. -/
def Wraps : Value → Value → Prop := Relation.ReflTransGen WrapsOne

theorem eraseItems_eq_map (items : List Value) : eraseItems items = items.map erase := by
  induction items with
  | nil => rfl
  | cons v rest ih => exact congrArg (erase v :: ·) ih

theorem eraseFields_eq_map (fields : Fields Value) :
    eraseFields fields = fields.map fun f => (f.1, f.2.erase) := by
  induction fields with
  | nil => rfl
  | cons f rest ih => exact congrArg ((f.1, erase f.2) :: ·) ih

theorem eraseItems_replace {v w : Value} (before after : List Value) (h : w.erase = v.erase) :
    eraseItems (before ++ w :: after) = eraseItems (before ++ v :: after) := by
  simp only [eraseItems_eq_map, List.map_append, List.map_cons, h]

theorem eraseFields_replace {v w : Value} (before : Fields Value) (name : String)
    (after : Fields Value) (h : w.erase = v.erase) :
    eraseFields (before ++ (name, w) :: after) = eraseFields (before ++ (name, v) :: after) := by
  simp only [eraseFields_eq_map, List.map_append, List.map_cons, h]

theorem WrapsOne.erase_eq {v w : Value} (h : WrapsOne v w) : w.erase = v.erase := by
  induction h with
  | here v => rw [erase]
  | item before after h ih => rw [erase, erase, eraseItems_replace before after ih]
  | mapField before name after h ih => rw [erase, erase, eraseFields_replace before name after ih]
  | tableField before name after h ih =>
    rw [erase, erase, eraseFields_replace before name after ih]
  | curried name before after h ih => rw [erase, erase, eraseItems_replace before after ih]
  | inside h ih => rw [erase, erase, ih]

/-- Wrapping leaves a value as it is without its cells. -/
theorem Wraps.erase_eq {v w : Value} (h : Wraps v w) : w.erase = v.erase := by
  induction h with
  | refl => rfl
  | tail _ hone ih => exact hone.erase_eq.trans ih

/-! ## Views of a value -/

theorem content_ne_shared (v w : Value) : v.content ≠ .shared w := by
  fun_induction content v with
  | case1 v ih => exact ih
  | case2 v hplain => exact hplain w

theorem erase_content (v : Value) : v.content.erase = v.erase := by
  fun_induction content v with
  | case1 v ih => rw [ih, erase]
  | case2 v hplain => rfl

theorem content_erase (v : Value) : v.erase.content = v.erase := by
  rw [← erase_content v]
  cases hv : v.content with
  | shared w => exact absurd hv (content_ne_shared v w)
  | _ => rfl

theorem int?_erase (v : Value) : v.erase.int? = v.int? := by
  rw [int?, int?, content_erase, ← erase_content]
  cases hv : v.content with
  | shared w => exact absurd hv (content_ne_shared v w)
  | _ => rfl

theorem string?_erase (v : Value) : v.erase.string? = v.string? := by
  rw [string?, string?, content_erase, ← erase_content]
  cases hv : v.content with
  | shared w => exact absurd hv (content_ne_shared v w)
  | _ => rfl

theorem array?_erase (v : Value) : v.erase.array? = v.array?.map eraseItems := by
  rw [array?, array?, content_erase, ← erase_content]
  cases hv : v.content with
  | shared w => exact absurd hv (content_ne_shared v w)
  | _ => rfl

theorem map?_erase (v : Value) : v.erase.map? = v.map?.map eraseFields := by
  rw [map?, map?, content_erase, ← erase_content]
  cases hv : v.content with
  | shared w => exact absurd hv (content_ne_shared v w)
  | _ => rfl

end Value

/-- A function without the shared cells in the values that it holds. -/
def Callback.erase (f : Callback) : Callback := ⟨f.name, Value.eraseItems f.curried⟩

namespace Value

theorem callback?_erase (v : Value) : v.erase.callback? = v.callback?.map Callback.erase := by
  rw [callback?, callback?, content_erase, ← erase_content]
  cases hv : v.content with
  | shared w => exact absurd hv (content_ne_shared v w)
  | _ => rfl

theorem typeName_content (v : Value) : v.content.typeName = v.typeName := by
  fun_induction content v with
  | case1 v ih => rw [ih, typeName]
  | case2 v hplain => rfl

theorem typeName_erase (v : Value) : v.erase.typeName = v.typeName := by
  rw [← erase_content, ← typeName_content v]
  cases hv : v.content with
  | shared w => exact absurd hv (content_ne_shared v w)
  | _ => rfl

theorem fullTypeName_erase (v : Value) : v.erase.fullTypeName = v.fullTypeName := by
  rw [fullTypeName, fullTypeName, content_erase, ← erase_content]
  cases hv : v.content with
  | shared w => exact absurd hv (content_ne_shared v w)
  | map fields => rfl
  | _ => rfl

/-! ## Payloads -/

mutual
theorem toAttribute?_erase : (v : Value) → v.erase.toAttribute? = v.toAttribute?
  | .unit => rfl
  | .bool _ => rfl
  | .int _ => rfl
  | .float _ => rfl
  | .char _ => rfl
  | .string _ => rfl
  | .blob _ => rfl
  | .function _ _ => rfl
  | .object _ _ => rfl
  | .array items => congrArg (fun as => some (Attribute.array as)) (attributes_erase items)
  | .map fields => congrArg (fun fs => some (Attribute.table fs)) (attributeFields_erase fields)
  | .table fields => congrArg (fun fs => some (Attribute.table fs)) (attributeFields_erase fields)
  | .shared v => toAttribute?_erase v

theorem attributes_erase : (items : List Value) → attributes (eraseItems items) = attributes items
  | [] => rfl
  | v :: rest => by
    rw [eraseItems, attributes, attributes, toAttribute?_erase v, attributes_erase rest]

theorem attributeFields_erase :
    (fields : List (String × Value)) → attributeFields (eraseFields fields) = attributeFields fields
  | [] => rfl
  | (name, v) :: rest => by
    rw [eraseFields, attributeFields, attributeFields, toAttribute?_erase v,
      attributeFields_erase rest]
end

theorem toTable?_erase (v : Value) : v.erase.toTable? = v.toTable? := by
  rw [toTable?, toTable?, toAttribute?_erase]

end Value

/-! ## Fields and tables -/

namespace Fields

variable {α β : Type}

theorem get?_map (g : α → β) (fields : Fields α) (name : String) :
    get? (fields.map fun f => (f.1, g f.2)) name = (get? fields name).map g := by
  induction fields with
  | nil => rfl
  | cons f rest ih =>
    rw [List.map_cons, get?_cons, get?_cons, ih]
    split <;> rfl

theorem insert_map (g : α → β) (fields : Fields α) (name : String) (value : α) :
    insert (fields.map fun f => (f.1, g f.2)) name (g value) =
      (insert fields name value).map fun f => (f.1, g f.2) := by
  fun_induction insert fields name value with
  | case1 => rfl
  | case2 v rest => exact if_pos rfl
  | case3 m v rest hne ih =>
    show (if m = name then _ else _) = _
    rw [if_neg hne, ih]
    rfl

theorem ofPairs_map (g : α → β) (pairs : List (String × α)) :
    ofPairs (pairs.map fun p => (p.1, g p.2)) = (ofPairs pairs).map fun f => (f.1, g f.2) := by
  induction pairs using List.reverseRecOn with
  | nil => rfl
  | append_singleton before p ih =>
    rw [List.map_append, List.map_singleton, ofPairs_append_singleton, ih,
      ofPairs_append_singleton, insert_map]

end Fields

namespace Value

open Fields

theorem get?_eraseFields (fields : Fields Value) (name : String) :
    get? (eraseFields fields) name = (get? fields name).map erase := by
  rw [eraseFields_eq_map, get?_map]

theorem pair?_erase (v : Value) : v.erase.pair? = v.pair?.map fun p => (p.1, p.2.erase) := by
  rw [pair?, pair?, array?_erase]
  cases v.array? with
  | none => rfl
  | some items =>
    rcases items with _ | ⟨label, _ | ⟨value, _ | ⟨_, _⟩⟩⟩
    · rfl
    · rfl
    · simp only [Option.map_some, eraseItems, string?_erase, fullTypeName_erase]
      cases label.string? with
      | none => rfl
      | some s => rfl
    · rfl

theorem tableOfPairs_erase (items : List Value) :
    tableOfPairs (eraseItems items) = (tableOfPairs items).map eraseFields := by
  have hpairs : (eraseItems items).mapM pair? =
      (items.mapM pair?).map fun pairs => pairs.map fun p => (p.1, p.2.erase) := by
    induction items with
    | nil => rfl
    | cons v rest ih =>
      rw [eraseItems, List.mapM_cons, List.mapM_cons, pair?_erase, ih]
      cases v.pair? with
      | error e => rfl
      | ok p =>
        cases rest.mapM pair? with
        | error e => rfl
        | ok pairs => rfl
  rw [tableOfPairs, tableOfPairs, hpairs]
  cases items.mapM pair? with
  | error e => rfl
  | ok pairs =>
    show Except.ok (ofPairs (pairs.map fun p => (p.1, erase p.2))) =
      Except.ok (eraseFields (ofPairs pairs))
    rw [ofPairs_map, eraseFields_eq_map]

end Value

namespace TableCall

/-- What a call gives and leaves, without shared cells. -/
def eraseResult (result : Value × Fields Value) : Value × Fields Value :=
  (result.1.erase, Value.eraseFields result.2)

/-- What a table is made of can be stripped of its cells before or after. -/
theorem run_build_erase (fields : Fields Value) (v : Value) :
    (build (some v.erase)).run fields = ((build (some v)).run fields).map eraseResult := by
  have hother : noFunction "table" [v.erase] = noFunction "table" [v] := by
    simp only [noFunction, Value.signature, List.map_cons, List.map_nil, Value.typeName_erase]
  simp only [run, hother]
  -- What is not built of an array or a map is refused by its type, which has no cells in it.
  rw [Value.content_erase, ← Value.erase_content]
  cases hv : v.content with
  | shared w => exact absurd hv (Value.content_ne_shared v w)
  | array items =>
    simp only [Value.erase, Value.tableOfPairs_erase]
    cases Value.tableOfPairs items with
    | error e => rfl
    | ok fields => rfl
  | _ => rfl

end TableCall
end ScriptService
