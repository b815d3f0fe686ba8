/-!
# Named fields in order of insertion

`Fields` is a list of named values. The operations of an insertion-ordered map keep the names
distinct (`nodup_insert`, `nodup_insertNew`, `nodup_erase`): writing a present name keeps its
position, a new name goes to the end, and erasing keeps the order of the rest. `ofPairs` and
`sorted` build such maps from arbitrary lists.
-/

namespace ScriptService

/-- Named values in order. -/
abbrev Fields (α : Type) := List (String × α)

namespace Fields

variable {α : Type}

def keys (fields : Fields α) : List String := fields.map (·.1)

/-- The value of the first field with a name. -/
def get? (fields : Fields α) (name : String) : Option α := List.lookup name fields

def contains (fields : Fields α) (name : String) : Bool := (get? fields name).isSome

/-- Sets the value of a name, at its place if it is present and at the end otherwise. -/
def insert (fields : Fields α) (name : String) (value : α) : Fields α :=
  match fields with
  | [] => [(name, value)]
  | (n, v) :: rest => if n = name then (n, value) :: rest else (n, v) :: insert rest name value

/-- Appends a name unless it is present. -/
def insertNew (fields : Fields α) (name : String) (value : α) : Fields α :=
  if contains fields name then fields else fields ++ [(name, value)]

/-- Leaves out the first field with a name. -/
def erase (fields : Fields α) (name : String) : Fields α := List.eraseP (·.1 == name) fields

/-- The fields of a list of pairs: each name at its first place, with the value given last. -/
def ofPairs (pairs : List (String × α)) : Fields α :=
  pairs.foldl (fun fields p => insert fields p.1 p.2) []

/-- Inserts a name into fields sorted by name, replacing its value if it is present. -/
def insertSorted (fields : Fields α) (name : String) (value : α) : Fields α :=
  match fields with
  | [] => [(name, value)]
  | (n, v) :: rest =>
    if n = name then (n, value) :: rest
    else if name < n then (name, value) :: (n, v) :: rest
    else (n, v) :: insertSorted rest name value

/-- The fields of a list of pairs sorted by name, each with the value given last. Names compare by
their code points. -/
def sorted (pairs : List (String × α)) : Fields α :=
  pairs.foldl (fun fields p => insertSorted fields p.1 p.2) []

/-! ## The names stay distinct -/

theorem mem_keys_insert {fields : Fields α} {name n : String} {value : α} :
    n ∈ keys (insert fields name value) ↔ n = name ∨ n ∈ keys fields := by
  fun_induction insert fields name value with
  | case1 => simp [keys]
  | case2 v rest => simp [keys]
  | case3 m v rest h ih =>
    simp only [keys, List.map_cons, List.mem_cons] at ih ⊢
    rw [ih]
    exact or_left_comm

theorem nodup_insert {fields : Fields α} {name : String} {value : α} (h : (keys fields).Nodup) :
    (keys (insert fields name value)).Nodup := by
  fun_induction insert fields name value with
  | case1 => simp [keys]
  | case2 v rest => simpa [keys] using h
  | case3 m v rest hne ih =>
    have hc : m ∉ keys rest ∧ (keys rest).Nodup := List.nodup_cons.1 h
    refine List.nodup_cons.2 ⟨fun hm => ?_, ih hc.2⟩
    rcases mem_keys_insert.1 hm with hm | hm
    · exact hne hm
    · exact hc.1 hm

theorem contains_eq_true_iff {fields : Fields α} {name : String} :
    contains fields name = true ↔ name ∈ keys fields := by
  induction fields with
  | nil => simp [contains, get?, keys]
  | cons f rest ih =>
    obtain ⟨n, v⟩ := f
    simp only [contains, get?, List.lookup_cons, keys, List.map_cons, List.mem_cons] at ih ⊢
    by_cases h : name = n
    · simp [h]
    · simp only [beq_eq_false_iff_ne.2 h, h, false_or]
      exact ih

theorem nodup_insertNew {fields : Fields α} {name : String} {value : α}
    (h : (keys fields).Nodup) : (keys (insertNew fields name value)).Nodup := by
  unfold insertNew
  split
  · exact h
  · rename_i hc
    have hm : name ∉ keys fields := fun hm => hc (contains_eq_true_iff.2 hm)
    rw [keys, List.map_append, List.nodup_append]
    exact ⟨h, by simp, fun a ha b hb => by rintro rfl; simp at hb; exact hm (hb ▸ ha)⟩

theorem nodup_erase {fields : Fields α} {name : String} (h : (keys fields).Nodup) :
    (keys (erase fields name)).Nodup :=
  List.Sublist.nodup ((List.eraseP_sublist (p := _) (l := fields)).map _) h

theorem nodup_ofPairs (pairs : List (String × α)) : (keys (ofPairs pairs)).Nodup := by
  suffices h : ∀ fields : Fields α, (keys fields).Nodup →
      (keys (pairs.foldl (fun fields p => insert fields p.1 p.2) fields)).Nodup from
    h [] List.nodup_nil
  induction pairs with
  | nil => exact fun _ h => h
  | cons p rest ih => exact fun fields h => ih _ (nodup_insert h)

end Fields
end ScriptService
