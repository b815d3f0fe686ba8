import ScriptService.Proofs.Attempt
import ScriptService.Proofs.Script.Tables

/-!
# Tables from pairs, and tables as object maps

A list of items makes a table if each item is a pair, the name first; otherwise the first item that
is none decides the error. A table comes back from its own pairs, and an object map from its table;
a table that becomes an object map keeps all its fields, but in the order of their names.

Main statement: `Value.pairs_and_maps`.
-/

namespace ScriptService

namespace Fields

variable {α : Type}

/-! ## What writing a list of pairs leaves -/

section

variable {fields : Fields α} {name : String} {value : α}

theorem mem_iff_get?_eq_some (hnodup : (keys fields).Nodup) :
    (name, value) ∈ fields ↔ get? fields name = some value := by
  constructor
  · intro hmem
    obtain ⟨i, hi⟩ := List.mem_iff_getElem?.1 hmem
    exact ((getElem?_eq_some_iff hnodup).1 hi).2
  · exact mem_of_get?_eq_some

/-- With distinct names it makes no difference from which end a name is looked up. -/
theorem get?_reverse (hnodup : (keys fields).Nodup) (name : String) :
    get? fields.reverse name = get? fields name := by
  have hreverse : (keys fields.reverse).Nodup := by
    rw [keys, List.map_reverse, List.nodup_reverse]
    exact hnodup
  refine Option.ext fun value => ?_
  rw [← mem_iff_get?_eq_some hreverse, ← mem_iff_get?_eq_some hnodup, List.mem_reverse]

theorem get?_insertSorted (fields : Fields α) (name : String) (value : α) (other : String) :
    get? (insertSorted fields name value) other =
      if name = other then some value else get? fields other := by
  fun_induction insertSorted fields name value with
  | case1 => rw [get?_cons]
  | case2 v rest =>
    rw [get?_cons, get?_cons]
    split <;> rfl
  | case3 m v rest hne hlt => rw [get?_cons]
  | case4 m v rest hne hlt ih =>
    rw [get?_cons, get?_cons, ih]
    by_cases hm : m = other
    · have hname : name ≠ other := fun h => hne (hm.trans h.symm)
      rw [if_pos hm, if_pos hm, if_neg hname]
    · rw [if_neg hm, if_neg hm]

/-- If every write sets the value of its name alone, then of many writes to a name the last one
counts. -/
theorem get?_foldl {put : Fields α → String → α → Fields α}
    (hput : ∀ fields name value other,
      get? (put fields name value) other = if name = other then some value else get? fields other)
    (pairs : List (String × α)) (name : String) :
    get? (pairs.foldl (fun fields p => put fields p.1 p.2) []) name = get? pairs.reverse name := by
  -- From the end: the last write decides what is found, unless it is to another name.
  induction pairs using List.reverseRecOn with
  | nil => rfl
  | append_singleton before p ih =>
    rw [List.foldl_append, List.foldl_cons, List.foldl_nil, hput, ih, List.reverse_append]
    exact (get?_cons p before.reverse name).symm

theorem get?_ofPairs (pairs : List (String × α)) (name : String) :
    get? (ofPairs pairs) name = get? pairs.reverse name :=
  get?_foldl get?_insert pairs name

theorem get?_sorted (pairs : List (String × α)) (name : String) :
    get? (sorted pairs) name = get? pairs.reverse name :=
  get?_foldl get?_insertSorted pairs name

/-- If every write adds its name at the end unless it is there, then of many writes each name stays
at its first place. -/
theorem keys_foldl {put : Fields α → String → α → Fields α}
    (hput : ∀ fields name value,
      keys (put fields name value) =
        if name ∈ keys fields then keys fields else keys fields ++ [name])
    (pairs : List (String × α)) :
    keys (pairs.foldl (fun fields p => put fields p.1 p.2) []) = (keys pairs).eraseDups := by
  induction pairs using List.reverseRecOn with
  | nil => rfl
  | append_singleton before p ih =>
    have hnames : keys (before ++ [p]) = keys before ++ [p.1] := List.map_append
    rw [List.foldl_append, List.foldl_cons, List.foldl_nil, hput, ih, hnames, List.eraseDups_append]
    by_cases hmem : p.1 ∈ keys before
    · rw [if_pos (List.mem_eraseDups.2 hmem)]
      simp [List.removeAll, hmem]
    · rw [if_neg fun h => hmem (List.mem_eraseDups.1 h)]
      simp [List.removeAll, hmem, List.eraseDups_cons]

theorem ofPairs_append_singleton (before : List (String × α)) (p : String × α) :
    ofPairs (before ++ [p]) = insert (ofPairs before) p.1 p.2 := by
  rw [ofPairs, List.foldl_append]
  rfl

theorem keys_ofPairs (pairs : List (String × α)) :
    keys (ofPairs pairs) = (keys pairs).eraseDups :=
  keys_foldl keys_insert pairs

/-- Sorting fields with distinct names rearranges them. -/
theorem sorted_perm (hnodup : (keys fields).Nodup) : (sorted fields).Perm fields := by
  have hsorted := (ascending_sorted fields).nodup
  rw [List.perm_ext_iff_of_nodup hsorted.of_map hnodup.of_map]
  rintro ⟨name, value⟩
  rw [mem_iff_get?_eq_some hsorted, mem_iff_get?_eq_some hnodup, get?_sorted, get?_reverse hnodup]

end

end Fields

namespace Value

open Fields

/-! ## Pairs -/

/-- An item that is a pair of a name and a value; shared cells around the pair and around the name
make no difference. -/
def IsPair (item : Value) (name : String) (value : Value) : Prop :=
  ∃ label, item.content = .array [label, value] ∧ label.content = .string name

/-- Why an item is no pair. -/
inductive Offends (item : Value) : PairError → Prop where
  | notAPair (hitem : ∀ label value, item.content ≠ .array [label, value]) : Offends item .notAPair
  | nameNotString {label value : Value} (hitem : item.content = .array [label, value])
    (hlabel : ∀ name, label.content ≠ .string name) :
    Offends item (.nameNotString label.fullTypeName)

theorem string?_eq_some_iff {v : Value} {s : String} :
    v.string? = some s ↔ v.content = .string s := by
  unfold string?
  split
  · rename_i heq
    simp [heq]
  · rename_i hother
    exact ⟨nofun, fun h => absurd h (hother s)⟩

theorem array?_eq_some_iff {v : Value} {items : List Value} :
    v.array? = some items ↔ v.content = .array items := by
  unfold array?
  split
  · rename_i heq
    simp [heq]
  · rename_i hother
    exact ⟨nofun, fun h => absurd h (hother items)⟩

theorem pair?_eq_ok_iff {item value : Value} {name : String} :
    item.pair? = .ok (name, value) ↔ IsPair item name value := by
  constructor
  · intro h
    unfold pair? at h
    split at h
    · rename_i label v hitem
      split at h
      · rename_i s hlabel
        cases h
        exact ⟨label, array?_eq_some_iff.1 hitem, string?_eq_some_iff.1 hlabel⟩
      · cases h
    · cases h
  · rintro ⟨label, hitem, hlabel⟩
    simp only [pair?, array?_eq_some_iff.2 hitem, string?_eq_some_iff.2 hlabel]

theorem pair?_eq_error_iff {item : Value} {e : PairError} :
    item.pair? = .error e ↔ Offends item e := by
  constructor
  · intro h
    unfold pair? at h
    split at h
    · rename_i label v hitem
      split at h
      · cases h
      · rename_i hlabel
        cases h
        refine .nameNotString (array?_eq_some_iff.1 hitem) ?_
        intro name hname
        rw [string?_eq_some_iff.2 hname] at hlabel
        cases hlabel
    · rename_i hother
      cases h
      exact .notAPair fun label v hitem => hother label v (array?_eq_some_iff.2 hitem)
  · intro h
    cases h with
    | notAPair hitem =>
      unfold pair?
      split
      · rename_i label v heq
        exact absurd (array?_eq_some_iff.1 heq) (hitem label v)
      · rfl
    | @nameNotString label value hitem hlabel =>
      have hnone : label.string? = none := by
        rw [Option.eq_none_iff_forall_ne_some]
        exact fun name hname => hlabel name (string?_eq_some_iff.1 hname)
      simp only [pair?, array?_eq_some_iff.2 hitem, hnone]

/-! ## The law -/

/-- What a list of items makes. -/
structure Gathered (items : List Value) : Prop where
  accepted : (∃ fields, tableOfPairs items = .ok fields) ↔
    ∀ item ∈ items, ∃ name value, IsPair item name value
  /-- The names stand in the order in which they come first, each with the value given last. -/
  made : ∀ pairs : Fields Value, List.Forall₂ (fun item p => IsPair item p.1 p.2) items pairs →
    ∃ fields, tableOfPairs items = .ok fields ∧ keys fields = (keys pairs).eraseDups ∧
      ∀ name, get? fields name = get? pairs.reverse name
  /-- The first item that is no pair decides the error. -/
  refused : ∀ e, tableOfPairs items = .error e ↔ ∃ before item after,
    items = before ++ item :: after ∧ (∀ earlier ∈ before, ∃ name value, IsPair earlier name value) ∧
      Offends item e
  thrown : ∀ source fields e, source.content = .array items → tableOfPairs items = .error e →
    (TableCall.build (some source)).run fields = .error (.thrown (.string e.message))

/-- A field as a pair. -/
def pairOf (f : String × Value) : Value := .array [.string f.1, f.2]

/-- What becomes of a table as pairs and as an object map. -/
structure Converted (fields : Fields Value) : Prop where
  gathered : tableOfPairs (fields.map pairOf) = .ok fields
  found : ∀ name, get? (mapOfTable fields) name = get? fields name
  /-- The table of the object map of a table has its fields, in the order of their names. -/
  rebuilt : ∀ before, ∃ map s, TableCall.toMap.run fields = .ok (map, fields) ∧
    (TableCall.build (some map)).run before = .ok (.unit, s) ∧ s.Perm fields ∧ Ascending s

theorem tableOfPairs_eq_ok_iff {items : List Value} {fields : Fields Value} :
    tableOfPairs items = .ok fields ↔
      ∃ pairs, List.Forall₂ (fun item p => IsPair item p.1 p.2) items pairs ∧
        ofPairs pairs = fields := by
  -- The pairs are read one by one, in order.
  have hpairs : ∀ pairs : Fields Value, items.mapM pair? = .ok pairs ↔
      List.Forall₂ (fun item p => IsPair item p.1 p.2) items pairs := by
    intro pairs
    rw [mapM_eq_ok_iff]
    exact ⟨fun h => h.imp fun _ _ => pair?_eq_ok_iff.1, fun h => h.imp fun _ _ => pair?_eq_ok_iff.2⟩
  rw [tableOfPairs]
  constructor
  · intro h
    cases hmap : items.mapM pair? with
    | error e =>
      rw [hmap] at h
      cases h
    | ok pairs =>
      rw [hmap] at h
      exact ⟨pairs, (hpairs pairs).1 hmap, Except.ok.inj h⟩
  · rintro ⟨pairs, hall, rfl⟩
    rw [(hpairs pairs).2 hall]
    rfl

theorem tableOfPairs_eq_error_iff {items : List Value} {e : PairError} :
    tableOfPairs items = .error e ↔ items.mapM pair? = .error e := by
  rw [tableOfPairs]
  cases items.mapM pair? with
  | error e' => simp [Except.map]
  | ok pairs => simp [Except.map]

theorem forall₂_isPair_of_forall {items : List Value}
    (h : ∀ item ∈ items, ∃ name value, IsPair item name value) :
    ∃ pairs : Fields Value, List.Forall₂ (fun item p => IsPair item p.1 p.2) items pairs := by
  induction items with
  | nil => exact ⟨[], .nil⟩
  | cons item rest ih =>
    obtain ⟨name, value, hpair⟩ := h item List.mem_cons_self
    obtain ⟨pairs, hrest⟩ := ih fun item hitem => h item (List.mem_cons_of_mem _ hitem)
    exact ⟨(name, value) :: pairs, .cons hpair hrest⟩

theorem forall_of_forall₂_isPair {items : List Value} {pairs : Fields Value}
    (h : List.Forall₂ (fun item p => IsPair item p.1 p.2) items pairs) :
    ∀ item ∈ items, ∃ name value, IsPair item name value := by
  induction h with
  | nil => exact nofun
  | cons hpair hrest ih =>
    intro item hitem
    rcases List.mem_cons.1 hitem with rfl | hitem
    · exact ⟨_, _, hpair⟩
    · exact ih item hitem

theorem gathered (items : List Value) : Gathered items where
  accepted := by
    constructor
    · rintro ⟨fields, h⟩
      obtain ⟨pairs, hall, -⟩ := tableOfPairs_eq_ok_iff.1 h
      exact forall_of_forall₂_isPair hall
    · intro h
      obtain ⟨pairs, hall⟩ := forall₂_isPair_of_forall h
      exact ⟨ofPairs pairs, tableOfPairs_eq_ok_iff.2 ⟨pairs, hall, rfl⟩⟩
  made pairs hall :=
    ⟨ofPairs pairs, tableOfPairs_eq_ok_iff.2 ⟨pairs, hall, rfl⟩, keys_ofPairs pairs,
      get?_ofPairs pairs⟩
  refused e := by
    rw [tableOfPairs_eq_error_iff, mapM_eq_error_iff]
    refine exists_congr fun before => exists_congr fun item => exists_congr fun after =>
      and_congr_right' (and_congr ?_ pair?_eq_error_iff)
    refine forall₂_congr fun earlier _ => ?_
    rw [Prod.exists]
    exact exists_congr fun name => exists_congr fun value => pair?_eq_ok_iff
  thrown source fields e hsource herror := by
    simp only [TableCall.run, hsource, herror]

theorem converted {fields : Fields Value} (hnames : (keys fields).Nodup) : Converted fields where
  gathered := by
    refine tableOfPairs_eq_ok_iff.2 ⟨fields, ?_, ofPairs_of_nodup hnames⟩
    rw [List.forall₂_map_left_iff, List.forall₂_same]
    exact fun f _ => ⟨.string f.1, rfl, rfl⟩
  found name := by rw [mapOfTable, get?_sorted, get?_reverse hnames]
  rebuilt before :=
    ⟨.map (mapOfTable fields), mapOfTable fields, rfl, rfl, sorted_perm hnames,
      ascending_sorted fields⟩

/-- Any list of items makes the table of its pairs or is refused for the first item that is none;
any table comes back from its pairs and becomes an object map with the same fields; and any object
map comes back from its table. -/
theorem pairs_and_maps (items : List Value) {fields map : Fields Value}
    (hnames : (keys fields).Nodup) (hmap : Ascending map) :
    Gathered items ∧ Converted fields ∧
      ∀ before, (TableCall.build (some (.map map))).run before = .ok (.unit, map) ∧
        TableCall.toMap.run map = .ok (.map map, map) := by
  refine ⟨gathered items, converted hnames, fun before => ⟨rfl, ?_⟩⟩
  show Except.ok (Value.map (sorted map), map) = _
  rw [sorted_of_ascending hmap]

/-- Two items offend, in different ways: the name that is no string comes first. -/
theorem pairs_and_maps_offended :
    let items : List Value :=
      [.array [.shared (.string "b"), .int 1], .shared (.array [.int 2, .int 3]), .int 4]
    let fields : Fields Value := [("b", .int 1), ("a", .shared (.int 2))]
    let map : Fields Value := [("a", .int 1), ("b", .int 2)]
    (keys fields).Nodup ∧ Ascending map ∧
      tableOfPairs items = .error (.nameNotString "i64") ∧
        mapOfTable fields = [("a", .shared (.int 2)), ("b", .int 1)] ∧
          Gathered items ∧ Converted fields ∧
            ∀ before, (TableCall.build (some (.map map))).run before = .ok (.unit, map) ∧
              TableCall.toMap.run map = .ok (.map map, map) := by
  intro items fields map
  have hnames : (keys fields).Nodup := by decide
  have hmap : Ascending map := by
    show [("a" : String), "b"].Pairwise (· < ·)
    decide
  exact ⟨hnames, hmap, rfl, rfl, pairs_and_maps items hnames hmap⟩

end Value
end ScriptService
