import ScriptService.Proofs.History
import ScriptService.Proofs.Script.Formed

/-!
# Tables as insertion-ordered maps

A table is made of an empty one by writes and removals. Which names it has, their values and their
order are functions of this history, and what the calls on a table answer agrees with them.

Main statement: `Fields.ordered`.
-/

namespace ScriptService

namespace Fields

variable {α : Type}

/-! ## Names and lookups -/

section

variable {fields : Fields α} {name : String} {value : α}

theorem get?_cons (f : String × α) (rest : Fields α) (name : String) :
    get? (f :: rest) name = if f.1 = name then some f.2 else get? rest name := by
  unfold get?
  rw [List.lookup_cons]
  by_cases hname : f.1 = name
  · simp [hname]
  · rw [if_neg hname, beq_eq_false_iff_ne.2 (Ne.symm hname)]

theorem get?_eq_none_iff : get? fields name = none ↔ name ∉ keys fields := by
  rw [← contains_eq_true_iff, contains]
  simp

/-- A field stands where its name stands, and holds what a lookup of its name finds. -/
theorem getElem?_eq_some_iff (hnodup : (keys fields).Nodup) {i : Nat} :
    fields[i]? = some (name, value) ↔
      (keys fields)[i]? = some name ∧ get? fields name = some value := by
  induction fields generalizing i with
  | nil => simp [keys]
  | cons f rest ih =>
    obtain ⟨hnew, hrest⟩ := List.nodup_cons.1 hnodup
    rw [get?_cons]
    cases i with
    | zero =>
      rcases f with ⟨n, v⟩
      simp only [keys, List.map_cons, List.getElem?_cons_zero, Option.some.injEq, Prod.mk.injEq]
      constructor
      · rintro ⟨rfl, rfl⟩
        exact ⟨rfl, if_pos rfl⟩
      · rintro ⟨rfl, hvalue⟩
        rw [if_pos rfl, Option.some.injEq] at hvalue
        exact ⟨rfl, hvalue⟩
    | succ i =>
      have hother : (keys rest)[i]? = some name → f.1 ≠ name := by
        rintro hkey rfl
        exact hnew (List.mem_of_getElem? hkey)
      show rest[i]? = _ ↔ (keys rest)[i]? = _ ∧ _
      rw [ih hrest]
      constructor
      · rintro ⟨hkey, hvalue⟩
        exact ⟨hkey, (if_neg (hother hkey)).trans hvalue⟩
      · rintro ⟨hkey, hvalue⟩
        exact ⟨hkey, (if_neg (hother hkey)).symm.trans hvalue⟩

/-- With distinct names, the values in order are what lookups of the names find. -/
theorem map_snd_eq (hnodup : (keys fields).Nodup) (default : α) :
    fields.map (·.2) = (keys fields).map fun name => (get? fields name).getD default := by
  induction fields with
  | nil => rfl
  | cons f rest ih =>
    obtain ⟨hnew, hrest⟩ := List.nodup_cons.1 hnodup
    have hothers : ((keys rest).map fun name => (get? (f :: rest) name).getD default) =
        (keys rest).map fun name => (get? rest name).getD default := by
      refine List.map_congr_left fun name hname => ?_
      have hne : f.1 ≠ name := by
        rintro rfl
        exact hnew hname
      rw [get?_cons, if_neg hne]
    show f.2 :: rest.map (·.2) = (get? (f :: rest) f.1).getD default ::
      (keys rest).map fun name => (get? (f :: rest) name).getD default
    rw [get?_cons, if_pos rfl, hothers, ih hrest]
    rfl

/-! ### Writing -/

theorem get?_insert (fields : Fields α) (name : String) (value : α) (other : String) :
    get? (insert fields name value) other =
      if name = other then some value else get? fields other := by
  fun_induction insert fields name value with
  | case1 => rw [get?_cons]
  | case2 v rest =>
    rw [get?_cons, get?_cons]
    split <;> rfl
  | case3 m v rest hne ih =>
    rw [get?_cons, get?_cons, ih]
    by_cases hm : m = other
    · have hname : name ≠ other := fun h => hne (hm.trans h.symm)
      rw [if_pos hm, if_pos hm, if_neg hname]
    · rw [if_neg hm, if_neg hm]

/-- A name that is absent goes to the end. -/
theorem insert_of_not_mem (h : name ∉ keys fields) :
    insert fields name value = fields ++ [(name, value)] := by
  induction fields with
  | nil => rfl
  | cons f rest ih =>
    rcases f with ⟨n, v⟩
    rw [keys, List.map_cons, List.mem_cons, not_or] at h
    rw [insert, if_neg (Ne.symm h.1), ih h.2, List.cons_append]

/-- A name that is present keeps its place, and so do all others. -/
theorem insert_of_mem (hnodup : (keys fields).Nodup) (h : name ∈ keys fields) :
    insert fields name value =
      fields.map fun f => if f.1 = name then (name, value) else f := by
  induction fields with
  | nil => cases h
  | cons f rest ih =>
    rcases f with ⟨n, v⟩
    obtain ⟨hnew, hrest⟩ := List.nodup_cons.1 hnodup
    by_cases hn : n = name
    · subst hn
      have hothers : (rest.map fun f => if f.1 = n then (n, value) else f) = rest := by
        conv_rhs => rw [← List.map_id rest]
        refine List.map_congr_left fun f hf => ?_
        exact if_neg fun hname => hnew (List.mem_map.2 ⟨f, hf, hname⟩)
      rw [insert, if_pos rfl, List.map_cons, if_pos rfl, hothers]
    · have hmem : name ∈ keys rest := by
        rcases List.mem_cons.1 h with heq | hmem
        · exact absurd heq.symm hn
        · exact hmem
      rw [insert, if_neg hn, List.map_cons, if_neg hn, ih hrest hmem]

theorem keys_insert (fields : Fields α) (name : String) (value : α) :
    keys (insert fields name value) =
      if name ∈ keys fields then keys fields else keys fields ++ [name] := by
  by_cases hmem : name ∈ keys fields
  · rw [if_pos hmem]
    fun_induction insert fields name value with
    | case1 => cases hmem
    | case2 v rest => rfl
    | case3 m v rest hne ih =>
      rcases List.mem_cons.1 hmem with heq | hrest
      · exact absurd heq.symm hne
      · exact congrArg (m :: ·) (ih hrest)
  · rw [if_neg hmem, insert_of_not_mem hmem, keys, List.map_append]
    rfl

theorem insertNew_of_mem (h : name ∈ keys fields) : insertNew fields name value = fields :=
  if_pos (contains_eq_true_iff.2 h)

theorem insertNew_of_not_mem (h : name ∉ keys fields) :
    insertNew fields name value = insert fields name value := by
  rw [insert_of_not_mem h]
  exact if_neg fun hc => h (contains_eq_true_iff.1 hc)

theorem keys_insertNew (fields : Fields α) (name : String) (value : α) :
    keys (insertNew fields name value) = keys (insert fields name value) := by
  by_cases hmem : name ∈ keys fields
  · rw [insertNew_of_mem hmem, keys_insert, if_pos hmem]
  · rw [insertNew_of_not_mem hmem]

/-! ### Removing -/

/-- What is left after a removal keeps its order. -/
theorem erase_eq_filter (hnodup : (keys fields).Nodup) (name : String) :
    erase fields name = fields.filter fun f => f.1 != name :=
  eraseP_key_eq hnodup name

theorem keys_erase (hnodup : (keys fields).Nodup) (name : String) :
    keys (erase fields name) = (keys fields).filter (· != name) := by
  rw [erase_eq_filter hnodup, keys, keys, List.filter_map]
  rfl

theorem get?_erase (hnodup : (keys fields).Nodup) (name other : String) :
    get? (erase fields name) other = if name = other then none else get? fields other := by
  by_cases hname : name = other
  · subst hname
    rw [if_pos rfl, get?_eq_none_iff, keys_erase hnodup]
    simp
  · rw [if_neg hname, erase_eq_filter hnodup]
    -- From here on it does not matter whether the names are distinct.
    clear hnodup
    induction fields with
    | nil => rfl
    | cons f rest ih =>
      rw [List.filter_cons]
      by_cases hf : f.1 = name
      · have hother : f.1 ≠ other := fun h => hname (hf.symm.trans h)
        rw [get?_cons, if_neg hother]
        simpa [hf] using ih
      · simp only [bne_iff_ne, ne_eq, hf, not_false_eq_true, if_true]
        rw [get?_cons, get?_cons, ih]

end

/-! ## Histories -/

/-- A change of a table. -/
inductive Change (α : Type) where
  /-- Writes to a name. -/
  | insert (name : String) (value : α)
  /-- Writes to a name that is absent. -/
  | insertNew (name : String) (value : α)
  | remove (name : String)

/-- The table after a change. -/
def Change.apply (fields : Fields α) : Change α → Fields α
  | .insert name value => Fields.insert fields name value
  | .insertNew name value => Fields.insertNew fields name value
  | .remove name => Fields.erase fields name

/-- Whether a name is present: it was written to, and was not removed since. Histories start with
the latest change. -/
def isPresent (name : String) : List (Change α) → Bool
  | [] => false
  | .insert n _ :: past => if n = name then true else isPresent name past
  | .insertNew n _ :: past => if n = name then true else isPresent name past
  | .remove n :: past => if n = name then false else isPresent name past

/-- What the last write to a name wrote, unless the name was removed since. A write to a new name
has no effect if the name is present. -/
def written? (name : String) : List (Change α) → Option α
  | [] => none
  | .insert n v :: past => if n = name then some v else written? name past
  | .insertNew n v :: past =>
    if n = name ∧ isPresent name past = false then some v else written? name past
  | .remove n :: past => if n = name then none else written? name past

/-- When a name was newly added for the last time: how many changes there were before. -/
def addedAt (name : String) : List (Change α) → Nat
  | [] => 0
  | .insert n _ :: past =>
    if n = name ∧ isPresent name past = false then past.length else addedAt name past
  | .insertNew n _ :: past =>
    if n = name ∧ isPresent name past = false then past.length else addedAt name past
  | .remove _ :: past => addedAt name past

/-- What a history makes of an empty table. -/
def after : List (Change α) → Fields α
  | [] => []
  | c :: past => c.apply (after past)

theorem foldl_apply (past changes : List (Change α)) :
    changes.foldl Change.apply (after past) = after (changes.reverse ++ past) := by
  induction changes generalizing past with
  | nil => rfl
  | cons c changes ih =>
    rw [List.foldl_cons, List.reverse_cons, List.append_assoc]
    exact ih (c :: past)

/-- The writes of a list of pairs, one after the other. -/
def writes (pairs : List (String × α)) : List (Change α) :=
  (pairs.map fun p => Change.insert p.1 p.2).reverse

theorem ofPairs_eq_after (pairs : List (String × α)) : ofPairs pairs = after (writes pairs) := by
  have hfold := foldl_apply [] (pairs.map fun p => Change.insert p.1 p.2)
  rw [List.foldl_map, List.append_nil] at hfold
  exact hfold

/-- Writing fields with distinct names to an empty table gives these fields. -/
theorem ofPairs_of_nodup {fields : Fields α} (h : (keys fields).Nodup) :
    ofPairs fields = fields := by
  -- The fields that are written so far have other names than those that are left.
  suffices hall : ∀ done left : Fields α, (keys (done ++ left)).Nodup →
      left.foldl (fun fields p => insert fields p.1 p.2) done = done ++ left from
    hall [] fields h
  intro done left
  induction left generalizing done with
  | nil => simp
  | cons f rest ih =>
    rcases f with ⟨n, v⟩
    intro hnodup
    have hnew : n ∉ keys done := by
      rw [keys, List.map_append, List.nodup_append] at hnodup
      exact fun hn => hnodup.2.2 n hn n (by simp) rfl
    rw [List.foldl_cons, insert_of_not_mem hnew, ih, List.append_assoc]
    · rfl
    · simpa using hnodup

section

variable {h past : List (Change α)} {name : String}

theorem nodup_after (h : List (Change α)) : (keys (after h)).Nodup := by
  induction h with
  | nil => exact List.nodup_nil
  | cons c past ih =>
    cases c with
    | insert n v => exact nodup_insert ih
    | insertNew n v => exact nodup_insertNew ih
    | remove n => exact nodup_erase ih

theorem mem_keys_after (name : String) (h : List (Change α)) :
    name ∈ keys (after h) ↔ isPresent name h = true := by
  -- Both writes leave the same names, whether they have an effect on the value or not.
  have hwritten : ∀ {past : List (Change α)} {n : String} {v : α},
      (name ∈ keys (after past) ↔ isPresent name past = true) →
        (name ∈ keys (insert (after past) n v) ↔
          (if n = name then true else isPresent name past) = true) := by
    intro past n v ih
    rw [mem_keys_insert, ih]
    by_cases hn : n = name
    · simp [hn]
    · simp [hn, Ne.symm hn]
  induction h with
  | nil => simp [after, keys, isPresent]
  | cons c past ih =>
    cases c with
    | insert n v => exact hwritten ih
    | insertNew n v =>
      show name ∈ keys (insertNew (after past) n v) ↔ _
      rw [keys_insertNew]
      exact hwritten ih
    | remove n =>
      show name ∈ keys (erase (after past) n) ↔ (if n = name then false else _) = true
      rw [keys_erase (nodup_after past), List.mem_filter]
      refine (and_congr_left' ih).trans ?_
      by_cases hn : n = name
      · simp [hn]
      · simp [hn, Ne.symm hn]

theorem isPresent_eq_false_iff : isPresent name h = false ↔ name ∉ keys (after h) := by
  rw [mem_keys_after, Bool.not_eq_true]

theorem get?_after (name : String) (h : List (Change α)) :
    get? (after h) name = written? name h := by
  induction h with
  | nil => rfl
  | cons c past ih =>
    cases c with
    | insert n v =>
      show get? (insert (after past) n v) name = if n = name then some v else written? name past
      rw [get?_insert, ih]
    | insertNew n v =>
      show get? (insertNew (after past) n v) name =
        if n = name ∧ isPresent name past = false then some v else written? name past
      -- The write has an effect just when its name was absent from the table so far.
      by_cases hmem : n ∈ keys (after past)
      · have hno : ¬(n = name ∧ isPresent name past = false) := by
          rintro ⟨rfl, hnew⟩
          exact isPresent_eq_false_iff.1 hnew hmem
        rw [insertNew_of_mem hmem, if_neg hno, ih]
      · rw [insertNew_of_not_mem hmem, get?_insert]
        by_cases hn : n = name
        · subst hn
          rw [if_pos rfl, if_pos ⟨rfl, isPresent_eq_false_iff.2 hmem⟩]
        · rw [if_neg hn, if_neg fun hboth => hn hboth.1, ih]
    | remove n =>
      show get? (erase (after past) n) name = if n = name then none else written? name past
      rw [get?_erase (nodup_after past), ih]

/-- A present name was added by one of the changes. -/
theorem addedAt_lt (hpresent : isPresent name h = true) : addedAt name h < h.length := by
  have hwrite : ∀ {past : List (Change α)} {n : String},
      (isPresent name past = true → addedAt name past < past.length) →
        (if n = name then true else isPresent name past) = true →
          (if n = name ∧ isPresent name past = false then past.length else addedAt name past) <
            past.length + 1 := by
    intro past n ih hp
    split
    · exact Nat.lt_succ_self _
    · rename_i hold
      refine Nat.lt_succ_of_lt (ih ?_)
      by_cases hn : n = name
      · simpa [hn] using hold
      · rwa [if_neg hn] at hp
  induction h with
  | nil => cases hpresent
  | cons c past ih =>
    cases c with
    | insert n v => exact hwrite ih hpresent
    | insertNew n v => exact hwrite ih hpresent
    | remove n =>
      rw [isPresent] at hpresent
      split at hpresent
      · cases hpresent
      · exact Nat.lt_succ_of_lt (ih hpresent)

/-- The names stand in the order in which they were added. -/
theorem pairwise_addedAt (h : List (Change α)) :
    (keys (after h)).Pairwise fun m n => addedAt m h < addedAt n h := by
  -- A write adds its name behind all others unless the name is present.
  have hwrite : ∀ {past : List (Change α)} {n : String} {v : α},
      ((keys (after past)).Pairwise fun m n => addedAt m past < addedAt n past) →
        (keys (insert (after past) n v)).Pairwise fun k m =>
          (if n = k ∧ isPresent k past = false then past.length else addedAt k past) <
            if n = m ∧ isPresent m past = false then past.length else addedAt m past := by
    intro past n v ih
    have hold : ∀ m ∈ keys (after past),
        (if n = m ∧ isPresent m past = false then past.length else addedAt m past) =
          addedAt m past := by
      intro m hm
      exact if_neg fun hboth => isPresent_eq_false_iff.1 hboth.2 hm
    have hkept := ih.imp_of_mem (fun {k m} hk hm hlt => by
      rw [hold k hk, hold m hm]
      exact hlt :
      ∀ {k m}, k ∈ keys (after past) → m ∈ keys (after past) → addedAt k past < addedAt m past →
        (if n = k ∧ isPresent k past = false then past.length else addedAt k past) <
          if n = m ∧ isPresent m past = false then past.length else addedAt m past)
    rw [keys_insert]
    split
    · exact hkept
    · rename_i hnew
      rw [List.pairwise_append]
      refine ⟨hkept, List.pairwise_singleton _ n, ?_⟩
      intro k hk m hm
      cases List.mem_singleton.1 hm
      rw [hold k hk, if_pos ⟨rfl, isPresent_eq_false_iff.2 hnew⟩]
      exact addedAt_lt ((mem_keys_after k past).1 hk)
  induction h with
  | nil => exact List.Pairwise.nil
  | cons c past ih =>
    cases c with
    | insert n v => exact hwrite ih
    | insertNew n v =>
      show (keys (insertNew (after past) n v)).Pairwise _
      rw [keys_insertNew]
      exact hwrite (v := v) ih
    | remove n =>
      show (keys (erase (after past) n)).Pairwise _
      rw [keys_erase (nodup_after past)]
      exact ih.sublist List.filter_sublist

end

/-! ## The law -/

/-- A table as it is made, with the writes that this takes. -/
inductive Built : Fields Value → List (Change Value) → Prop where
  | empty : Built [] []
  /-- From an object map. -/
  | map {fields : Fields Value} (hnames : Ascending fields) : Built fields (writes fields)
  /-- From a list of pairs. -/
  | pairs {items : List Value} {pairs fields : Fields Value}
    (hpairs : items.mapM Value.pair? = .ok pairs) (hfields : Value.tableOfPairs items = .ok fields) :
    Built fields (writes pairs)

theorem Built.eq_after {start : Fields Value} {past : List (Change Value)} (h : Built start past) :
    start = after past := by
  cases h with
  | empty => rfl
  | map hnames => rw [← ofPairs_eq_after, ofPairs_of_nodup hnames.nodup]
  | pairs hpairs hfields =>
    rw [Value.tableOfPairs, hpairs] at hfields
    rw [← ofPairs_eq_after]
    exact (Except.ok.inj hfields).symm

/-- Whatever a script builds a table of, the table is made in one of these ways. -/
theorem Built.of_run {source : Option Value} {fields start : Fields Value} {v : Value}
    (hsource : ∀ s ∈ source, s.WellFormed)
    (h : (TableCall.build source).run fields = .ok (v, start)) : ∃ past, Built start past := by
  cases source with
  | none =>
    cases h
    exact ⟨[], .empty⟩
  | some source =>
    have hcontent := (hsource source rfl).content
    simp only [TableCall.run] at h
    split at h
    · rename_i items hitems
      split at h
      · rename_i fields hfields
        cases h
        cases hpairs : items.mapM Value.pair? with
        | error e =>
          rw [Value.tableOfPairs, hpairs] at hfields
          cases hfields
        | ok pairs => exact ⟨writes pairs, .pairs hpairs hfields⟩
      · cases h
    · rename_i hmap
      cases h
      rw [hmap] at hcontent
      cases hcontent with
      | map hnames hfields => exact ⟨_, .map hnames⟩
    · cases h

/-- A table with a history is the insertion-ordered map that this history describes. -/
structure Ordered (h : List (Change Value)) (fields : Fields Value) : Prop where
  distinct : (keys fields).Nodup
  present : ∀ name, name ∈ keys fields ↔ isPresent name h = true
  held : ∀ name, get? fields name = written? name h
  /-- The names stand in the order in which they were newly added. -/
  added : (keys fields).Pairwise fun m n => addedAt m h < addedAt n h
  /-- A write to a present name leaves all names in their places. -/
  overwritten : ∀ name ∈ keys fields, ∀ value,
    insert fields name value = fields.map fun f => if f.1 = name then (name, value) else f
  appended : ∀ name, name ∉ keys fields → ∀ value,
    insert fields name value = fields ++ [(name, value)] ∧
      insertNew fields name value = fields ++ [(name, value)]
  /-- A write to a new name has no effect on one that is present. -/
  kept : ∀ name ∈ keys fields, ∀ value, insertNew fields name value = fields
  /-- What is left after a removal keeps its order. -/
  removed : ∀ name, erase fields name = fields.filter fun f => f.1 != name
  /-- Going through the fields shows the names in order, each with the value found under it. -/
  visited : ∀ (i : Nat) (name : String) (value : Value), fields[i]? = some (name, value) ↔
    (keys fields)[i]? = some name ∧ get? fields name = some value
  counted : TableCall.len.run fields = .ok (.int (.ofNat (keys fields).length), fields)
  empty : TableCall.isEmpty.run fields = .ok (.bool (keys fields).isEmpty, fields)
  named : TableCall.keys.run fields = .ok (.array ((keys fields).map .string), fields)
  valued : TableCall.values.run fields =
    .ok (.array ((keys fields).map (TableCall.read fields)), fields)

theorem ordered_after (h : List (Change Value)) : Ordered h (after h) where
  distinct := nodup_after h
  present name := mem_keys_after name h
  held name := get?_after name h
  added := pairwise_addedAt h
  overwritten _ hname _ := insert_of_mem (nodup_after h) hname
  appended _ hname _ :=
    ⟨insert_of_not_mem hname, (insertNew_of_not_mem hname).trans (insert_of_not_mem hname)⟩
  kept _ hname _ := insertNew_of_mem hname
  removed := erase_eq_filter (nodup_after h)
  visited _ _ _ := getElem?_eq_some_iff (nodup_after h)
  counted := by rw [keys, List.length_map]; rfl
  empty := by rw [keys, List.isEmpty_map]; rfl
  named := rfl
  valued := by
    have hvalues := map_snd_eq (nodup_after h) Value.unit
    exact congrArg (fun values => Except.ok (Value.array values, after h)) hvalues

/-- However a table is made, and whatever is written to it and removed from it afterwards, it is the
insertion-ordered map of its history. -/
theorem ordered {start : Fields Value} {past : List (Change Value)} (hstart : Built start past)
    (changes : List (Change Value)) :
    Ordered (changes.reverse ++ past) (changes.foldl Change.apply start) := by
  rw [hstart.eq_after, foldl_apply]
  exact ordered_after _

/-- A table is made of pairs that give `b` twice; later `b` is removed and comes back. -/
theorem ordered_readded :
    let pair := fun name i => Value.array [.string name, .int i]
    let items := [pair "b" 1, .shared (pair "a" 2), pair "b" 3]
    let start : Fields Value := [("b", .int 3), ("a", .int 2)]
    let past := writes [("b", Value.int 1), ("a", .int 2), ("b", .int 3)]
    let changes : List (Change Value) :=
      [.insert "a" (.int 4), .remove "b", .insertNew "a" (.int 5), .insertNew "b" (.int 6)]
    Value.tableOfPairs items = .ok start ∧ Built start past ∧
      changes.foldl Change.apply start = [("a", .int 4), ("b", .int 6)] ∧
        Ordered (changes.reverse ++ past) [("a", .int 4), ("b", .int 6)] := by
  intro pair items start past changes
  have hitems : items.mapM Value.pair? =
      .ok [("b", Value.int 1), ("a", .int 2), ("b", .int 3)] := rfl
  have hbuilt : Built start past := .pairs hitems rfl
  exact ⟨rfl, hbuilt, rfl, ordered hbuilt changes⟩

end Fields
end ScriptService
