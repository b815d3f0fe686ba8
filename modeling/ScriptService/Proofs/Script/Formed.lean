import Mathlib.Data.List.Nodup
import Mathlib.Data.String.Basic
import ScriptService.Proofs.Attempt
import ScriptService.Script.Conversion
import ScriptService.Script.Program
import ScriptService.Script.Table

/-!
# Well-formed values

In every value that a script builds, a table has each of its names once, and the fields of an object
map are in the order of their names. The expressions of a program, the calls on tables and the
payloads that arrive make nothing else.

Main statements: `Value.ofAttribute_wellFormed`, `Expr.eval_wellFormed` and
`TableCall.run_wellFormed`.
-/

namespace ScriptService

namespace Fields

variable {α : Type} {fields : Fields α} {name : String} {value : α}

/-- The fields are in the order of their names, each name once. -/
def Ascending (fields : Fields α) : Prop := (keys fields).Pairwise (· < ·)

theorem ascending_cons {n : String} {v : α} {rest : Fields α} :
    Ascending ((n, v) :: rest) ↔ (∀ m ∈ keys rest, n < m) ∧ Ascending rest :=
  List.pairwise_cons

theorem Ascending.nodup (h : Ascending fields) : (keys fields).Nodup := List.Pairwise.nodup h

/-! ## What the operations leave in -/

theorem mem_of_get?_eq_some (h : get? fields name = some value) : (name, value) ∈ fields := by
  obtain ⟨before, after, hsplit, -⟩ := List.lookup_eq_some_iff.1 h
  rw [hsplit]
  exact List.mem_append_right before List.mem_cons_self

theorem mem_insert {f : String × α} (h : f ∈ insert fields name value) :
    f ∈ fields ∨ f = (name, value) := by
  fun_induction insert fields name value with
  | case1 => simpa using h
  | case2 v rest => grind
  | case3 n v rest hne ih => grind

theorem mem_insertNew {f : String × α} (h : f ∈ insertNew fields name value) :
    f ∈ fields ∨ f = (name, value) := by
  unfold insertNew at h
  split at h
  · exact Or.inl h
  · simpa using h

theorem mem_insertSorted {f : String × α} (h : f ∈ insertSorted fields name value) :
    f ∈ fields ∨ f = (name, value) := by
  fun_induction insertSorted fields name value with
  | case1 => simpa using h
  | case2 v rest => grind
  | case3 n v rest hne hlt => grind
  | case4 n v rest hne hlt ih => grind

theorem mem_foldl {put : Fields α → String → α → Fields α}
    (hput : ∀ fields name value (f : String × α), f ∈ put fields name value →
      f ∈ fields ∨ f = (name, value)) {pairs : List (String × α)} {fields : Fields α}
    {f : String × α} (h : f ∈ pairs.foldl (fun fields p => put fields p.1 p.2) fields) :
    f ∈ fields ∨ f ∈ pairs := by
  induction pairs generalizing fields with
  | nil => exact Or.inl h
  | cons p rest ih =>
    rcases ih h with hf | hf
    · rcases hput _ _ _ _ hf with hf | rfl
      · exact Or.inl hf
      · exact Or.inr List.mem_cons_self
    · exact Or.inr (List.mem_cons_of_mem p hf)

theorem mem_ofPairs {pairs : List (String × α)} {f : String × α} (h : f ∈ ofPairs pairs) :
    f ∈ pairs := by
  rcases mem_foldl (fun _ _ _ _ => mem_insert) h with hf | hf
  · cases hf
  · exact hf

theorem mem_sorted {pairs : List (String × α)} {f : String × α} (h : f ∈ sorted pairs) :
    f ∈ pairs := by
  rcases mem_foldl (fun _ _ _ _ => mem_insertSorted) h with hf | hf
  · cases hf
  · exact hf

/-! ## Sorted fields -/

theorem mem_keys_insertSorted {n : String} :
    n ∈ keys (insertSorted fields name value) ↔ n = name ∨ n ∈ keys fields := by
  fun_induction insertSorted fields name value with
  | case1 => simp [keys]
  | case2 v rest => simp [keys]
  | case3 m v rest hne hlt => simp [keys]
  | case4 m v rest hne hlt ih =>
    simp only [keys, List.map_cons, List.mem_cons] at ih ⊢
    rw [ih]
    exact or_left_comm

theorem Ascending.insertSorted (h : Ascending fields) (name : String) (value : α) :
    Ascending (insertSorted fields name value) := by
  fun_induction Fields.insertSorted fields name value with
  | case1 => simp [Ascending, keys]
  | case2 v rest => exact h
  | case3 m v rest hne hlt =>
    refine ascending_cons.2 ⟨?_, h⟩
    intro k hk
    rcases List.mem_cons.1 hk with rfl | hk
    · exact hlt
    · exact String.lt_trans hlt ((ascending_cons.1 h).1 k hk)
  | case4 m v rest hne hlt ih =>
    obtain ⟨hleast, hrest⟩ := ascending_cons.1 h
    refine ascending_cons.2 ⟨?_, ih hrest⟩
    intro k hk
    rcases mem_keys_insertSorted.1 hk with rfl | hk
    · exact lt_of_le_of_ne (not_lt.1 hlt) hne
    · exact hleast k hk

theorem ascending_sorted (pairs : List (String × α)) : Ascending (sorted pairs) := by
  suffices h : ∀ fields : Fields α, Ascending fields →
      Ascending (pairs.foldl (fun fields p => Fields.insertSorted fields p.1 p.2) fields) from
    h [] List.Pairwise.nil
  induction pairs with
  | nil => exact fun _ h => h
  | cons p rest ih => exact fun fields h => ih _ (h.insertSorted p.1 p.2)

/-- A name above all others goes to the end. -/
theorem insertSorted_of_above (h : ∀ n ∈ keys fields, n < name) :
    insertSorted fields name value = fields ++ [(name, value)] := by
  fun_induction insertSorted fields name value with
  | case1 => rfl
  | case2 v rest => exact absurd (h name (by simp [keys])) (String.lt_irrefl name)
  | case3 m v rest hne hlt => exact absurd hlt (String.lt_asymm (h m (by simp [keys])))
  | case4 m v rest hne hlt ih =>
    rw [ih fun n hn => h n (List.mem_cons_of_mem m hn)]
    rfl

/-- Sorting leaves sorted fields as they are. -/
theorem sorted_of_ascending (h : Ascending fields) : sorted fields = fields := by
  -- The fields that are sorted so far come before those that are left.
  suffices hall : ∀ done left : Fields α, Ascending (done ++ left) →
      left.foldl (fun fields p => Fields.insertSorted fields p.1 p.2) done = done ++ left from
    hall [] fields h
  intro done left
  induction left generalizing done with
  | nil => simp
  | cons f rest ih =>
    rcases f with ⟨n, v⟩
    intro hasc
    have habove : ∀ m ∈ keys done, m < n := by
      rw [Ascending, keys, List.map_append, List.pairwise_append] at hasc
      exact fun m hm => hasc.2.2 m hm n (by simp)
    rw [List.foldl_cons, insertSorted_of_above habove, ih, List.append_assoc]
    · rfl
    · simpa using hasc

end Fields

/-! ## Values -/

/-- A value whose tables have each of their names once, and whose object maps are in the order of
their names, at every depth. -/
inductive Value.WellFormed : Value → Prop where
  | unit : WellFormed .unit
  | bool (b : Bool) : WellFormed (.bool b)
  | int (i : Int64) : WellFormed (.int i)
  | float (x : Double) : WellFormed (.float x)
  | char (c : Char) : WellFormed (.char c)
  | string (s : String) : WellFormed (.string s)
  | array {items : List Value} (hitems : ∀ v ∈ items, WellFormed v) : WellFormed (.array items)
  | blob (bytes : List UInt8) : WellFormed (.blob bytes)
  | map {fields : List (String × Value)} (hnames : Fields.Ascending fields)
      (hfields : ∀ f ∈ fields, WellFormed f.2) : WellFormed (.map fields)
  | table {fields : List (String × Value)} (hnames : (Fields.keys fields).Nodup)
      (hfields : ∀ f ∈ fields, WellFormed f.2) : WellFormed (.table fields)
  | function (name : String) {curried : List Value} (hcurried : ∀ v ∈ curried, WellFormed v) :
      WellFormed (.function name curried)
  | object (id : Nat) (label : String) : WellFormed (.object id label)
  | shared {v : Value} (hv : WellFormed v) : WellFormed (.shared v)

namespace Value

theorem WellFormed.content {v : Value} (hv : v.WellFormed) : v.content.WellFormed := by
  fun_induction Value.content v with
  | case1 v ih =>
    cases hv with
    | shared hv => exact ih hv
  | case2 v hplain => exact hv

theorem WellFormed.share {v : Value} (hv : v.WellFormed) : v.share.WellFormed := by
  fun_cases Value.share v with
  | case1 v => exact hv
  | case2 v hplain => exact .shared hv

theorem WellFormed.of_array? {v : Value} {items : List Value} (hv : v.WellFormed)
    (h : v.array? = some items) : ∀ w ∈ items, w.WellFormed := by
  unfold array? at h
  split at h
  · rename_i heq
    cases h
    have hcontent := hv.content
    rw [heq] at hcontent
    cases hcontent with
    | array hitems => exact hitems
  · cases h

theorem WellFormed.of_map? {v : Value} {fields : Fields Value} (hv : v.WellFormed)
    (h : v.map? = some fields) : (Value.map fields).WellFormed := by
  unfold map? at h
  split at h
  · rename_i heq
    cases h
    exact heq ▸ hv.content
  · cases h

theorem WellFormed.of_table? {v : Value} {fields : Fields Value} (hv : v.WellFormed)
    (h : v.table? = some fields) : (Value.table fields).WellFormed := by
  unfold table? at h
  split at h
  · rename_i heq
    cases h
    exact heq ▸ hv.content
  · cases h

/-! ## Maps and tables -/

variable {fields : Fields Value} {name : String} {v : Value}

theorem WellFormed.field (h : (Value.table fields).WellFormed)
    (hget : Fields.get? fields name = some v) : v.WellFormed := by
  cases h with
  | table hnames hfields => exact hfields _ (Fields.mem_of_get?_eq_some hget)

theorem WellFormed.getD (h : (Value.table fields).WellFormed) (name : String) :
    ((Fields.get? fields name).getD Value.unit).WellFormed := by
  cases hget : Fields.get? fields name with
  | none => exact .unit
  | some v => exact h.field hget

theorem WellFormed.insert (h : (Value.table fields).WellFormed) (hv : v.WellFormed) :
    (Value.table (Fields.insert fields name v)).WellFormed := by
  cases h with
  | table hnames hfields =>
    refine .table (Fields.nodup_insert hnames) ?_
    intro f hf
    rcases Fields.mem_insert hf with hf | rfl
    · exact hfields f hf
    · exact hv

theorem WellFormed.insertNew (h : (Value.table fields).WellFormed) (hv : v.WellFormed) :
    (Value.table (Fields.insertNew fields name v)).WellFormed := by
  cases h with
  | table hnames hfields =>
    refine .table (Fields.nodup_insertNew hnames) ?_
    intro f hf
    rcases Fields.mem_insertNew hf with hf | rfl
    · exact hfields f hf
    · exact hv

theorem WellFormed.erase (h : (Value.table fields).WellFormed) :
    (Value.table (Fields.erase fields name)).WellFormed := by
  cases h with
  | table hnames hfields =>
    exact .table (Fields.nodup_erase hnames) fun f hf => hfields f (List.mem_of_mem_eraseP hf)

theorem wellFormed_ofPairs {pairs : List (String × Value)} (h : ∀ p ∈ pairs, p.2.WellFormed) :
    (Value.table (Fields.ofPairs pairs)).WellFormed :=
  .table (Fields.nodup_ofPairs pairs) fun f hf => h f (Fields.mem_ofPairs hf)

theorem wellFormed_sorted {pairs : List (String × Value)} (h : ∀ p ∈ pairs, p.2.WellFormed) :
    (Value.map (Fields.sorted pairs)).WellFormed :=
  .map (Fields.ascending_sorted pairs) fun f hf => h f (Fields.mem_sorted hf)

/-! ## Payloads -/

mutual
theorem ofAttribute_wellFormed : ∀ a : Attribute, (ofAttribute a).WellFormed
  | .bool b => .bool b
  | .int16 _ => .int _
  | .int32 _ => .int _
  | .int64 i => .int i
  | .double x => .float x
  | .string s => .string s
  | .array items => .array (ofItems_wellFormed items)
  | .table fields => ofFields_wellFormed fields (.table List.nodup_nil (by simp))
  | .unspec => .unit
  | .unknown => .unit

theorem ofItems_wellFormed : ∀ items : List Attribute, ∀ v ∈ ofItems items, v.WellFormed
  | [] => by simp [ofItems]
  | a :: rest => by
    rw [ofItems, List.forall_mem_cons]
    exact ⟨ofAttribute_wellFormed a, ofItems_wellFormed rest⟩

theorem ofFields_wellFormed : ∀ (fields : List (String × Attribute)) {added : Fields Value},
    (table added).WellFormed → (table (ofFields fields added)).WellFormed
  | [], _, h => h
  | (_, a) :: rest, _, h =>
    ofFields_wellFormed rest (h.insertNew (ofAttribute_wellFormed a))
end

end Value

/-! ## Expressions -/

namespace Expr

mutual
/-- An expression whose constants are well formed. -/
def WellFormed : Expr → Prop
  | constant v => v.WellFormed
  | array items => ItemsWellFormed items
  | map fields => FieldsWellFormed fields
  | table fields => FieldsWellFormed fields
  | function _ curried => ItemsWellFormed curried
  | object _ => True
  | share e => WellFormed e
  | argument _ => True
  | callCount => True
  | field e _ => WellFormed e
  | withField e _ value => WellFormed e ∧ WellFormed value

def ItemsWellFormed : List Expr → Prop
  | [] => True
  | e :: rest => WellFormed e ∧ ItemsWellFormed rest

def FieldsWellFormed : List (String × Expr) → Prop
  | [] => True
  | (_, e) :: rest => WellFormed e ∧ FieldsWellFormed rest
end

theorem tableFields_wellFormed {v : Value} (hv : v.WellFormed) :
    (Value.table (tableFields v)).WellFormed := by
  unfold tableFields
  cases h : v.table? with
  | none => exact .table List.nodup_nil (by simp)
  | some fields => exact hv.of_table? h

variable {frame : Frame}

mutual
theorem eval_wellFormed (hargs : ∀ v ∈ frame.args, v.WellFormed) :
    ∀ {e : Expr} (made : Nat), e.WellFormed → ((e.eval frame).run made).1.WellFormed
  | constant v, _, he => by
    rw [WellFormed] at he
    exact he
  | array items, made, he => by
    rw [WellFormed] at he
    exact .array (evalItems_wellFormed hargs made he)
  | map fields, made, he => by
    rw [WellFormed] at he
    exact Value.wellFormed_sorted (evalFields_wellFormed hargs made he)
  | table fields, made, he => by
    rw [WellFormed] at he
    exact Value.wellFormed_ofPairs (evalFields_wellFormed hargs made he)
  | function name curried, made, he => by
    rw [WellFormed] at he
    exact .function name (evalItems_wellFormed hargs made he)
  | object label, made, _ => .object made label
  | share e, made, he => by
    rw [WellFormed] at he
    exact (eval_wellFormed hargs made he).share
  | argument i, _, _ => by
    show (frame.args[i]?.getD .unit).WellFormed
    cases hi : frame.args[i]? with
    | none => exact .unit
    | some v => exact hargs v (List.mem_of_getElem? hi)
  | callCount, _, _ => .int _
  | field e name, made, he => by
    rw [WellFormed] at he
    exact (tableFields_wellFormed (eval_wellFormed hargs made he)).getD name
  | withField e name value, made, he => by
    rw [WellFormed] at he
    exact (tableFields_wellFormed (eval_wellFormed hargs made he.1)).insert
      (eval_wellFormed hargs _ he.2)

theorem evalItems_wellFormed (hargs : ∀ v ∈ frame.args, v.WellFormed) :
    ∀ {es : List Expr} (made : Nat), ItemsWellFormed es →
      ∀ v ∈ ((evalItems frame es).run made).1, v.WellFormed
  | [], _, _ => by
    intro v hv
    cases hv
  | e :: rest, made, hes => by
    rw [ItemsWellFormed] at hes
    exact List.forall_mem_cons.2
      ⟨eval_wellFormed hargs made hes.1, evalItems_wellFormed hargs _ hes.2⟩

theorem evalFields_wellFormed (hargs : ∀ v ∈ frame.args, v.WellFormed) :
    ∀ {fields : List (String × Expr)} (made : Nat), FieldsWellFormed fields →
      ∀ f ∈ ((evalFields frame fields).run made).1, f.2.WellFormed
  | [], _, _ => by
    intro f hf
    cases hf
  | (name, e) :: rest, made, hes => by
    rw [FieldsWellFormed] at hes
    exact List.forall_mem_cons.2
      ⟨eval_wellFormed hargs made hes.1, evalFields_wellFormed hargs _ hes.2⟩
end

end Expr

/-! ## Calls on tables -/

namespace Value

theorem plus_wellFormed {a b v : Value} (ha : a.WellFormed) (hb : b.WellFormed)
    (h : a.plus b = .ok v) : v.WellFormed := by
  have hleft := ha.content
  have hright := hb.content
  unfold plus at h
  split at h
  · simp only at h
    split at h
    · cases h
      exact .int _
    · cases h
  · cases h
    exact .float _
  · cases h
    exact .float _
  · cases h
    exact .float _
  · rename_i xs ys hxs hys
    cases h
    rw [hxs] at hleft
    rw [hys] at hright
    cases hleft with
    | array hitems =>
      cases hright with
      | array hmore => exact .array (List.forall_mem_append.2 ⟨hitems, hmore⟩)
  · rename_i xs _ hxs _
    cases h
    rw [hxs] at hleft
    cases hleft with
    | array hitems => exact .array (List.forall_mem_append.2 ⟨hitems, by simpa using hb⟩)
  · cases h
    exact .string _
  · cases h
    exact .string _
  · cases h
    exact .string _
  · cases h
    exact .string _
  · cases h

theorem pair?_wellFormed {v : Value} {p : String × Value} (hv : v.WellFormed)
    (h : v.pair? = .ok p) : p.2.WellFormed := by
  unfold pair? at h
  split at h
  · rename_i name value hitems
    split at h
    · cases h
      exact hv.of_array? hitems value (by simp)
    · cases h
  · cases h

theorem values_wellFormed {pairs : List Value} {read : List (String × Value)}
    (hpairs : ∀ v ∈ pairs, v.WellFormed) (h : pairs.mapM pair? = .ok read) :
    ∀ p ∈ read, p.2.WellFormed := by
  intro p hp
  obtain ⟨v, hv, hread⟩ := exists_of_mapM_eq_ok h hp
  exact pair?_wellFormed (hpairs v hv) hread

theorem tableOfPairs_wellFormed {pairs : List Value} {fields : Fields Value}
    (hpairs : ∀ v ∈ pairs, v.WellFormed) (h : tableOfPairs pairs = .ok fields) :
    (table fields).WellFormed := by
  unfold tableOfPairs at h
  obtain ⟨read, hread, h⟩ := bind_eq_ok_iff.1 h
  cases h
  exact wellFormed_ofPairs (values_wellFormed hpairs hread)

end Value

namespace TableCall

/-- The values that a call passes. -/
def passed : TableCall → List Value
  | build source => source.toList
  | index key => [key]
  | indexSet key value => [key, value]
  | indexAdd key value => [key, value]
  | set key value => [key, value]
  | contains key => [key]
  | remove key => [key]
  | _ => []

theorem ok_of_withName {α : Type} {key : Value} {fault : Fault} {k : String → Except Fault α}
    {a : α} (h : withName key fault k = .ok a) : ∃ name, k name = .ok a := by
  unfold withName at h
  split at h
  · exact ⟨_, h⟩
  · cases h

/-- A call on a table leaves a well-formed table and gives a well-formed value. -/
theorem run_wellFormed {call : TableCall} {fields after : Fields Value} {v : Value}
    (hpassed : ∀ w ∈ call.passed, w.WellFormed) (hfields : (Value.table fields).WellFormed)
    (h : call.run fields = .ok (v, after)) : v.WellFormed ∧ (Value.table after).WellFormed := by
  cases call with
  | build source =>
    cases source with
    | none =>
      cases h
      exact ⟨.unit, .table List.nodup_nil (by simp)⟩
    | some source =>
      have hsource := (hpassed source (by simp [passed])).content
      simp only [run] at h
      split at h
      · -- The items of an array are pairs.
        rename_i items hcontent
        rw [hcontent] at hsource
        cases hsource with
        | array hitems =>
          cases hread : Value.tableOfPairs items with
          | error e => rw [hread] at h; cases h
          | ok read =>
            rw [hread] at h
            cases h
            exact ⟨.unit, Value.tableOfPairs_wellFormed hitems hread⟩
      · rename_i given hcontent
        cases h
        rw [hcontent] at hsource
        cases hsource with
        | map hnames hgiven => exact ⟨.unit, .table hnames.nodup hgiven⟩
      · cases h
  | index key =>
    obtain ⟨name, hk⟩ := ok_of_withName h
    cases hk
    exact ⟨hfields.getD name, hfields⟩
  | indexSet key value =>
    obtain ⟨name, hk⟩ := ok_of_withName h
    cases hk
    exact ⟨.unit, hfields.insert (hpassed value (by simp [passed])).content⟩
  | indexAdd key value =>
    obtain ⟨name, hk⟩ := ok_of_withName h
    obtain ⟨sum, hsum, hk⟩ := bind_eq_ok_iff.1 hk
    cases hk
    have hvalue := (hpassed value (by simp [passed])).content
    exact ⟨.unit, hfields.insert (Value.plus_wellFormed (hfields.getD name) hvalue hsum)⟩
  | set key value =>
    obtain ⟨name, hk⟩ := ok_of_withName h
    cases hk
    have hset : (Value.table (Fields.insert fields name value.content)).WellFormed :=
      hfields.insert (hpassed value (by simp [passed])).content
    exact ⟨hset, hset⟩
  | contains key =>
    obtain ⟨name, hk⟩ := ok_of_withName h
    cases hk
    exact ⟨.bool _, hfields⟩
  | remove key =>
    obtain ⟨name, hk⟩ := ok_of_withName h
    cases hk
    exact ⟨hfields.getD name, hfields.erase⟩
  | len =>
    cases h
    exact ⟨.int _, hfields⟩
  | isEmpty =>
    cases h
    exact ⟨.bool _, hfields⟩
  | keys =>
    cases h
    refine ⟨.array ?_, hfields⟩
    intro w hw
    obtain ⟨name, -, rfl⟩ := List.mem_map.1 hw
    exact .string name
  | values =>
    cases h
    cases hfields with
    | table hnames hall =>
      refine ⟨.array ?_, .table hnames hall⟩
      intro w hw
      obtain ⟨f, hf, rfl⟩ := List.mem_map.1 hw
      exact hall f hf
  | toMap =>
    cases h
    cases hfields with
    | table hnames hall => exact ⟨Value.wellFormed_sorted hall, .table hnames hall⟩
  | toText =>
    cases h
    exact ⟨.string _, hfields⟩

end TableCall
end ScriptService
