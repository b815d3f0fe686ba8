import ScriptService.Host.Resources
import ScriptService.Proofs.Script.Cells

/-!
# Texts of values in shared cells

A string is its own text, also in shared cells. Every other value is displayed, and the display
marks the shared cells that it comes across. So its text is that of the value without cells exactly
if the display comes across none; a table hides what is in it, and a function what it holds.

Main statement: `Value.texts_told`.
-/

namespace ScriptService.Value

/-! ## What is shown of shared cells -/

mutual
/-- How often `debug` marks a shared cell. -/
def marks : Value → Nat
  | array items => marksItems items
  | map fields => marksFields fields
  | function _ curried => marksItems curried
  | shared v => marks v + 1
  | _ => 0

def marksItems : List Value → Nat
  | [] => 0
  | v :: rest => marks v + marksItems rest

def marksFields : List (String × Value) → Nat
  | [] => 0
  | (_, v) :: rest => marks v + marksFields rest
end

/-- Whether a value that is displayed shows a shared cell: it is in one, or it is a container that
shows one. -/
def ShowsCell : Value → Prop
  | shared _ => True
  | array items => marksItems items ≠ 0
  | map fields => marksFields fields ≠ 0
  | _ => False

/-- The arguments that an array gives a child. -/
def arguments? (v : Value) : Option (List String) := v.array?.map fun items => items.map text

/-! ## Every value is a wrapping of the value without cells -/

/-- Items can be put into cells one after the other, wherever the list of them is. -/
theorem Wraps.items (place : List Value → Value)
    (hplace : ∀ before v w after, WrapsOne v w →
      WrapsOne (place (before ++ v :: after)) (place (before ++ w :: after)))
    {items : List Value} (hitems : ∀ v ∈ items, Wraps v.erase v) (before : List Value) :
    Wraps (place (before ++ eraseItems items)) (place (before ++ items)) := by
  induction items generalizing before with
  | nil => exact .refl
  | cons v rest ih =>
    have hfirst : Wraps (place (before ++ v.erase :: eraseItems rest))
        (place (before ++ v :: eraseItems rest)) :=
      (hitems v List.mem_cons_self).lift (fun x => place (before ++ x :: eraseItems rest))
        fun x y => hplace before x y (eraseItems rest)
    have hrest := ih (fun w hw => hitems w (List.mem_cons_of_mem v hw)) (before ++ [v])
    rw [List.append_assoc, List.append_assoc] at hrest
    exact hfirst.trans hrest

/-- The values of fields can be put into cells one after the other. -/
theorem Wraps.fields (place : Fields Value → Value)
    (hplace : ∀ before name v w after, WrapsOne v w →
      WrapsOne (place (before ++ (name, v) :: after)) (place (before ++ (name, w) :: after)))
    {fields : Fields Value} (hfields : ∀ f ∈ fields, Wraps f.2.erase f.2) (before : Fields Value) :
    Wraps (place (before ++ eraseFields fields)) (place (before ++ fields)) := by
  induction fields generalizing before with
  | nil => exact .refl
  | cons f rest ih =>
    have hfirst : Wraps (place (before ++ (f.1, f.2.erase) :: eraseFields rest))
        (place (before ++ f :: eraseFields rest)) :=
      (hfields f List.mem_cons_self).lift (fun x => place (before ++ (f.1, x) :: eraseFields rest))
        fun x y => hplace before f.1 x y (eraseFields rest)
    have hrest := ih (fun g hg => hfields g (List.mem_cons_of_mem f hg)) (before ++ [f])
    rw [List.append_assoc, List.append_assoc] at hrest
    exact hfirst.trans hrest

mutual
theorem wraps_erase : (v : Value) → Wraps v.erase v
  | .unit => .refl
  | .bool _ => .refl
  | .int _ => .refl
  | .float _ => .refl
  | .char _ => .refl
  | .string _ => .refl
  | .blob _ => .refl
  | .object _ _ => .refl
  | .array items =>
    Wraps.items .array (fun before _ _ after => .item before after) (wraps_items items) []
  | .map fields =>
    Wraps.fields .map (fun before name _ _ after => .mapField before name after)
      (wraps_fields fields) []
  | .table fields =>
    Wraps.fields .table (fun before name _ _ after => .tableField before name after)
      (wraps_fields fields) []
  | .function name curried =>
    Wraps.items (.function name) (fun before _ _ after => .curried name before after)
      (wraps_items curried) []
  | .shared v => (wraps_erase v).trans (.single (.here v))

theorem wraps_items : (items : List Value) → ∀ v ∈ items, Wraps v.erase v
  | v :: rest => List.forall_mem_cons.2 ⟨wraps_erase v, wraps_items rest⟩
  | [] => fun _ h => absurd h List.not_mem_nil

theorem wraps_fields : (fields : List (String × Value)) → ∀ f ∈ fields, Wraps f.2.erase f.2
  | (_, v) :: rest => List.forall_mem_cons.2 ⟨wraps_erase v, wraps_fields rest⟩
  | [] => fun _ h => absurd h List.not_mem_nil
end

/-! ## Values as scripts write them -/

theorem debug_array (v : Value) (rest : List Value) :
    (array (v :: rest)).debug = '[' :: v.debug ++ debugItems rest ++ [']'] :=
  rfl

theorem debug_map (name : String) (v : Value) (rest : List (String × Value)) :
    (map ((name, v) :: rest)).debug =
      '#' :: '\x7b' :: Text.quoted name ++ ':' :: ' ' :: v.debug ++ debugFields rest :=
  rfl

theorem debug_function (name : String) (curried : List Value) :
    (function name curried).debug =
      "Fn(".toList ++ Text.quoted name ++ debugItems curried ++ [')'] :=
  rfl

theorem debug_shared (v : Value) : (shared v).debug = v.debug ++ sharedMark := rfl

theorem debug_table (fields : Fields Value) : (table fields).debug = tableText := rfl

mutual
theorem length_debug : (v : Value) →
    v.debug.length = v.erase.debug.length + sharedMark.length * v.marks
  | .unit => rfl
  | .bool _ => rfl
  | .int _ => rfl
  | .float _ => rfl
  | .char _ => rfl
  | .string _ => rfl
  | .blob _ => rfl
  | .table _ => rfl
  | .object _ _ => rfl
  | .array [] => rfl
  | .array (v :: rest) => by
    have hv := length_debug v
    have hrest := length_debugItems rest
    simp only [erase, eraseItems, debug_array, marks, marksItems, List.length_cons,
      List.length_append, Nat.mul_add]
    omega
  | .map [] => rfl
  | .map ((name, v) :: rest) => by
    have hv := length_debug v
    have hrest := length_debugFields rest
    simp only [erase, eraseFields, debug_map, marks, marksFields, List.length_cons,
      List.length_append, Nat.mul_add]
    omega
  | .function name curried => by
    have hcurried := length_debugItems curried
    simp only [erase, debug_function, marks, List.length_append]
    omega
  | .shared v => by
    have hv := length_debug v
    simp only [erase, debug_shared, marks, List.length_append, Nat.mul_add]
    omega

theorem length_debugItems : (items : List Value) →
    (debugItems items).length =
      (debugItems (eraseItems items)).length + sharedMark.length * marksItems items
  | [] => rfl
  | v :: rest => by
    have hv := length_debug v
    have hrest := length_debugItems rest
    simp only [eraseItems, debugItems, marksItems, List.length_cons, List.length_append,
      Nat.mul_add]
    omega

theorem length_debugFields : (fields : List (String × Value)) →
    (debugFields fields).length =
      (debugFields (eraseFields fields)).length + sharedMark.length * marksFields fields
  | [] => rfl
  | (name, v) :: rest => by
    have hv := length_debug v
    have hrest := length_debugFields rest
    simp only [eraseFields, debugFields, marksFields, List.length_cons, List.length_append,
      Nat.mul_add]
    omega
end

mutual
theorem debug_of_unmarked : (v : Value) → v.marks = 0 → v.debug = v.erase.debug
  | .unit, _ => rfl
  | .bool _, _ => rfl
  | .int _, _ => rfl
  | .float _, _ => rfl
  | .char _, _ => rfl
  | .string _, _ => rfl
  | .blob _, _ => rfl
  | .table _, _ => rfl
  | .object _ _, _ => rfl
  | .array [], _ => rfl
  | .array (v :: rest), h => by
    rw [marks, marksItems, Nat.add_eq_zero_iff] at h
    rw [erase, eraseItems, debug_array, debug_array, debug_of_unmarked v h.1,
      debugItems_of_unmarked rest h.2]
  | .map [], _ => rfl
  | .map ((name, v) :: rest), h => by
    rw [marks, marksFields, Nat.add_eq_zero_iff] at h
    rw [erase, eraseFields, debug_map, debug_map, debug_of_unmarked v h.1,
      debugFields_of_unmarked rest h.2]
  | .function name curried, h => by
    rw [marks] at h
    rw [erase, debug_function, debug_function, debugItems_of_unmarked curried h]
  | .shared v, h => by
    rw [marks] at h
    omega

theorem debugItems_of_unmarked :
    (items : List Value) → marksItems items = 0 → debugItems items = debugItems (eraseItems items)
  | [], _ => rfl
  | v :: rest, h => by
    rw [marksItems, Nat.add_eq_zero_iff] at h
    rw [eraseItems, debugItems, debugItems, debug_of_unmarked v h.1,
      debugItems_of_unmarked rest h.2]

theorem debugFields_of_unmarked : (fields : List (String × Value)) → marksFields fields = 0 →
    debugFields fields = debugFields (eraseFields fields)
  | [], _ => rfl
  | (name, v) :: rest, h => by
    rw [marksFields, Nat.add_eq_zero_iff] at h
    rw [eraseFields, debugFields, debugFields, debug_of_unmarked v h.1,
      debugFields_of_unmarked rest h.2]
end

theorem debug_eq_erase_iff (v : Value) : v.debug = v.erase.debug ↔ v.marks = 0 := by
  constructor
  · intro h
    have hlength := length_debug v
    rw [h] at hlength
    have hmark : sharedMark.length = 9 := by decide
    rw [hmark] at hlength
    omega
  · exact debug_of_unmarked v

/-! ## Values in a cell -/

/-- A value in cells is displayed as its content, with marks behind it. -/
theorem displayShared_content (v : Value) :
    ∃ tail, v.displayShared = v.content.displayShared ++ tail := by
  fun_induction content v with
  | case1 v ih =>
    obtain ⟨tail, htail⟩ := ih
    exact ⟨tail ++ sharedMark, by rw [displayShared, htail, List.append_assoc]⟩
  | case2 v hplain => exact ⟨[], (List.append_nil _).symm⟩

theorem getLast?_debugFields (fields : List (String × Value)) :
    (debugFields fields).getLast? = some '\x7d' := by
  induction fields with
  | nil => rfl
  | cons f rest ih => rw [debugFields, List.getLast?_append, ih, Option.some_or]

theorem getLast?_debug_array (items : List Value) : (array items).debug.getLast? = some ']' := by
  cases items with
  | nil => rfl
  | cons v rest => rw [debug_array, List.getLast?_concat]

theorem getLast?_debug_map (fields : Fields Value) : (map fields).debug.getLast? = some '\x7d' := by
  cases fields with
  | nil => rfl
  | cons f rest => rw [debug_map, List.getLast?_append, getLast?_debugFields, Option.some_or]

theorem getLast?_display_shared (v : Value) : (shared v).display.getLast? = some ')' := by
  rw [display, List.getLast?_append]
  rfl

theorem display_shared_ne (v : Value) : (shared v).display ≠ v.erase.display := by
  intro h
  have hlast := congrArg List.getLast? h
  rw [getLast?_display_shared, ← erase_content] at hlast
  have hlength := congrArg List.length h
  obtain ⟨tail, htail⟩ := displayShared_content v
  rw [display, htail, ← erase_content, List.length_append, List.length_append] at hlength
  have hmark : sharedMark.length = 9 := by decide
  -- A container without cells ends in its bracket, anything else is shorter by the marks.
  cases hv : v.content with
  | shared w => exact absurd hv (content_ne_shared v w)
  | array items =>
    rw [hv, erase, display, displayPlain, getLast?_debug_array] at hlast
    · exact absurd hlast (by decide)
    all_goals simp
  | map fields =>
    rw [hv, erase, display, displayPlain, getLast?_debug_map] at hlast
    · exact absurd hlast (by decide)
    all_goals simp
  | _ =>
    rw [hv] at hlength
    simp only [displayShared, display, erase, displayPlain, debug_table] at hlength
    omega

theorem display_eq_erase_iff (v : Value) : v.display = v.erase.display ↔ ¬ v.ShowsCell := by
  cases v with
  | shared w =>
    constructor
    · intro h
      exact absurd h (display_shared_ne w)
    · intro h
      exact absurd trivial h
  | array items => exact (debug_eq_erase_iff (array items)).trans not_not.symm
  | map fields => exact (debug_eq_erase_iff (map fields)).trans not_not.symm
  | _ => exact iff_of_true rfl not_false

/-! ## Texts -/

theorem text_of_string {v : Value} {s : String} (h : v.string? = some s) : v.text = s := by
  rw [text, h, Option.getD_some]

theorem text_of_no_string {v : Value} (h : v.string? = none) :
    v.text = String.ofList v.display := by
  rw [text, h, Option.getD_none]

theorem text_eq_erase_iff (v : Value) :
    v.text = v.erase.text ↔ v.string?.isSome ∨ ¬ v.ShowsCell := by
  cases hv : v.string? with
  | some s =>
    have herase : v.erase.string? = some s := (string?_erase v).trans hv
    rw [text_of_string hv, text_of_string herase]
    exact iff_of_true rfl (.inl rfl)
  | none =>
    have herase : v.erase.string? = none := (string?_erase v).trans hv
    rw [text_of_no_string hv, text_of_no_string herase, String.ofList_inj, display_eq_erase_iff]
    simp

theorem arguments?_shared (v : Value) : (shared v).arguments? = v.arguments? := rfl

theorem arguments?_eq_erase_iff (v : Value) :
    v.arguments? = v.erase.arguments? ↔
      ∀ items, v.array? = some items → ∀ w ∈ items, w.string?.isSome ∨ ¬ w.ShowsCell := by
  rw [arguments?, arguments?, array?_erase]
  cases v.array? with
  | none => exact iff_of_true rfl (fun items h => absurd h (by simp))
  | some items =>
    have heach : (items.map text = (eraseItems items).map text) ↔
        ∀ w ∈ items, w.string?.isSome ∨ ¬ w.ShowsCell := by
      rw [eraseItems_eq_map, List.map_map, List.map_inj_left]
      exact forall₂_congr fun w _ => text_eq_erase_iff w
    simp only [Option.map_some, Option.some.injEq, heach, forall_eq']

theorem process_of_arguments {v w : Value} (h : w.arguments? = v.arguments?) (callback : Value)
    (attached : Option Value) (r : Resources) :
    r.process callback w attached = r.process callback v attached := by
  unfold arguments? at h
  cases hw : w.array? with
  | none =>
    cases hv : v.array? with
    | none => rw [Resources.process, Resources.process, hw, hv]
    | some items => simp [hw, hv] at h
  | some words =>
    cases hv : v.array? with
    | none => simp [hw, hv] at h
    | some items =>
      rw [hw, hv, Option.map_some, Option.map_some, Option.some.injEq] at h
      cases hf : callback.callback? with
      | none => simp only [Resources.process, hw, hv, hf]
      | some f => simp only [Resources.process, hw, hv, hf, h]

/-- The texts that leave the host for a value, and what they owe to the shared cells in it. -/
structure TextsTold (v : Value) : Prop where
  /-- The value without its cells is a value of which some parts are put into cells to get it. -/
  wrapped : Wraps v.erase v
  /-- A string is passed as it is, in cells or not. -/
  string : ∀ s, v.string? = some s → v.text = s
  /-- Any other value is displayed. -/
  displayed : v.string? = none → v.text = String.ofList v.display
  /-- The cells do not matter to strings, nor to what shows none of them; to all else they do. -/
  text_iff : v.text = v.erase.text ↔ v.string?.isSome ∨ ¬ v.ShowsCell
  /-- A cell around the array of arguments does not matter. -/
  outer : (shared v).arguments? = v.arguments?
  /-- Other cells do not matter to arguments exactly if they do not matter to each item. -/
  arguments_iff : v.arguments? = v.erase.arguments? ↔
    ∀ items, v.array? = some items → ∀ w ∈ items, w.string?.isSome ∨ ¬ w.ShowsCell
  /-- The log sees nothing of a value but its text. -/
  logged : ∀ (w : Value) (severity : Severity) (r : Resources),
    w.text = v.text → r.log severity w = r.log severity v
  /-- A child is started with the texts and sees nothing else of the array. -/
  started : ∀ (w callback : Value) (attached : Option Value) (r : Resources),
    w.arguments? = v.arguments? → r.process callback w attached = r.process callback v attached

/-- For every value, however cells are put around its parts: the log and the children are told the
text without cells exactly if the display comes across none. -/
theorem texts_told (v : Value) : TextsTold v where
  wrapped := wraps_erase v
  string _ := text_of_string
  displayed := text_of_no_string
  text_iff := text_eq_erase_iff v
  outer := arguments?_shared v
  arguments_iff := arguments?_eq_erase_iff v
  logged w severity r h := by rw [Resources.log, Resources.log, h]
  started _ callback attached r h := process_of_arguments h callback attached r

/-- An integer in a cell is told with the mark, alone and as an item. -/
theorem text_marked :
    Wraps (int 5) (shared (int 5)) ∧
    (int 5).text = "5" ∧ (shared (int 5)).text = "5 (shared)" ∧
    Wraps (array [string "a", int 5]) (array [string "a", shared (int 5)]) ∧
    (array [string "a", int 5]).arguments? = some ["a", "5"] ∧
    (array [string "a", shared (int 5)]).arguments? = some ["a", "5 (shared)"] := by
  refine ⟨.single (.here _), by decide +kernel, by decide +kernel, ?_, by decide +kernel,
    by decide +kernel⟩
  exact .single (.item [string "a"] [] (.here (int 5)))

end ScriptService.Value
