import ScriptService.Proofs.Json.Tokens

/-!
# Documents and their texts

The text of a document is read as the document that it says, however deep it nests; whether all of
that can be read depends on how deep it does. A number that is not finite is written as null, so
that is what the text says.

Main statements: `Json.parse_render`, `Json.isReadable_asWritten` and `Json.nesting_render`.
-/

namespace ScriptService.Json

/-! ## What a text says -/

mutual
/-- The document that the text of a document says. -/
def asWritten : Json → Json
  | null => null
  | bool b => bool b
  | int n => int n
  | real x => if x.isFinite then real x else null
  | string s => string s
  | array items => array (itemsAsWritten items)
  | object members => object (membersAsWritten members)
  | unreadable => unreadable

def itemsAsWritten : List Json → List Json
  | [] => []
  | j :: rest => asWritten j :: itemsAsWritten rest

def membersAsWritten : List (String × Json) → List (String × Json)
  | [] => []
  | (name, j) :: rest => (name, asWritten j) :: membersAsWritten rest
end

mutual
/-- A document whose values can be told by their texts: the integers have 64 bits, the finite
numbers are read back, and nothing is unreadable. -/
def Writable : Json → Prop
  | int n => -9223372036854775808 ≤ n ∧ n < 18446744073709551616
  | real x => x.isFinite = true → ReadsBack x
  | array items => ItemsWritable items
  | object members => MembersWritable members
  | unreadable => False
  | _ => True

def ItemsWritable : List Json → Prop
  | [] => True
  | j :: rest => Writable j ∧ ItemsWritable rest

def MembersWritable : List (String × Json) → Prop
  | [] => True
  | (_, j) :: rest => Writable j ∧ MembersWritable rest
end

/-! ## Reading containers -/

/-- The items of an array, with the closing bracket. -/
def itemsText : List Json → List Char
  | [] => [']']
  | j :: rest => render j ++ renderItems rest

/-- The members of an object, with the closing brace. -/
def membersText : List (String × Json) → List Char
  | [] => ['\x7d']
  | (name, j) :: rest => renderString name ++ ':' :: render j ++ renderMembers rest

theorem render_array (items : List Json) : render (array items) = '[' :: itemsText items := by
  cases items with
  | nil => rfl
  | cons j rest => rfl

theorem render_object (members : List (String × Json)) :
    render (object members) = '\x7b' :: membersText members := by
  cases members with
  | nil => rfl
  | cons m rest => rfl

/-- The text of a document begins with a character that begins a value. -/
theorem render_eq_cons (j : Json) :
    ∃ c cs, render j = c :: cs ∧ isSpace c = false ∧ c ≠ ']' := by
  have hnumeral : ∀ {cs : List Char}, NumeralText cs → cs ≠ [] →
      ∃ c ds, cs = c :: ds ∧ isSpace c = false ∧ c ≠ ']' := by
    intro cs hcs hne
    cases cs with
    | nil => exact absurd rfl hne
    | cons c cs =>
      have hc := ne_of_isNumeral (hcs c List.mem_cons_self)
      exact ⟨c, cs, rfl, hc.1, hc.2.2.2.1⟩
  cases j with
  | null => exact ⟨'n', _, rfl, rfl, by decide⟩
  | bool b =>
    cases b with
    | false => exact ⟨'f', _, rfl, rfl, by decide⟩
    | true => exact ⟨'t', _, rfl, rfl, by decide⟩
  | int n =>
    rw [render]
    exact hnumeral (numeralText_ofInt n) (ofInt_ne_nil n)
  | real x =>
    rw [render]
    by_cases hx : x.isFinite = true
    · exact hnumeral (numeralText_renderReal hx) (renderReal_ne_nil hx)
    · rw [renderReal, if_neg hx]
      exact ⟨'n', _, rfl, rfl, by decide⟩
  | string s => exact ⟨'"', _, rfl, rfl, by decide⟩
  | array items =>
    rw [render_array]
    exact ⟨'[', _, rfl, rfl, by decide⟩
  | object members =>
    rw [render_object]
    exact ⟨'\x7b', _, rfl, rfl, by decide⟩
  | unreadable => exact ⟨'1', _, rfl, rfl, by decide⟩

theorem ends_renderItems (items : List Json) (r : List Char) : Ends (renderItems items ++ r) := by
  cases items with
  | nil => exact ends_cons rfl r
  | cons j rest => exact ends_cons rfl _

theorem ends_renderMembers (members : List (String × Json)) (r : List Char) :
    Ends (renderMembers members ++ r) := by
  cases members with
  | nil => exact ends_cons rfl r
  | cons m rest => exact ends_cons rfl _

theorem readName_renderString (name : String) (r : List Char) :
    readName (renderString name ++ ':' :: r) = some (some name, r) := by
  have hstring := readString_renderString name (':' :: r)
  have hspace : isSpace '"' = false := rfl
  have hcolon : isSpace ':' = false := rfl
  simp [readName, renderString, skipSpace_cons hspace, skipSpace_cons hcolon, hstring]

theorem readValue_string (s : String) (r : List Char) (fuel : Nat) :
    readValue (fuel + 1) (renderString s ++ r) = some (.string s, r) := by
  have hstring := readString_renderString s r
  have hspace : isSpace '"' = false := rfl
  simp [readValue, renderString, skipSpace_cons hspace, readScalar, hstring]

theorem readValue_null (r : List Char) (fuel : Nat) :
    readValue (fuel + 1) ("null".toList ++ r) = some (.null, r) := by
  have hspace : isSpace 'n' = false := rfl
  simp [readValue, skipSpace_cons hspace, readScalar]

theorem readValue_bool (b : Bool) (r : List Char) (fuel : Nat) :
    readValue (fuel + 1) (render (bool b) ++ r) = some (.bool b, r) := by
  have hfalse : isSpace 'f' = false := rfl
  have htrue : isSpace 't' = false := rfl
  cases b with
  | false => simp [render, readValue, skipSpace_cons hfalse, readScalar]
  | true => simp [render, readValue, skipSpace_cons htrue, readScalar]

theorem readValue_array {c : Char} (hspace : isSpace c = false) (hclose : c ≠ ']')
    (fuel : Nat) (cs : List Char) :
    readValue (fuel + 1) ('[' :: c :: cs) =
      (readItems fuel (c :: cs)).map fun p => (array p.1, p.2) := by
  have hopen : isSpace '[' = false := rfl
  rw [readValue, skipSpace_cons hopen]
  simp only [skipSpace_cons hspace]
  split
  · rename_i heq
    exact absurd (List.cons.inj heq).1 hclose
  · rfl

theorem readValue_object (fuel : Nat) (cs : List Char) :
    readValue (fuel + 1) ('\x7b' :: '"' :: cs) =
      (readMembers fuel ('"' :: cs)).map fun p => (ofMembers p.1, p.2) := by
  have hopen : isSpace '\x7b' = false := rfl
  have hquote : isSpace '"' = false := rfl
  rw [readValue, skipSpace_cons hopen]
  simp only [skipSpace_cons hquote]
  split
  · rename_i heq
    exact absurd (List.cons.inj heq).1 (by decide)
  · rfl

/-- Members as they are read, with names that can be read. -/
def named (members : List (String × Json)) : List (Option String × Json) :=
  members.map fun m => (some m.1, m.2)

theorem ofMembers_named (members : List (String × Json)) :
    ofMembers (named members) = object members := by
  have hnames : (named members).mapM (fun m => m.1.map (·, m.2)) = some members := by
    induction members with
    | nil => rfl
    | cons m members ih =>
      rw [named, List.map_cons, List.mapM_cons, ← named, ih]
      rfl
  rw [ofMembers, hnames]

/-! ## Reading what was written -/

mutual
/-- A document is read as it was written, whatever ends it. Two turns for each character are
enough. -/
theorem readValue_render : ∀ (j : Json) (fuel : Nat) (r : List Char), Writable j → Ends r →
    2 * (render j).length ≤ fuel → readValue fuel (render j ++ r) = some (asWritten j, r)
  | null, fuel + 1, r, _, _, _ => readValue_null r fuel
  | bool b, fuel + 1, r, _, _, _ => readValue_bool b r fuel
  | int n, fuel + 1, r, hj, hr, _ => by
    rw [Writable] at hj
    simpa [asWritten, render] using readValue_int hr hj.1 hj.2 fuel
  | real x, fuel + 1, r, hj, hr, _ => by
    rw [Writable] at hj
    by_cases hx : x.isFinite = true
    · simpa [asWritten, render, hx] using readValue_real hr hx (hj hx) fuel
    · simpa [asWritten, render, renderReal, hx] using readValue_null r fuel
  | string s, fuel + 1, r, _, _, _ => by
    simpa [asWritten, render] using readValue_string s r fuel
  | array [], fuel + 1, r, _, _, _ => by
    have hopen : isSpace '[' = false := rfl
    have hclose : isSpace ']' = false := rfl
    simp [render, readValue, skipSpace_cons hopen, skipSpace_cons hclose, asWritten,
      itemsAsWritten]
  | array (j :: rest), fuel + 1, r, hj, _, hfuel => by
    rw [Writable] at hj
    have htext : render (array (j :: rest)) = '[' :: itemsText (j :: rest) := render_array _
    rw [htext, List.length_cons] at hfuel
    have hitems := readItems_render (j :: rest) fuel r (by simp) hj
      (show 2 * (itemsText (j :: rest)).length < fuel + 1 by omega)
    -- The text of an item starts with no bracket that would close the array.
    rcases render_eq_cons j with ⟨c, cs, hcs, hspace, hclose⟩
    have hfirst : itemsText (j :: rest) ++ r = c :: (cs ++ renderItems rest ++ r) := by
      rw [itemsText, hcs]
      rfl
    rw [htext, List.cons_append]
    rw [hfirst] at hitems ⊢
    rw [readValue_array hspace hclose, hitems]
    rfl
  | object [], fuel + 1, r, _, _, _ => by
    have hopen : isSpace '\x7b' = false := rfl
    have hclose : isSpace '\x7d' = false := rfl
    simp [render, readValue, skipSpace_cons hopen, skipSpace_cons hclose, asWritten,
      membersAsWritten]
  | object ((name, j) :: rest), fuel + 1, r, hj, _, hfuel => by
    rw [Writable] at hj
    have htext : render (object ((name, j) :: rest)) = '\x7b' :: membersText ((name, j) :: rest) :=
      render_object _
    rw [htext, List.length_cons] at hfuel
    have hmembers := readMembers_render ((name, j) :: rest) fuel r (by simp) hj
      (show 2 * (membersText ((name, j) :: rest)).length < fuel + 1 by omega)
    have hfirst : membersText ((name, j) :: rest) ++ r =
        '"' :: (name.toList.flatMap escapeChar ++ ['"'] ++ ':' :: render j ++
          renderMembers rest ++ r) := rfl
    rw [htext, List.cons_append]
    rw [hfirst] at hmembers ⊢
    rw [readValue_object, hmembers, Option.map_some, ofMembers_named]
    rfl
  | unreadable, _, _, hj, _, _ => hj.elim
  -- No text is empty, so that there is fuel for it.
  | j, 0, _, _, _, hfuel => by
    rcases render_eq_cons j with ⟨c, cs, hcs, -, -⟩
    rw [hcs, List.length_cons] at hfuel
    omega

theorem readItems_render : ∀ (items : List Json) (fuel : Nat) (r : List Char), items ≠ [] →
    ItemsWritable items → 2 * (itemsText items).length < fuel + 1 →
      readItems fuel (itemsText items ++ r) = some (itemsAsWritten items, r)
  | [], _, _, hne, _, _ => absurd rfl hne
  | j :: rest, 0, _, _, _, hfuel => by
    rcases render_eq_cons j with ⟨c, cs, hcs, -, -⟩
    rw [itemsText, hcs, List.length_append, List.length_cons] at hfuel
    omega
  | j :: rest, fuel + 1, r, _, hj, hfuel => by
    rw [ItemsWritable] at hj
    rw [itemsText, List.length_append] at hfuel
    have hlength : 1 ≤ (renderItems rest).length := by
      cases rest with
      | nil => simp [renderItems]
      | cons k more => simp [renderItems]
    have hvalue := readValue_render j fuel _ hj.1 (ends_renderItems rest r)
      (show 2 * (render j).length ≤ fuel by omega)
    rw [itemsText, List.append_assoc, readItems, hvalue]
    cases rest with
    | nil =>
      have hclose : isSpace ']' = false := rfl
      simp [renderItems, skipSpace_cons hclose, itemsAsWritten]
    | cons k more =>
      have hcomma : isSpace ',' = false := rfl
      have hmore := readItems_render (k :: more) fuel r (by simp) hj.2 (by
        have hrest : (renderItems (k :: more)).length = (itemsText (k :: more)).length + 1 := rfl
        omega)
      have hrest : renderItems (k :: more) ++ r = ',' :: (itemsText (k :: more) ++ r) := rfl
      simp only [hrest, skipSpace_cons hcomma, Option.bind_eq_bind, Option.bind_some, hmore]
      rfl

theorem readMembers_render : ∀ (members : List (String × Json)) (fuel : Nat) (r : List Char),
    members ≠ [] → MembersWritable members → 2 * (membersText members).length < fuel + 1 →
      readMembers fuel (membersText members ++ r) = some (named (membersAsWritten members), r)
  | [], _, _, hne, _, _ => absurd rfl hne
  | (name, j) :: rest, 0, _, _, _, hfuel => by
    rw [membersText, renderString, List.cons_append, List.cons_append, List.cons_append,
      List.length_cons] at hfuel
    omega
  | (name, j) :: rest, fuel + 1, r, _, hj, hfuel => by
    rw [MembersWritable] at hj
    rw [membersText, List.length_append, List.length_append, List.length_cons] at hfuel
    have hlength : 1 ≤ (renderMembers rest).length := by
      cases rest with
      | nil => simp [renderMembers]
      | cons m more => simp [renderMembers]
    have hvalue := readValue_render j fuel _ hj.1 (ends_renderMembers rest r)
      (show 2 * (render j).length ≤ fuel by omega)
    have htext : membersText ((name, j) :: rest) ++ r =
        renderString name ++ ':' :: (render j ++ (renderMembers rest ++ r)) := by
      simp [membersText]
    rw [htext, readMembers, readName_renderString]
    simp only [Option.bind_eq_bind, Option.bind_some]
    rw [hvalue]
    cases rest with
    | nil =>
      have hclose : isSpace '\x7d' = false := rfl
      simp [renderMembers, skipSpace_cons hclose, membersAsWritten, named]
    | cons m more =>
      have hcomma : isSpace ',' = false := rfl
      have hmore := readMembers_render (m :: more) fuel r (by simp) hj.2 (by
        have hrest : (renderMembers (m :: more)).length =
          (membersText (m :: more)).length + 1 := rfl
        omega)
      have hrest : renderMembers (m :: more) ++ r = ',' :: (membersText (m :: more) ++ r) := rfl
      simp only [hrest, skipSpace_cons hcomma, Option.bind_some, hmore]
      rfl
end

/-- The text of a document is read as what it says. -/
theorem parse_render {j : Json} (hj : Writable j) : parse (render j) = some (asWritten j) := by
  have hread := readValue_render j _ [] hj ends_nil
    (show 2 * (render j).length ≤ 2 * (render j).length + 2 by omega)
  rw [List.append_nil] at hread
  simp only [parse, hread]
  rfl

mutual
/-- What a text says can be read if it does not nest deeper than the limit. -/
theorem isReadable_asWritten : ∀ (j : Json) (limit : Nat), Writable j →
    ((asWritten j).isReadable limit = true ↔ j.depth ≤ limit)
  | null, _, _ => by simp [asWritten, isReadable, depth]
  | bool b, _, _ => by simp [asWritten, isReadable, depth]
  | int n, _, _ => by simp [asWritten, isReadable, depth]
  | real x, _, _ => by
    rw [asWritten]
    split
    · simp [isReadable, depth]
    · simp [isReadable, depth]
  | string s, _, _ => by simp [asWritten, isReadable, depth]
  | array items, 0, _ => by simp [asWritten, isReadable, depth]
  | array items, limit + 1, hj => by
    simpa [asWritten, isReadable, depth] using itemsReadable_asWritten items limit hj
  | object members, 0, _ => by simp [asWritten, isReadable, depth]
  | object members, limit + 1, hj => by
    simpa [asWritten, isReadable, depth] using membersReadable_asWritten members limit hj
  | unreadable, _, hj => hj.elim

theorem itemsReadable_asWritten : ∀ (items : List Json) (limit : Nat), ItemsWritable items →
    ((∀ j ∈ itemsAsWritten items, j.isReadable limit = true) ↔ depthItems items ≤ limit)
  | [], _, _ => by simp [itemsAsWritten, depthItems]
  | j :: rest, limit, hj => by
    simp [itemsAsWritten, depthItems, isReadable_asWritten j limit hj.1,
      itemsReadable_asWritten rest limit hj.2, Nat.max_le]

theorem membersReadable_asWritten : ∀ (members : List (String × Json)) (limit : Nat),
    MembersWritable members →
      ((∀ name j, (name, j) ∈ membersAsWritten members → j.isReadable limit = true) ↔
        depthMembers members ≤ limit)
  | [], _, _ => by simp [membersAsWritten, depthMembers]
  | (name, j) :: rest, limit, hj => by
    have hfirst := isReadable_asWritten j limit hj.1
    have hrest := membersReadable_asWritten rest limit hj.2
    simp only [membersAsWritten, depthMembers, List.mem_cons, Prod.mk.injEq, Nat.max_le, ← hfirst,
      ← hrest]
    constructor
    · intro h
      exact ⟨h name _ (.inl ⟨rfl, rfl⟩), fun other k hk => h other k (.inr hk)⟩
    · rintro ⟨hreadable, hmore⟩ other k (⟨rfl, rfl⟩ | hk)
      · exact hreadable
      · exact hmore other k hk
end

/-! ## Nesting of a text -/

/-- Where a scanner stands in a text: outside of string literals, in one, or behind a backslash. -/
inductive Place where
  | outside
  | literal
  | escape

/-- The greatest number of brackets and braces that are open at one time, `opened` of them at the
start. Those in string literals do not count. -/
def nestingFrom : Place → Nat → List Char → Nat
  | _, opened, [] => opened
  | .outside, opened, c :: cs =>
    if c = '"' then nestingFrom .literal opened cs
    else if c = '[' ∨ c = '\x7b' then nestingFrom .outside (opened + 1) cs
    else if c = ']' ∨ c = '\x7d' then max opened (nestingFrom .outside (opened - 1) cs)
    else nestingFrom .outside opened cs
  | .literal, opened, c :: cs =>
    if c = '"' then nestingFrom .outside opened cs
    else if c = '\\' then nestingFrom .escape opened cs
    else nestingFrom .literal opened cs
  | .escape, opened, _ :: cs => nestingFrom .literal opened cs

/-- How deep containers nest in a text. -/
def nesting (text : List Char) : Nat := nestingFrom .outside 0 text

theorem le_nestingFrom (place : Place) (opened : Nat) (cs : List Char) :
    opened ≤ nestingFrom place opened cs := by
  fun_induction nestingFrom place opened cs with
  | case1 => exact Nat.le_refl _
  | case3 opened c cs _ _ ih => omega
  | case4 opened c cs _ _ _ ih => exact Nat.le_max_left _ _
  | case2 opened cs ih => exact ih
  | case5 opened c cs _ _ _ ih => exact ih
  | case6 opened cs ih => exact ih
  | case7 opened cs _ ih => exact ih
  | case8 opened c cs _ _ ih => exact ih
  | case9 opened c cs ih => exact ih

@[simp]
theorem max_nestingFrom (place : Place) (opened : Nat) (cs : List Char) :
    max opened (nestingFrom place opened cs) = nestingFrom place opened cs :=
  Nat.max_eq_right (le_nestingFrom place opened cs)

theorem nestingFrom_escapeChar (c : Char) (opened : Nat) (r : List Char) :
    nestingFrom .literal opened (escapeChar c ++ r) = nestingFrom .literal opened r := by
  -- A hexadecimal digit is neither a quote nor a backslash.
  have hhex : ∀ {d : Char} {v : Nat}, Digits.hexValue? d = some v → d ≠ '"' ∧ d ≠ '\\' := by
    intro d v hd
    refine ⟨?_, ?_⟩
    all_goals
      rintro rfl
      cases hd
  unfold escapeChar
  by_cases hquote : c = '"'
  · subst hquote
    simp [nestingFrom]
  by_cases hslash : c = '\\'
  · subst hslash
    simp [nestingFrom]
  simp only [hquote, hslash, if_false]
  by_cases hback : c = '\x08'
  · simp [hback, nestingFrom]
  by_cases hfeed : c = '\x0c'
  · simp [hfeed, nestingFrom]
  by_cases hline : c = '\n'
  · simp [hline, nestingFrom]
  by_cases hreturn : c = '\r'
  · simp [hreturn, nestingFrom]
  by_cases htab : c = '\t'
  · simp [htab, nestingFrom]
  simp only [hback, hfeed, hline, hreturn, htab, if_false]
  by_cases hcontrol : c.toNat < 0x20
  · rcases hexUnit?_control hcontrol with ⟨x, y, z, w, htext, hvalue⟩
    simp only [hexUnit?, Option.bind_eq_bind, Option.bind_eq_some_iff] at hvalue
    rcases hvalue with ⟨_, hx, _, hy, _, hz, _, hw, -⟩
    simp [hcontrol, htext, nestingFrom, hhex hx, hhex hy, hhex hz, hhex hw]
  · simp [hcontrol, nestingFrom, hquote, hslash]

theorem nestingFrom_renderString (s : String) (opened : Nat) (r : List Char) :
    nestingFrom .outside opened (renderString s ++ r) = nestingFrom .outside opened r := by
  have hbody : ∀ cs : List Char, nestingFrom .literal opened (cs.flatMap escapeChar ++ '"' :: r) =
      nestingFrom .outside opened r := by
    intro cs
    induction cs with
    | nil => simp [nestingFrom]
    | cons c cs ih => rw [List.flatMap_cons, List.append_assoc, nestingFrom_escapeChar, ih]
  simpa [renderString, nestingFrom] using hbody s.toList

theorem nestingFrom_numeral {cs : List Char} (hcs : NumeralText cs) (opened : Nat) (r : List Char) :
    nestingFrom .outside opened (cs ++ r) = nestingFrom .outside opened r := by
  induction cs with
  | nil => rfl
  | cons c cs ih =>
    rcases ne_of_isNumeral (hcs c List.mem_cons_self) with
      ⟨-, harray, hobject, harray', hobject', hquote, -⟩
    have hrest := ih fun d hd => hcs d (List.mem_cons_of_mem c hd)
    simp [nestingFrom, harray, hobject, harray', hobject', hquote, hrest]

mutual
/-- The text of a document opens as many containers at a time as the document is deep. -/
theorem nestingFrom_render : ∀ (j : Json) (opened : Nat) (r : List Char),
    nestingFrom .outside opened (render j ++ r) =
      max (opened + depth j) (nestingFrom .outside opened r)
  | null, opened, r => by simp [render, nestingFrom, depth]
  | bool b, opened, r => by
    cases b with
    | false => simp [render, nestingFrom, depth]
    | true => simp [render, nestingFrom, depth]
  | int n, opened, r => by
    rw [render, nestingFrom_numeral (numeralText_ofInt n)]
    simp [depth]
  | real x, opened, r => by
    rw [render]
    by_cases hx : x.isFinite = true
    · rw [nestingFrom_numeral (numeralText_renderReal hx)]
      simp [depth]
    · rw [renderReal, if_neg hx]
      simp [nestingFrom, depth]
  | string s, opened, r => by
    rw [render, nestingFrom_renderString]
    simp [depth]
  | array items, opened, r => by
    have hitems := nestingFrom_itemsText items opened r
    have hfirst : nestingFrom .outside opened (render (array items) ++ r) =
        nestingFrom .outside (opened + 1) (itemsText items ++ r) := by
      rw [render_array]
      simp [nestingFrom]
    rw [hfirst, hitems, depth]
    congr 1
    omega
  | object members, opened, r => by
    have hmembers := nestingFrom_membersText members opened r
    have hfirst : nestingFrom .outside opened (render (object members) ++ r) =
        nestingFrom .outside (opened + 1) (membersText members ++ r) := by
      rw [render_object]
      simp [nestingFrom]
    rw [hfirst, hmembers, depth]
    congr 1
    omega
  | unreadable, opened, r => by simp [render, nestingFrom, depth]

theorem nestingFrom_itemsText : ∀ (items : List Json) (opened : Nat) (r : List Char),
    nestingFrom .outside (opened + 1) (itemsText items ++ r) =
      max (opened + 1 + depthItems items) (nestingFrom .outside opened r)
  | [], opened, r => by simp [itemsText, nestingFrom, depthItems]
  | [j], opened, r => by
    have hvalue := nestingFrom_render j (opened + 1) (']' :: r)
    have hclose : nestingFrom .outside (opened + 1) (']' :: r) =
        max (opened + 1) (nestingFrom .outside opened r) := by simp [nestingFrom]
    rw [hclose] at hvalue
    rw [itemsText, renderItems, List.append_assoc, List.singleton_append, hvalue, depthItems,
      depthItems]
    omega
  | j :: k :: rest, opened, r => by
    have hvalue := nestingFrom_render j (opened + 1) (',' :: (itemsText (k :: rest) ++ r))
    have hmore := nestingFrom_itemsText (k :: rest) opened r
    have hcomma : nestingFrom .outside (opened + 1) (',' :: (itemsText (k :: rest) ++ r)) =
        nestingFrom .outside (opened + 1) (itemsText (k :: rest) ++ r) := by simp [nestingFrom]
    rw [hcomma, hmore] at hvalue
    have htext : itemsText (j :: k :: rest) ++ r =
        render j ++ (',' :: (itemsText (k :: rest) ++ r)) := by
      simp [itemsText, renderItems]
    have hdepth : depthItems (j :: k :: rest) = max (depth j) (depthItems (k :: rest)) := by
      rw [depthItems]
    rw [htext, hvalue, hdepth]
    omega

theorem nestingFrom_membersText : ∀ (members : List (String × Json)) (opened : Nat)
    (r : List Char), nestingFrom .outside (opened + 1) (membersText members ++ r) =
      max (opened + 1 + depthMembers members) (nestingFrom .outside opened r)
  | [], opened, r => by simp [membersText, nestingFrom, depthMembers]
  | [(name, j)], opened, r => by
    have hname := nestingFrom_renderString name (opened + 1) (':' :: (render j ++ ('\x7d' :: r)))
    have hvalue := nestingFrom_render j (opened + 1) ('\x7d' :: r)
    have hcolon : nestingFrom .outside (opened + 1) (':' :: (render j ++ ('\x7d' :: r))) =
        nestingFrom .outside (opened + 1) (render j ++ ('\x7d' :: r)) := by simp [nestingFrom]
    have hclose : nestingFrom .outside (opened + 1) ('\x7d' :: r) =
        max (opened + 1) (nestingFrom .outside opened r) := by simp [nestingFrom]
    have htext : membersText [(name, j)] ++ r =
        renderString name ++ (':' :: (render j ++ ('\x7d' :: r))) := by
      simp [membersText, renderMembers]
    rw [htext, hname, hcolon, hvalue, hclose, depthMembers, depthMembers]
    omega
  | (name, j) :: m :: rest, opened, r => by
    have hname := nestingFrom_renderString name (opened + 1)
      (':' :: (render j ++ (',' :: (membersText (m :: rest) ++ r))))
    have hvalue := nestingFrom_render j (opened + 1) (',' :: (membersText (m :: rest) ++ r))
    have hmore := nestingFrom_membersText (m :: rest) opened r
    have hcolon : nestingFrom .outside (opened + 1)
        (':' :: (render j ++ (',' :: (membersText (m :: rest) ++ r)))) =
        nestingFrom .outside (opened + 1) (render j ++ (',' :: (membersText (m :: rest) ++ r))) := by
      simp [nestingFrom]
    have hcomma : nestingFrom .outside (opened + 1) (',' :: (membersText (m :: rest) ++ r)) =
        nestingFrom .outside (opened + 1) (membersText (m :: rest) ++ r) := by simp [nestingFrom]
    have htext : membersText ((name, j) :: m :: rest) ++ r =
        renderString name ++ (':' :: (render j ++ (',' :: (membersText (m :: rest) ++ r)))) := by
      simp [membersText, renderMembers]
    have hdepth : depthMembers ((name, j) :: m :: rest) =
        max (depth j) (depthMembers (m :: rest)) := by
      rw [depthMembers]
    rw [htext, hname, hcolon, hvalue, hcomma, hmore, hdepth]
    omega
end

/-- The text of a document nests as deep as the document. -/
theorem nesting_render (j : Json) : nesting (render j) = depth j := by
  have htext := nestingFrom_render j 0 []
  rw [List.append_nil] at htext
  simpa [nesting, nestingFrom] using htext

end ScriptService.Json
