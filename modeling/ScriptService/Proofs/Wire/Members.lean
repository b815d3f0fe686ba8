import Mathlib.Logic.Relation
import ScriptService.Proofs.Wire.Foreign
import ScriptService.Proofs.Wire.Sources

/-!
# Members in any order

The objects of a document may be rearranged: their members may come in any order, and among members
of names that the type does not know. In a buffer the document is read the same, whether that gives
a value or nothing (`Wire.interpret?_rearranged`); so a payload may stand before the tag that says
how to read it. Nothing is read of an object that gives a member twice that its type knows.

Not everything is read from a buffer. An attribute whose kind comes first is read straight from the
text, and there the kinds have fewer spellings and what is passed over need not be readable. So
whether something is read may depend on the order of members, while what is read does not.

A type reads each of its members by itself (`Json.lookAt?`), so a rearrangement matters to it only
if it changes how some member is read.

Main statement: `Wire.members_unordered`.
-/

namespace ScriptService

/-! ## Rearranged documents -/

namespace Json

/-- The members of one object in a document come in another order. -/
inductive ReordersOne : Json → Json → Prop where
  | order {members members' : List (String × Json)} (h : members.Perm members') :
    ReordersOne (object members) (object members')
  | item (before after : List Json) {j j' : Json} (h : ReordersOne j j') :
    ReordersOne (array (before ++ j :: after)) (array (before ++ j' :: after))
  | member (before after : List (String × Json)) (name : String) {j j' : Json}
    (h : ReordersOne j j') :
    ReordersOne (memberPlace before after j name) (memberPlace before after j' name)

/-- A document is rearranged at one place: the members of an object come in another order, a member
of a name that is not known joins them, or this happens somewhere inside. Members do not join what
stands for a name (`names`), which is no record. -/
inductive RearrangesOne (known names : String → Prop) : Json → Json → Prop where
  | order {j j' : Json} (h : ReordersOne j j') : RearrangesOne known names j j'
  | extra (before after : List (String × Json)) {name : String} (value : Json)
    (hname : ¬ known name) :
    RearrangesOne known names (object (before ++ after)) (object (before ++ (name, value) :: after))
  | item (before after : List Json) {j j' : Json} (h : RearrangesOne known names j j') :
    RearrangesOne known names (array (before ++ j :: after)) (array (before ++ j' :: after))
  | member (before after : List (String × Json)) {name : String} (hname : ¬ names name)
    {j j' : Json} (h : RearrangesOne known names j j') :
    RearrangesOne known names (memberPlace before after j name) (memberPlace before after j' name)

/-- An array or an object. -/
def IsContainer : Json → Prop
  | array _ => True
  | object _ => True
  | _ => False

theorem string?_container {j : Json} (h : j.IsContainer) : j.string? = none := by
  cases j with
  | array items => rfl
  | object members => rfl
  | _ => exact h.elim

theorem integer?_container {j : Json} (h : j.IsContainer) (low high : Int) :
    j.integer? low high = none := by
  cases j with
  | array items => rfl
  | object members => rfl
  | _ => exact h.elim

theorem double?_container {j : Json} (h : j.IsContainer) : j.double? = none := by
  cases j with
  | array items => rfl
  | object members => rfl
  | _ => exact h.elim

theorem string?_eq_some {j : Json} {s : String} : j.string? = some s ↔ j = .string s := by
  cases j with
  | string t => simp [string?]
  | _ => exact iff_of_false (by simp [string?]) (by simp)

theorem ReordersOne.isContainer {j j' : Json} (h : ReordersOne j j') :
    j.IsContainer ∧ j'.IsContainer := by
  cases h with
  | order h => exact ⟨trivial, trivial⟩
  | item before after h => exact ⟨trivial, trivial⟩
  | member before after name h => exact ⟨trivial, trivial⟩

theorem RearrangesOne.isContainer {known names : String → Prop} {j j' : Json}
    (h : RearrangesOne known names j j') : j.IsContainer ∧ j'.IsContainer := by
  cases h with
  | order h => exact h.isContainer
  | extra before after value hname => exact ⟨trivial, trivial⟩
  | item before after h => exact ⟨trivial, trivial⟩
  | member before after hname h => exact ⟨trivial, trivial⟩

/-- The order of members does not matter to whether all of them can be read. -/
theorem ReordersOne.isReadable_eq {j j' : Json} (h : ReordersOne j j') (limit : Nat) :
    j.isReadable limit = j'.isReadable limit := by
  induction h generalizing limit with
  | order h =>
    cases limit with
    | zero => rfl
    | succ limit => exact h.all_eq
  | item before after _ ih =>
    cases limit with
    | zero => rfl
    | succ limit => simp [isReadable, ih]
  | member before after name _ ih =>
    cases limit with
    | zero => rfl
    | succ limit => simp [memberPlace, isReadable, ih]

theorem alternative?_of_not_one {members : List (String × Json)} (h : ∀ m, members ≠ [m])
    (reading : Reading) (limit : Nat) : (object members).alternative? reading limit = none := by
  unfold alternative?
  split
  · rename_i heq
    cases heq
  · rename_i heq
    exact absurd (Json.object.inj heq) (h _)
  · rename_i heq
    exact absurd (Json.object.inj heq) (h _)
  · rfl

/-- Around a container an object names something only if the container is empty. -/
theorem alternative?_one {name : String} {members : List (String × Json)} (h : members ≠ [])
    (reading : Reading) (limit : Nat) :
    (object [(name, object members)]).alternative? reading limit = none := by
  cases members with
  | nil => exact absurd rfl h
  | cons m members => simp [alternative?]

/-- Neither does it matter to one of several names. -/
theorem ReordersOne.alternative?_eq {j j' : Json} (h : ReordersOne j j') (reading : Reading)
    (limit : Nat) : j.alternative? reading limit = j'.alternative? reading limit := by
  cases h with
  | @order members members' h =>
    by_cases hone : ∃ m, members = [m]
    · obtain ⟨m, rfl⟩ := hone
      rw [List.perm_singleton.1 h.symm]
    · rw [alternative?_of_not_one fun m hm => hone ⟨m, hm⟩]
      refine (alternative?_of_not_one (fun m hm => hone ⟨m, ?_⟩) reading limit).symm
      rw [hm] at h
      exact List.perm_singleton.1 h
  | item before after h => rfl
  | @member before after name j j' h =>
    by_cases halone : before = [] ∧ after = []
    · obtain ⟨rfl, rfl⟩ := halone
      cases h with
      | @order members members' h =>
        by_cases hempty : members = []
        · subst hempty
          rw [h.nil_eq]
        · have hempty' : members' ≠ [] := by
            rintro rfl
            exact hempty h.eq_nil
          exact (alternative?_one hempty reading limit).trans
            (alternative?_one hempty' reading limit).symm
      | item before after h => rfl
      | @member before after other k k' h =>
        have hempty : ∀ v, before ++ (other, v) :: after ≠ [] := by simp
        exact (alternative?_one (hempty k) reading limit).trans
          (alternative?_one (hempty k') reading limit).symm
    · have hmore : ∀ v m, before ++ (name, v) :: after ≠ [m] := by
        intro v m heq
        rcases List.append_eq_singleton_iff.1 heq with ⟨hbefore, hafter⟩ | ⟨-, hafter⟩
        · exact halone ⟨hbefore, (List.cons.inj hafter).2⟩
        · cases hafter
      rw [memberPlace, memberPlace, alternative?_of_not_one (hmore j),
        alternative?_of_not_one (hmore j')]

/-! ## Single members -/

section Members

variable {name other : String} {members members' : List (String × Json)}

theorem member?_eq_none_iff : member? name members = none ↔ 2 ≤ (values name members).length := by
  unfold member?
  split
  · rename_i hvalues
    simp [hvalues]
  · rename_i hvalues
    simp [hvalues]
  · rename_i hnil hone
    refine iff_of_true rfl ?_
    cases hvalues : values name members with
    | nil => exact absurd hvalues hnil
    | cons a as =>
      cases as with
      | nil => exact absurd hvalues (hone a)
      | cons b bs => simp

theorem member?_eq_some_none : member? name members = some none ↔ values name members = [] := by
  unfold member?
  split
  · rename_i hvalues
    simp [hvalues]
  · rename_i hvalues
    simp [hvalues]
  · rename_i hnil _
    exact iff_of_false (by simp) hnil

theorem member?_eq_some_some {j : Json} :
    member? name members = some (some j) ↔ values name members = [j] := by
  unfold member?
  split
  · rename_i hvalues
    simp [hvalues]
  · rename_i hvalues
    simp [hvalues]
  · rename_i hone
    exact iff_of_false (by simp) (hone j)

theorem member?_perm (h : members.Perm members') (name : String) :
    member? name members = member? name members' := by
  have hvalues : (values name members).Perm (values name members') := values_perm h
  by_cases htwice : 2 ≤ (values name members).length
  · rw [member?_eq_none_iff.2 htwice, member?_eq_none_iff.2 (hvalues.length_eq ▸ htwice)]
  · -- Lists of at most one value are the same in every order.
    have hequal : values name members = values name members' := by
      cases hmembers : values name members with
      | nil =>
        rw [hmembers] at hvalues
        exact hvalues.nil_eq
      | cons a as =>
        cases as with
        | nil =>
          rw [hmembers] at hvalues
          exact (List.perm_singleton.1 hvalues.symm).symm
        | cons b bs =>
          rw [hmembers] at htwice
          simp at htwice
    rw [member?, member?, hequal]

end Members

/-- What a view sees of the member of a name, or of its absence; nothing if there are several. -/
def lookAt? {β : Type} (members : List (String × Json)) (name : String)
    (view : Option Json → Option β) : Option β :=
  (member? name members).bind view

section Fields

variable {β : Type} {name other : String} {members members' : List (String × Json)}
  {view : Option Json → Option β} (before after : List (String × Json)) {j j' : Json}

theorem lookAt?_perm (h : members.Perm members') (name : String) (view : Option Json → Option β) :
    lookAt? members name view = lookAt? members' name view := by
  rw [lookAt?, lookAt?, member?_perm h]

theorem lookAt?_place_other (h : name ≠ other) :
    lookAt? (before ++ (other, j) :: after) name view = lookAt? (before ++ after) name view := by
  rw [lookAt?, lookAt?, member?_place_other before after j h]

theorem lookAt?_place (h : name = other → view (some j) = view (some j')) :
    lookAt? (before ++ (other, j) :: after) name view =
      lookAt? (before ++ (other, j') :: after) name view := by
  by_cases hname : name = other
  · subst hname
    rw [lookAt?, lookAt?, member?_place_self, member?_place_self]
    split
    · exact h rfl
    · rfl
  · rw [lookAt?_place_other before after hname, lookAt?_place_other before after hname]

theorem lookAt?_repeated (h : 2 ≤ (values name members).length) :
    lookAt? members name view = none := by
  rw [lookAt?, member?_eq_none_iff.2 h, Option.bind_none]

end Fields

/-- A member that has to be there. -/
abbrev required {β : Type} (members : List (String × Json)) (name : String)
    (view : Json → Option β) : Option β :=
  lookAt? members name (·.bind view)

end Json

/-! ## Attributes -/

namespace Attribute

open Json

/-- The members that an attribute has. -/
def fieldNames : List String := ["type", "value"]

/-- The member that tells the kind of an attribute. -/
def IsKind (name : String) : Prop := name = "type"

theorem values_ownMembers {name : String} (hname : name ∈ fieldNames)
    (members : List (String × Json)) : values name (ownMembers members) = values name members := by
  have hown : ∀ m : String × Json, m.1 = name → (m.1 == "type" || m.1 == "value") = true := by
    intro m hm
    rw [hm]
    simpa [fieldNames] using hname
  rw [values, values, ownMembers, List.filter_filter]
  congr 2
  funext m
  by_cases hm : m.1 = name
  · rw [hown m hm, Bool.and_true]
  · simp [hm]

theorem member?_ownMembers {name : String} (hname : name ∈ fieldNames)
    (members : List (String × Json)) : member? name (ownMembers members) = member? name members := by
  rw [member?, member?, values_ownMembers hname]

/-- In a buffer each of the two members is read by itself. -/
theorem read?_object (limit : Nat) (members : List (String × Json)) :
    read? (limit + 1) .buffered (object members) =
      (required members "type" (·.alternative? .buffered limit)).bind fun kind =>
        lookAt? members "value" (content? limit .buffered kind) := by
  have htype : member? "type" (ownMembers members) = member? "type" members :=
    member?_ownMembers (by decide) members
  have hvalue : member? "value" (ownMembers members) = member? "value" members :=
    member?_ownMembers (by decide) members
  rw [read?]
  simp only [form?, required, lookAt?]
  split
  · rename_i kind hown
    rw [← htype, ← hvalue, hown]
    show _ = (kind.alternative? .buffered limit).bind fun kind => content? limit .buffered kind none
    cases kind.alternative? .buffered limit <;> rfl
  · rename_i kind content hown
    rw [← htype, ← hvalue, hown]
    show _ = (kind.alternative? .buffered limit).bind
      fun kind => content? limit .buffered kind (some content)
    cases kind.alternative? .buffered limit <;> rfl
  · rename_i content kind hown
    rw [← htype, ← hvalue, hown, if_pos (.inl trivial)]
    show _ = (kind.alternative? .buffered limit).bind
      fun kind => content? limit .buffered kind (some content)
    cases kind.alternative? .buffered limit <;> rfl
  · -- A kind and at most one content would be the members of an attribute.
    rename_i hone hboth hturned
    rw [Option.bind_none]
    symm
    rw [Option.bind_eq_none_iff]
    intro kind hkind
    obtain ⟨given, hgiven, hnamed⟩ := Option.bind_eq_some_iff.1 hkind
    obtain ⟨k, rfl, -⟩ := Option.bind_eq_some_iff.1 hnamed
    have hkinds := member?_eq_some_some.1 hgiven
    rw [Option.bind_eq_none_iff]
    intro content hcontent
    cases content with
    | none => exact absurd (ownMembers_kind hkinds (member?_eq_some_none.1 hcontent)) (hone k)
    | some c =>
      rcases ownMembers_both hkinds (member?_eq_some_some.1 hcontent) with hown | hown
      · exact absurd hown (hboth k c)
      · exact absurd hown (hturned c k)

theorem read?_array (limit : Nat) (reading : Reading) (items : List Json) :
    read? (limit + 1) reading (.array items) = match items with
      | [kind, content] => (pairKind? reading kind).bind fun kind =>
        content? limit reading kind (some content)
      | _ => none := by
  rcases items with _ | ⟨kind, _ | ⟨content, _ | ⟨third, rest⟩⟩⟩
  · rfl
  · rfl
  · rw [read?]
    simp only [form?]
    cases pairKind? reading kind <;> rfl
  · rfl

/-! ## What is read alike -/

/-- No scalar is written as an array or an object. -/
theorem scalar?_container {j : Json} (h : j.IsContainer) (kind : String) :
    scalar? kind (some j) = none := by
  unfold scalar?
  split
  all_goals simp_all [integer?_container, double?_container]
  all_goals exact h.elim

/-- Two containers that are read alike in a buffer wherever an attribute has them. -/
structure Alike (j j' : Json) : Prop where
  container : j.IsContainer ∧ j'.IsContainer
  read : ∀ limit, read? limit .buffered j = read? limit .buffered j'
  field : ∀ limit, field? limit .buffered j = field? limit .buffered j'
  content : ∀ limit kind,
    content? limit .buffered kind (some j) = content? limit .buffered kind (some j')

theorem content?_object (limit : Nat) (reading : Reading) (kind : String)
    (members : List (String × Json)) :
    content? limit reading kind (some (object members)) = none := by
  rw [content?_of_not_array _ _ (by simp)]
  exact scalar?_container (show (object members).IsContainer from trivial) kind

/-- Two objects are read alike if the kind and the content are. -/
theorem alike_objects {members members' : List (String × Json)}
    (hkind : ∀ limit, required members "type" (·.alternative? .buffered limit) =
      required members' "type" (·.alternative? .buffered limit))
    (hcontent : ∀ limit kind, lookAt? members "value" (content? limit .buffered kind) =
      lookAt? members' "value" (content? limit .buffered kind)) :
    Alike (object members) (object members') where
  container := ⟨trivial, trivial⟩
  read limit := by
    cases limit with
    | zero => rfl
    | succ limit =>
      rw [read?_object, read?_object, hkind]
      exact congrArg _ (funext (hcontent limit))
  field limit := by cases limit <;> rfl
  content limit kind := by rw [content?_object, content?_object]

variable {j j' : Json}

theorem read?_array_first (h : j.IsContainer) (limit : Nat) (after : List Json) :
    read? limit .buffered (.array (j :: after)) = none := by
  cases limit with
  | zero => rfl
  | succ limit =>
    rw [read?_array]
    split
    · rename_i kind content heq
      obtain ⟨rfl, -⟩ := List.cons.inj heq
      cases j with
      | array items => rfl
      | object members => rfl
      | _ => exact h.elim
    · rfl

theorem field?_first (h : j.IsContainer) (limit : Nat) (after : List Json) :
    field? limit .buffered (.array (j :: after)) = none := by
  unfold field?
  split
  · rename_i name content heq
    obtain ⟨rfl, -⟩ := List.cons.inj (Json.array.inj heq)
    exact h.elim
  · rfl

/-- Two arrays are read alike if they differ in an item that is read alike. -/
theorem Alike.item (h : Alike j j') (before after : List Json) :
    Alike (.array (before ++ j :: after)) (.array (before ++ j' :: after)) where
  container := ⟨trivial, trivial⟩
  -- As an attribute the array is a pair: the item may be the content, and is no kind.
  read limit := by
    rcases before with _ | ⟨kind, _ | ⟨second, rest⟩⟩
    · rw [List.nil_append, List.nil_append, read?_array_first h.container.1,
        read?_array_first h.container.2]
    · cases limit with
      | zero => rfl
      | succ limit =>
        rw [read?_array, read?_array]
        cases after with
        | nil => exact congrArg (Option.bind _) (funext (h.content limit))
        | cons third rest => simp
    · cases limit with
      | zero => rfl
      | succ limit =>
        rw [read?_array, read?_array]
        cases rest <;> simp
  -- As a field it is a pair too: the item may be the attribute, and is no name.
  field limit := by
    rcases before with _ | ⟨name, _ | ⟨second, rest⟩⟩
    · rw [List.nil_append, List.nil_append, field?_first h.container.1,
        field?_first h.container.2]
    · cases limit with
      | zero => rfl
      | succ limit =>
        cases after with
        | nil =>
          cases name with
          | string name => exact congrArg (Option.map (name, ·)) (h.read limit)
          | _ => rfl
        | cons third rest => cases name <;> rfl
    · cases limit with
      | zero => rfl
      | succ limit => cases name <;> cases rest <;> rfl
  -- As content it is a list, and the item one attribute or one field of it.
  content limit kind := by
    have hcontainer : ∀ items, (Json.array items).IsContainer := fun _ => trivial
    cases limit with
    | zero =>
      exact (scalar?_container (hcontainer _) kind).trans
        (scalar?_container (hcontainer _) kind).symm
    | succ limit =>
      have hread : (before ++ j :: after).mapM (read? limit .buffered) =
          (before ++ j' :: after).mapM (read? limit .buffered) := by
        rw [mapM_place, mapM_place, h.read]
      have hfield : (before ++ j :: after).mapM (field? limit .buffered) =
          (before ++ j' :: after).mapM (field? limit .buffered) := by
        rw [mapM_place, mapM_place, h.field]
      rw [content?, content?, hread, hfield]

theorem Alike.member (h : Alike j j') (before after : List (String × Json)) {name : String}
    (hkind : name = "type" →
      ∀ limit, j.alternative? .buffered limit = j'.alternative? .buffered limit) :
    Alike (memberPlace before after j name) (memberPlace before after j' name) :=
  alike_objects (fun limit => lookAt?_place before after fun hname => hkind hname.symm limit)
    fun limit kind => lookAt?_place before after fun _ => h.content limit kind

theorem alike_of_reordersOne (h : ReordersOne j j') : Alike j j' := by
  induction h with
  | order hperm =>
    exact alike_objects (fun limit => lookAt?_perm hperm _ _)
      fun limit kind => lookAt?_perm hperm _ _
  | item before after _ ih => exact ih.item before after
  | member before after name h ih =>
    exact ih.member before after fun _ => h.alternative?_eq .buffered

/-- Rearranged documents are read alike. -/
theorem alike_of_rearrangesOne (h : RearrangesOne (· ∈ fieldNames) IsKind j j') : Alike j j' := by
  induction h with
  | order h => exact alike_of_reordersOne h
  | extra before after value hname =>
    obtain ⟨htype, hvalue⟩ := by simpa [fieldNames] using hname
    refine alike_objects (fun limit => ?_) fun limit kind => ?_
    · exact (lookAt?_place_other before after (Ne.symm htype)).symm
    · exact (lookAt?_place_other before after (Ne.symm hvalue)).symm
  | item before after _ ih => exact ih.item before after
  | member before after hname _ ih => exact ih.member before after fun heq => absurd heq hname

end Attribute

/-! ## Other members -/

namespace Json

variable {known names : String → Prop} {j j' : Json}

/-- Containers are no strings and no numbers. -/
theorem string?_containers (h : j.IsContainer ∧ j'.IsContainer) : j.string? = j'.string? := by
  rw [string?_container h.1, string?_container h.2]

theorem word?_containers (h : j.IsContainer ∧ j'.IsContainer) : j.word? = j'.word? := by
  rw [word?, word?, integer?_container h.1, integer?_container h.2]

theorem strings?_item (h : j.IsContainer ∧ j'.IsContainer) (before after : List Json) :
    (array (before ++ j :: after)).strings? = (array (before ++ j' :: after)).strings? := by
  rw [strings?, strings?, Attribute.mapM_place, Attribute.mapM_place, string?_container h.1,
    string?_container h.2]

theorem ReordersOne.strings?_eq (h : ReordersOne j j') : j.strings? = j'.strings? := by
  cases h with
  | order h => rfl
  | item before after h => exact strings?_item h.isContainer before after
  | member before after name h => rfl

theorem RearrangesOne.strings?_eq (h : RearrangesOne known names j j') :
    j.strings? = j'.strings? := by
  cases h with
  | order h => exact h.strings?_eq
  | extra before after value hname => rfl
  | item before after h => exact strings?_item h.isContainer before after
  | member before after hname h => rfl

end Json

theorem Status.read?_reordersOne {j j' : Json} (h : j.ReordersOne j') (limit : Nat)
    (reading : Json.Reading) : read? limit reading j = read? limit reading j' := by
  rw [read?, read?, h.alternative?_eq]

namespace Table

open Json

theorem content?_table (limit : Nat) (j : Json) :
    (read? limit .buffered j).map Attribute.table =
      Attribute.content? limit .buffered "table" (some j) :=
  (Attribute.content?_eq_table limit .buffered j).symm

/-- What is read alike in an attribute is read alike as a payload. -/
theorem read?_alike {j j' : Json} (h : Attribute.Alike j j') (limit : Nat) :
    read? limit .buffered j = read? limit .buffered j' := by
  have hinjective : Function.Injective Attribute.table := fun a b => Attribute.table.inj
  refine Option.map_injective hinjective ?_
  rw [content?_table, content?_table, h.content]

theorem readOptional?_container {j : Json} (h : j.IsContainer) (limit : Nat) (reading : Reading) :
    readOptional? limit reading (some j) = (read? limit reading j).map some := by
  cases j with
  | array items => rfl
  | object members => rfl
  | _ => exact h.elim

theorem readOptional?_alike {j j' : Json} (h : Attribute.Alike j j') (limit : Nat) :
    readOptional? limit .buffered (some j) = readOptional? limit .buffered (some j') := by
  rw [readOptional?_container h.container.1, readOptional?_container h.container.2, read?_alike h]

end Table

/-! ## Objects -/

namespace ObjectSpec

open Json

/-- The members that the description of an object has. -/
def fieldNames : List String := ["name", "methods"]

theorem ofJson?_object (members : List (String × Json)) :
    ofJson? (object members) = (required members "name" string?).bind fun name =>
      (required members "methods" strings?).map fun methods => ⟨name, methods⟩ := by
  simp only [ofJson?, fields?, required, lookAt?, List.mapM_cons, List.mapM_nil]
  rcases member? "name" members with _ | _ | name
  · rfl
  · cases member? "methods" members <;> rfl
  · rcases member? "methods" members with _ | _ | methods
    · cases name <;> rfl
    · cases name <;> rfl
    · cases name <;> rfl

theorem ofJson?_array (items : List Json) :
    ofJson? (array items) = match items with
      | [name, methods] =>
        name.string?.bind fun name => methods.strings?.map fun methods => ⟨name, methods⟩
      | _ => none := by
  rcases items with _ | ⟨name, _ | ⟨methods, _ | ⟨third, rest⟩⟩⟩
  · rfl
  · rfl
  · cases name <;> rfl
  · simp [ofJson?, fields?]

theorem ofJson?_congr {members members' : List (String × Json)}
    (hname : required members "name" string? = required members' "name" string?)
    (hmethods : required members "methods" strings? = required members' "methods" strings?) :
    ofJson? (object members) = ofJson? (object members') := by
  rw [ofJson?_object, ofJson?_object, hname, hmethods]

/-- A member is read as a string or as a list of strings, if it is read. -/
theorem ofJson?_member {j j' : Json} (hstring : j.string? = j'.string?)
    (hstrings : j.strings? = j'.strings?) (before after : List (String × Json)) (name : String) :
    ofJson? (memberPlace before after j name) = ofJson? (memberPlace before after j' name) :=
  ofJson?_congr (lookAt?_place before after fun _ => hstring)
    (lookAt?_place before after fun _ => hstrings)

theorem ofJson?_item {j j' : Json} (hstring : j.string? = j'.string?)
    (hstrings : j.strings? = j'.strings?) (before after : List Json) :
    ofJson? (.array (before ++ j :: after)) = ofJson? (.array (before ++ j' :: after)) := by
  rw [ofJson?_array, ofJson?_array]
  rcases before with _ | ⟨name, _ | ⟨second, rest⟩⟩
  · rcases after with _ | ⟨methods, _ | ⟨third, rest⟩⟩
    · rfl
    · simp [hstring]
    · rfl
  · cases after with
    | nil => simp [hstrings]
    | cons third rest => rfl
  · cases rest <;> rfl

theorem ofJson?_reordersOne {j j' : Json} (h : ReordersOne j j') : ofJson? j = ofJson? j' := by
  cases h with
  | order hperm => exact ofJson?_congr (lookAt?_perm hperm _ _) (lookAt?_perm hperm _ _)
  | item before after h =>
    exact ofJson?_item (string?_containers h.isContainer) h.strings?_eq before after
  | member before after name h =>
    exact ofJson?_member (string?_containers h.isContainer) h.strings?_eq before after name

theorem ofJson?_rearrangesOne {j j' : Json} {names : String → Prop}
    (h : RearrangesOne (· ∈ fieldNames) names j j') :
    ofJson? j = ofJson? j' := by
  cases h with
  | order h => exact ofJson?_reordersOne h
  | extra before after value hother =>
    obtain ⟨hname, hmethods⟩ := by simpa [fieldNames] using hother
    refine ofJson?_congr ?_ ?_
    · exact (lookAt?_place_other before after (Ne.symm hname)).symm
    · exact (lookAt?_place_other before after (Ne.symm hmethods)).symm
  | item before after h =>
    exact ofJson?_item (string?_containers h.isContainer) h.strings?_eq before after
  | member before after hname h =>
    exact ofJson?_member (string?_containers h.isContainer) h.strings?_eq before after _

end ObjectSpec

/-! ## Frames -/

namespace Json

/-- The kind of a frame, if it has one. -/
abbrev op? (members : List (String × Json)) : Option String := required members "op" string?

/-- A frame knows its tag and the members of the kind that the tag selects. -/
def KnownToFrame (fieldNames : String → List String) (members : List (String × Json))
    (name : String) : Prop :=
  name = "op" ∨ ∃ kind, op? members = some kind ∧ name ∈ fieldNames kind

/-- A frame is rearranged at one place: among its members, among those of an attribute of its
payload, or in the order of members anywhere inside. -/
inductive FrameRearrangesOne (fieldNames : String → List String) :
    List (String × Json) → List (String × Json) → Prop where
  | order {members members' : List (String × Json)} (h : members.Perm members') :
    FrameRearrangesOne fieldNames members members'
  | extra (before after : List (String × Json)) {name : String} (value : Json)
    (hname : ¬ KnownToFrame fieldNames (before ++ after) name) :
    FrameRearrangesOne fieldNames (before ++ after) (before ++ (name, value) :: after)
  | payload (before after : List (String × Json)) {j j' : Json}
    (h : RearrangesOne (· ∈ Attribute.fieldNames) Attribute.IsKind j j') :
    FrameRearrangesOne fieldNames (before ++ ("data", j) :: after) (before ++ ("data", j') :: after)
  | member (before after : List (String × Json)) (name : String) {j j' : Json}
    (h : ReordersOne j j') :
    FrameRearrangesOne fieldNames (before ++ (name, j) :: after) (before ++ (name, j') :: after)

variable {fieldNames : String → List String} {members members' : List (String × Json)}

theorem FrameRearrangesOne.op?_eq (h : FrameRearrangesOne fieldNames members members') :
    op? members = op? members' := by
  cases h with
  | order hperm => exact lookAt?_perm hperm _ _
  | extra before after value hname =>
    exact (lookAt?_place_other before after fun h => hname (.inl h.symm)).symm
  | payload before after h =>
    exact lookAt?_place before after fun _ => string?_containers h.isContainer
  | member before after name h =>
    exact lookAt?_place before after fun _ => string?_containers h.isContainer

/-- A member that the selected kind knows is seen alike by a view that sees rearranged values
alike. -/
theorem FrameRearrangesOne.lookAt?_eq {β : Type} {view : Option Json → Option β}
    {kind name : String} (h : FrameRearrangesOne fieldNames members members')
    (hkind : op? members = some kind) (hname : name ∈ fieldNames kind)
    (hview : ∀ j j', ReordersOne j j' → view (some j) = view (some j'))
    (hpayload : name = "data" → ∀ j j',
      RearrangesOne (· ∈ Attribute.fieldNames) Attribute.IsKind j j' →
        view (some j) = view (some j')) :
    lookAt? members name view = lookAt? members' name view := by
  cases h with
  | order hperm => exact lookAt?_perm hperm _ _
  | extra before after value hother =>
    refine (lookAt?_place_other before after fun heq => ?_).symm
    exact hother (.inr ⟨kind, hkind, heq ▸ hname⟩)
  | payload before after h => exact lookAt?_place before after fun heq => hpayload heq _ _ h
  | member before after other h => exact lookAt?_place before after fun _ => hview _ _ h

/-- A member beside the payload that a view of containers sees nothing of, or only their order. -/
theorem FrameRearrangesOne.required_eq {β : Type} {view : Json → Option β} {kind name : String}
    (h : FrameRearrangesOne fieldNames members members') (hkind : op? members = some kind)
    (hname : name ∈ fieldNames kind) (hbeside : name ≠ "data")
    (hview : ∀ {j j'}, ReordersOne j j' → view j = view j') :
    required members name view = required members' name view :=
  h.lookAt?_eq hkind hname (fun _ _ hj => hview hj) fun hdata => absurd hdata hbeside

/-- The payload, by a view that sees alike what is read alike. -/
theorem FrameRearrangesOne.payload_eq {β : Type} {view : Option Json → Option β} {kind : String}
    (h : FrameRearrangesOne fieldNames members members') (hkind : op? members = some kind)
    (hname : "data" ∈ fieldNames kind)
    (hview : ∀ {j j'}, Attribute.Alike j j' → view (some j) = view (some j')) :
    lookAt? members "data" view = lookAt? members' "data" view :=
  h.lookAt?_eq hkind hname (fun _ _ hj => hview (Attribute.alike_of_reordersOne hj))
    fun _ _ _ hj => hview (Attribute.alike_of_rearrangesOne hj)

theorem tagged?_object (members : List (String × Json)) :
    (object members).tagged? "op" =
      (op? members).map fun kind => (kind, object (members.filter (·.1 != "op"))) := by
  rcases hvalues : values "op" members with _ | ⟨j, _ | ⟨k, rest⟩⟩
  · simp [tagged?, lookAt?, member?, hvalues]
  · cases j <;> simp [tagged?, lookAt?, member?, hvalues, string?]
  · simp [tagged?, lookAt?, member?, hvalues]

theorem member?_filter {name : String} (h : name ≠ "op") (members : List (String × Json)) :
    member? name (members.filter (·.1 != "op")) = member? name members := by
  have hvalues : values name (members.filter (·.1 != "op")) = values name members := by
    rw [values, values, List.filter_filter]
    congr 2
    funext m
    by_cases hm : m.1 = name
    · simp [hm, h]
    · simp [hm]
  rw [member?, member?, hvalues]

end Json

namespace ClientFrame

open Json

/-- The members of a frame of a kind, beside its tag. -/
def fieldNames : String → List String
  | "add_object" => ["object", "methods"]
  | "data" => ["id", "data"]
  | "status" => ["id", "status"]
  | _ => []

/-- What a frame of a kind is read as. -/
def ofMembers? (members : List (String × Json)) (kind : String) : Option ClientFrame :=
  match kind with
  | "add_object" => (required members "object" string?).bind fun name =>
    (required members "methods" strings?).map fun methods => addObject ⟨name, methods⟩
  | "data" => (required members "id" word?).bind fun id =>
    (required members "data" (Table.read? payloadLimit .buffered)).map fun table => data id table
  | "status" => (required members "id" word?).bind fun id =>
    (required members "status" (Status.read? payloadLimit .buffered)).map fun outcome =>
      status id outcome
  | _ => none

theorem fields?_pair {first second : String} (hfirst : first ≠ "op") (hsecond : second ≠ "op")
    (members : List (String × Json)) (optional : Nat) :
    (object (members.filter (·.1 != "op"))).fields? [first, second] optional =
      (member? first members).bind fun a => (member? second members).map fun b => [a, b] := by
  simp only [fields?, List.mapM_cons, List.mapM_nil, member?_filter hfirst, member?_filter hsecond]
  cases member? first members with
  | none => rfl
  | some a => cases member? second members <;> rfl

/-- A frame with two members is read from both, whichever comes first. -/
theorem read_pair {β γ : Type} {first second : String} (hfirst : first ≠ "op")
    (hsecond : second ≠ "op") (members : List (String × Json)) (view : Json → Option β)
    (view' : Json → Option γ) (frame : β → γ → ClientFrame) :
    (match (object (members.filter (·.1 != "op"))).fields? [first, second] 0 with
      | some [some a, some b] => do return frame (← view a) (← view' b)
      | _ => none) =
      (required members first view).bind fun x =>
        (required members second view').map (frame x) := by
  rw [fields?_pair hfirst hsecond, required, required, lookAt?, lookAt?]
  rcases member? first members with _ | _ | a
  · rfl
  · cases member? second members <;> rfl
  · rcases member? second members with _ | _ | b
    · cases hview : view a <;> simp [hview]
    · cases hview : view a <;> simp [hview]
    · cases hview : view a with
      | none => simp [hview]
      | some x => cases hview' : view' b <;> simp [hview, hview']

theorem ofBuffer?_object (members : List (String × Json)) :
    ofBuffer? (object members) = (op? members).bind (ofMembers? members) := by
  rw [ofBuffer?, tagged?_object]
  cases op? members with
  | none => rfl
  | some kind =>
    simp only [Option.map_some, Option.bind_some, ofMembers?, required, lookAt?]
    split
    · rename_i record heq
      obtain ⟨rfl, rfl⟩ := Prod.mk.inj (Option.some.inj heq)
      rw [fields?_pair (by decide) (by decide)]
      rcases member? "object" members with _ | _ | name
      · rfl
      · cases member? "methods" members <;> rfl
      · rcases member? "methods" members with _ | _ | methods
        all_goals cases name <;> rfl
    · rename_i record heq
      obtain ⟨rfl, rfl⟩ := Prod.mk.inj (Option.some.inj heq)
      exact read_pair (by decide) (by decide) members word? (Table.read? payloadLimit .buffered)
        data
    · rename_i record heq
      obtain ⟨rfl, rfl⟩ := Prod.mk.inj (Option.some.inj heq)
      exact read_pair (by decide) (by decide) members word? (Status.read? payloadLimit .buffered)
        status
    · rename_i hadd hdata hstatus
      split
      · exact (hadd _ rfl).elim
      · exact (hdata _ rfl).elim
      · exact (hstatus _ rfl).elim
      · rfl

theorem ofBuffer?_rearrangesOne {members members' : List (String × Json)}
    (h : FrameRearrangesOne fieldNames members members') :
    ofBuffer? (object members) = ofBuffer? (object members') := by
  rw [ofBuffer?_object, ofBuffer?_object, ← h.op?_eq]
  cases hkind : op? members with
  | none => rfl
  | some kind =>
    rw [Option.bind_some, Option.bind_some]
    unfold ofMembers?
    split
    · have hobject : required members "object" string? = required members' "object" string? :=
        h.required_eq hkind (by decide) (by decide) fun hj => string?_containers hj.isContainer
      have hmethods : required members "methods" strings? = required members' "methods" strings? :=
        h.required_eq hkind (by decide) (by decide) ReordersOne.strings?_eq
      rw [hobject, hmethods]
    · have hid : required members "id" word? = required members' "id" word? :=
        h.required_eq hkind (by decide) (by decide) fun hj => word?_containers hj.isContainer
      have hdata : required members "data" (Table.read? payloadLimit .buffered) =
          required members' "data" (Table.read? payloadLimit .buffered) :=
        h.payload_eq hkind (by decide) (Table.read?_alike · payloadLimit)
      rw [hid, hdata]
    · have hid : required members "id" word? = required members' "id" word? :=
        h.required_eq hkind (by decide) (by decide) fun hj => word?_containers hj.isContainer
      have hstatus : required members "status" (Status.read? payloadLimit .buffered) =
          required members' "status" (Status.read? payloadLimit .buffered) :=
        h.required_eq hkind (by decide) (by decide)
          (Status.read?_reordersOne · payloadLimit .buffered)
      rw [hid, hstatus]
    · rfl

/-- A frame that repeats a member which it knows is none. -/
theorem ofBuffer?_repeated {members : List (String × Json)} {name : String}
    (hknown : KnownToFrame fieldNames members name) (h : 2 ≤ (values name members).length) :
    ofBuffer? (object members) = none := by
  rw [ofBuffer?_object]
  obtain rfl | ⟨kind, hkind, hname⟩ := hknown
  · rw [op?, required, lookAt?_repeated h, Option.bind_none]
  · rw [hkind, Option.bind_some]
    have hnone : ∀ {β : Type} (view : Json → Option β), required members name view = none :=
      fun view => lookAt?_repeated h
    unfold ofMembers?
    unfold fieldNames at hname
    -- Each kind reads all of its members, and the repeated one is among them.
    split
    · obtain rfl | rfl : name = "object" ∨ name = "methods" := by simpa using hname
      · rw [hnone, Option.bind_none]
      · simp [hnone]
    · obtain rfl | rfl : name = "id" ∨ name = "data" := by simpa using hname
      · rw [hnone, Option.bind_none]
      · simp [hnone]
    · obtain rfl | rfl : name = "id" ∨ name = "status" := by simpa using hname
      · rw [hnone, Option.bind_none]
      · simp [hnone]
    · rfl

end ClientFrame

namespace ServerFrame

open Json

/-- The members of a frame of a kind, beside its tag. -/
def fieldNames : String → List String
  | "call" => ["id", "object", "method", "data"]
  | _ => []

/-- What a frame of a kind is read as. -/
def ofMembers? (members : List (String × Json)) (kind : String) : Option ServerFrame :=
  match kind with
  | "call" => (required members "id" word?).bind fun id =>
    (required members "object" string?).bind fun object =>
      (required members "method" string?).bind fun method =>
        (lookAt? members "data" (Table.readOptional? payloadLimit .buffered)).map fun data =>
          call ⟨id, object, method, data⟩
  | _ => none

/-- A call is read from its members one by one. -/
theorem read_call (id object method data : Option Json) :
    (match (some [id, object, method, data] : Option (List (Option Json))) with
      | some [some id, some (.string object), some (.string method), data] => do
        return call ⟨← id.word?, object, method, ← Table.readOptional? payloadLimit .buffered data⟩
      | _ => none) =
      (id.bind word?).bind fun id => (object.bind string?).bind fun object =>
        (method.bind string?).bind fun method =>
          (Table.readOptional? payloadLimit .buffered data).map fun data =>
            call ⟨id, object, method, data⟩ := by
  split
  · rename_i id object method data heq
    simp only [Option.some.injEq, List.cons.injEq] at heq
    obtain ⟨rfl, rfl, rfl, rfl, -⟩ := heq
    cases hid : id.word? with
    | none => simp [hid]
    | some id =>
      cases hdata : Table.readOptional? payloadLimit .buffered data <;> simp [hid, string?]
  · -- The three members of a call are there and are of their types, or nothing is read.
    rename_i hother
    cases hid : id.bind word? with
    | none => rfl
    | some i =>
      cases hobject : object.bind string? with
      | none => rfl
      | some o =>
        cases hmethod : method.bind string? with
        | none => rfl
        | some m =>
          obtain ⟨id, rfl, -⟩ := Option.bind_eq_some_iff.1 hid
          obtain ⟨object, rfl, ho⟩ := Option.bind_eq_some_iff.1 hobject
          obtain ⟨method, rfl, hm⟩ := Option.bind_eq_some_iff.1 hmethod
          exact (hother id o m data (by rw [string?_eq_some.1 ho, string?_eq_some.1 hm])).elim

theorem fields?_call (members : List (String × Json)) :
    (object (members.filter (·.1 != "op"))).fields? ["id", "object", "method", "data"] 1 =
      (member? "id" members).bind fun id => (member? "object" members).bind fun object =>
        (member? "method" members).bind fun method => (member? "data" members).map fun data =>
          [id, object, method, data] := by
  simp only [fields?, List.mapM_cons, List.mapM_nil,
    member?_filter (show "id" ≠ "op" by decide), member?_filter (show "object" ≠ "op" by decide),
    member?_filter (show "method" ≠ "op" by decide), member?_filter (show "data" ≠ "op" by decide)]
  cases member? "id" members with
  | none => rfl
  | some id =>
    cases member? "object" members with
    | none => rfl
    | some object =>
      cases member? "method" members with
      | none => rfl
      | some method => cases member? "data" members <;> rfl

theorem ofBuffer?_object (members : List (String × Json)) :
    ofBuffer? (object members) = (op? members).bind (ofMembers? members) := by
  rw [ofBuffer?, tagged?_object]
  cases op? members with
  | none => rfl
  | some kind =>
    simp only [Option.map_some, Option.bind_some, ofMembers?]
    split
    · rename_i record heq
      obtain ⟨rfl, rfl⟩ := Prod.mk.inj (Option.some.inj heq)
      rw [fields?_call, required, required, required, lookAt?, lookAt?, lookAt?, lookAt?]
      -- A member that is repeated leaves nothing to be read, on either side.
      cases member? "id" members with
      | none => rfl
      | some id =>
        cases member? "object" members with
        | none => simp
        | some object =>
          cases member? "method" members with
          | none => simp
          | some method =>
            cases member? "data" members with
            | none => simp
            | some data => exact read_call id object method data
    · rename_i hcall
      split
      · exact (hcall _ rfl).elim
      · rfl

theorem ofBuffer?_rearrangesOne {members members' : List (String × Json)}
    (h : FrameRearrangesOne fieldNames members members') :
    ofBuffer? (object members) = ofBuffer? (object members') := by
  rw [ofBuffer?_object, ofBuffer?_object, ← h.op?_eq]
  cases hkind : op? members with
  | none => rfl
  | some kind =>
    rw [Option.bind_some, Option.bind_some]
    unfold ofMembers?
    split
    · have hid : required members "id" word? = required members' "id" word? :=
        h.required_eq hkind (by decide) (by decide) fun hj => word?_containers hj.isContainer
      have hobject : required members "object" string? = required members' "object" string? :=
        h.required_eq hkind (by decide) (by decide) fun hj => string?_containers hj.isContainer
      have hmethod : required members "method" string? = required members' "method" string? :=
        h.required_eq hkind (by decide) (by decide) fun hj => string?_containers hj.isContainer
      have hdata : lookAt? members "data" (Table.readOptional? payloadLimit .buffered) =
          lookAt? members' "data" (Table.readOptional? payloadLimit .buffered) :=
        h.payload_eq hkind (by decide) (Table.readOptional?_alike · payloadLimit)
      rw [hid, hobject, hmethod, hdata]
    · rfl

/-- A frame that repeats a member which it knows is none. -/
theorem ofBuffer?_repeated {members : List (String × Json)} {name : String}
    (hknown : KnownToFrame fieldNames members name) (h : 2 ≤ (values name members).length) :
    ofBuffer? (object members) = none := by
  rw [ofBuffer?_object]
  obtain rfl | ⟨kind, hkind, hname⟩ := hknown
  · rw [op?, required, lookAt?_repeated h, Option.bind_none]
  · rw [hkind, Option.bind_some]
    have hnone : ∀ {β : Type} (view : Option Json → Option β), lookAt? members name view = none :=
      fun view => lookAt?_repeated h
    unfold ofMembers?
    unfold fieldNames at hname
    split
    · obtain rfl | rfl | rfl | rfl :
          name = "id" ∨ name = "object" ∨ name = "method" ∨ name = "data" := by simpa using hname
      · rw [required, hnone, Option.bind_none]
      · simp [hnone]
      · simp [hnone]
      · simp [hnone]
    · rfl

end ServerFrame

theorem Attribute.read?_repeated {members : List (String × Json)} {name : String}
    (hknown : name ∈ fieldNames) (h : 2 ≤ (Json.values name members).length) (limit : Nat)
    (reading : Json.Reading) : read? limit reading (.object members) = none := by
  have hnone : read? limit .buffered (.object members) = none := by
    cases limit with
    | zero => rfl
    | succ limit =>
      rw [read?_object]
      obtain rfl | rfl : name = "type" ∨ name = "value" := by simpa [fieldNames] using hknown
      · rw [Json.required, Json.lookAt?_repeated h, Option.bind_none]
      · simp [Json.lookAt?_repeated h]
  rw [Option.eq_none_iff_forall_not_mem] at hnone ⊢
  exact fun a ha => hnone a (read?_buffered ha)

theorem ObjectSpec.ofJson?_repeated {members : List (String × Json)} {name : String}
    (hknown : name ∈ fieldNames) (h : 2 ≤ (Json.values name members).length) :
    ofJson? (.object members) = none := by
  rw [ofJson?_object]
  obtain rfl | rfl : name = "name" ∨ name = "methods" := by simpa [fieldNames] using hknown
  · rw [Json.required, Json.lookAt?_repeated h, Option.bind_none]
  · simp [Json.lookAt?_repeated h]

theorem Status.read?_repeated {members : List (String × Json)} {name : String}
    (h : 2 ≤ (Json.values name members).length) (limit : Nat) (reading : Json.Reading) :
    read? limit reading (.object members) = none := by
  have hmany : ∀ m, members ≠ [m] := by
    rintro m rfl
    have hlength : (Json.values name [m]).length ≤ 1 := by
      rw [Json.values, List.length_map]
      exact List.length_filter_le _ _
    omega
  rw [read?, Json.alternative?_of_not_one hmany, Option.bind_none]

/-! ## All that travels -/

namespace Wire

open Json

variable {α : Type}

/-- The members that a type knows in an object. -/
def Knows : Wire α → List (String × Json) → String → Prop
  | attr, _, name => name ∈ Attribute.fieldNames
  | table, _, _ => True
  | status, _, _ => True
  | objectSpec, _, name => name ∈ ObjectSpec.fieldNames
  | clientFrame, members, name => KnownToFrame ClientFrame.fieldNames members name
  | serverFrame, members, name => KnownToFrame ServerFrame.fieldNames members name

/-- A document of a type is rearranged at one place. -/
inductive RearrangesOne : {α : Type} → Wire α → Json → Json → Prop where
  | attr {j j' : Json} (h : j.RearrangesOne (· ∈ Attribute.fieldNames) Attribute.IsKind j') :
    RearrangesOne .attr j j'
  | table {j j' : Json} (h : j.RearrangesOne (· ∈ Attribute.fieldNames) Attribute.IsKind j') :
    RearrangesOne .table j j'
  | status {j j' : Json} (h : j.ReordersOne j') : RearrangesOne .status j j'
  | objectSpec {j j' : Json} (h : j.RearrangesOne (· ∈ ObjectSpec.fieldNames) (fun _ => False) j') :
    RearrangesOne .objectSpec j j'
  | clientFrame {members members' : List (String × Json)}
    (h : FrameRearrangesOne ClientFrame.fieldNames members members') :
    RearrangesOne .clientFrame (object members) (object members')
  | serverFrame {members members' : List (String × Json)}
    (h : FrameRearrangesOne ServerFrame.fieldNames members members') :
    RearrangesOne .serverFrame (object members) (object members')

/-- One document is the other rearranged: at any places, with members put in or left out. -/
def Rearranged (w : Wire α) : Json → Json → Prop := Relation.EqvGen w.RearrangesOne

/-- What a document says to a type, whichever part of it comes first: an attribute as if it were
read from a buffer, and a frame as if all of it could be. -/
def interpret? : Wire α → Json → Option α
  | attr => Attribute.read? nestingLimit .buffered
  | table => Table.read? nestingLimit .buffered
  | status => Status.read? nestingLimit .streamed
  | objectSpec => ObjectSpec.ofJson?
  | clientFrame => ClientFrame.ofBuffer?
  | serverFrame => ServerFrame.ofBuffer?

/-- Documents that a type reads as what they say. In an attribute outside of a frame kinds must be
told by their names, and contents, which come before their kinds in some order of members, must be
readable; in a frame all must be readable. -/
def Admits : Wire α → Json → Prop
  | attr, j => Attribute.Told nestingLimit j
  | table, j => Attribute.Told nestingLimit j
  | status, _ => True
  | objectSpec, _ => True
  | clientFrame, j => j.isReadable nestingLimit = true
  | serverFrame, j => j.isReadable nestingLimit = true

/-- Types of which no part is read straight from the text in one order of members and from a buffer
in another. -/
def IsUniform : Wire α → Prop
  | attr => False
  | table => False
  | _ => True

theorem interpret?_of_read? {w : Wire α} {j : Json} {x : α} (h : w.read? j = some x) :
    w.interpret? j = some x := by
  cases w with
  | attr => exact Attribute.read?_buffered h
  | table => exact Table.read?_buffered h
  | status => exact h
  | objectSpec => exact h
  | clientFrame => exact of_buffer? h
  | serverFrame => exact of_buffer? h

theorem read?_of_interpret? {w : Wire α} {j : Json} {x : α} (hj : w.Admits j)
    (h : w.interpret? j = some x) : w.read? j = some x := by
  cases w with
  | attr => exact Attribute.read?_streamed hj h
  | table => exact Table.read?_streamed hj h
  | status => exact h
  | objectSpec => exact h
  | clientFrame =>
    have hbuffer : j.buffer? nestingLimit = some j := if_pos hj
    rw [read?, ClientFrame.ofJson?, hbuffer]
    exact h
  | serverFrame =>
    have hbuffer : j.buffer? nestingLimit = some j := if_pos hj
    rw [read?, ServerFrame.ofJson?, hbuffer]
    exact h

theorem interpret?_rearrangesOne {w : Wire α} {j j' : Json} (h : w.RearrangesOne j j') :
    w.interpret? j = w.interpret? j' := by
  cases h with
  | attr h => exact (Attribute.alike_of_rearrangesOne h).read nestingLimit
  | table h => exact Table.read?_alike (Attribute.alike_of_rearrangesOne h) nestingLimit
  | status h => exact Status.read?_reordersOne h nestingLimit .streamed
  | objectSpec h => exact ObjectSpec.ofJson?_rearrangesOne h
  | clientFrame h => exact ClientFrame.ofBuffer?_rearrangesOne h
  | serverFrame h => exact ServerFrame.ofBuffer?_rearrangesOne h

theorem interpret?_rearranged {w : Wire α} {j j' : Json} (h : w.Rearranged j j') :
    w.interpret? j = w.interpret? j' := by
  induction h with
  | rel j j' h => exact interpret?_rearrangesOne h
  | refl j => rfl
  | symm j j' h ih => exact ih.symm
  | trans j k j' h h' ih ih' => exact ih.trans ih'

/-- A document that is read is read in every arrangement of it that is read as what it says. -/
theorem read?_rearranged {w : Wire α} {j j' : Json} {x : α} (h : w.Rearranged j j')
    (hj' : w.Admits j') (hx : w.read? j = some x) : w.read? j' = some x :=
  read?_of_interpret? hj' (interpret?_rearranged h ▸ interpret?_of_read? hx)

theorem read?_rearranged_eq {w : Wire α} {j j' : Json} (h : w.Rearranged j j') (hj : w.Admits j)
    (hj' : w.Admits j') : w.read? j = w.read? j' := by
  ext x
  exact ⟨read?_rearranged h hj', read?_rearranged (h.symm) hj⟩

/-- The order of members matters to no part of a frame, a description or a status. -/
theorem read?_reordersOne {w : Wire α} (hw : w.IsUniform) {members members' : List (String × Json)}
    (h : ReordersOne (object members) (object members')) :
    w.read? (object members) = w.read? (object members') := by
  have hframe : ∀ {fieldNames : String → List String},
      FrameRearrangesOne fieldNames members members' := by
    intro fieldNames
    cases h with
    | order hperm => exact .order hperm
    | member before after name h => exact .member before after name h
  cases w with
  | attr => exact hw.elim
  | table => exact hw.elim
  | status => exact Status.read?_reordersOne h _ _
  | objectSpec => exact ObjectSpec.ofJson?_reordersOne h
  | clientFrame =>
    rw [read?, ClientFrame.ofJson?, ClientFrame.ofJson?, buffer?, buffer?, h.isReadable_eq]
    split
    · exact ClientFrame.ofBuffer?_rearrangesOne hframe
    · rfl
  | serverFrame =>
    rw [read?, ServerFrame.ofJson?, ServerFrame.ofJson?, buffer?, buffer?, h.isReadable_eq]
    split
    · exact ServerFrame.ofBuffer?_rearrangesOne hframe
    · rfl

theorem read?_repeated (w : Wire α) {members : List (String × Json)} {name : String}
    (hknown : w.Knows members name) (h : 2 ≤ (values name members).length) :
    w.read? (object members) = none := by
  cases w with
  | attr => exact Attribute.read?_repeated hknown h nestingLimit .streamed
  | table => rfl
  | status => exact Status.read?_repeated h nestingLimit .streamed
  | objectSpec => exact ObjectSpec.ofJson?_repeated hknown h
  | clientFrame => exact buffer?_eq_none (ClientFrame.ofBuffer?_repeated hknown h)
  | serverFrame => exact buffer?_eq_none (ServerFrame.ofBuffer?_repeated hknown h)

/-- What reading a type owes to the arrangement of members. -/
structure Unordered (w : Wire α) : Prop where
  /-- Two arrangements of a document are never read as different values. -/
  agree : ∀ {j j' : Json} {x x' : α}, w.Rearranged j j' → w.read? j = some x →
    w.read? j' = some x' → x = x'
  /-- A value that is read in one arrangement is read in every one that tells kinds by their names
  and can be read where a buffer may be needed. -/
  kept : ∀ {j j' : Json} {x : α}, w.Rearranged j j' → w.Admits j' → w.read? j = some x →
    w.read? j' = some x
  /-- Of two such arrangements both are read as the same value, or neither is read. -/
  rearranged : ∀ {j j' : Json}, w.Rearranged j j' → w.Admits j → w.Admits j' →
    w.read? j = w.read? j'
  /-- So are the texts that say them. -/
  decoded : ∀ {text text' : String} {j j' : Json}, parse text.toList = some j →
    parse text'.toList = some j' → w.Rearranged j j' → w.Admits j → w.Admits j' →
      w.decode text = w.decode text'
  /-- Beside attributes that are read by themselves, members may come in any order at every depth,
  whatever can be read of them: a payload before the tag that says how to read it. -/
  reordered : w.IsUniform → ∀ {members members' : List (String × Json)},
    Relation.EqvGen (fun ms ms' => ReordersOne (object ms) (object ms')) members members' →
      w.read? (object members) = w.read? (object members')
  /-- A tag or a member that is known is not read twice, wherever the two stand. -/
  repeated : ∀ {members : List (String × Json)} {name : String}, w.Knows members name →
    2 ≤ (values name members).length → w.read? (object members) = none
  /-- Neither is a member of an attribute anywhere in a payload. -/
  repeatedInside : ∀ {around : Json → Json} {members : List (String × Json)} {name : String},
    w.Slot around → name ∈ Attribute.fieldNames → 2 ≤ (values name members).length →
      w.read? (around (object members)) = none

/--
What is read of a document does not depend on the order of members in it, nor on members that mean
nothing. Whether it is read does not either, unless an attribute that is no part of a frame has
something in its content that only a buffer takes or that a buffer refuses, or a frame has something
anywhere that a buffer refuses.
-/
theorem members_unordered (w : Wire α) : Unordered w where
  agree h hx hx' := by
    have heq := interpret?_rearranged h
    rw [interpret?_of_read? hx, interpret?_of_read? hx'] at heq
    exact Option.some.inj heq
  kept := read?_rearranged
  rearranged := read?_rearranged_eq
  decoded htext htext' h hj hj' := by
    rw [decode_of_parse w htext, decode_of_parse w htext', accept, accept,
      read?_rearranged_eq h hj hj']
  reordered hw _ _ h := by
    induction h with
    | rel members members' h => exact read?_reordersOne hw h
    | refl members => rfl
    | symm members members' h ih => exact ih.symm
    | trans members _ members' h h' ih ih' => exact ih.trans ih'
  repeated := read?_repeated w
  repeatedInside hslot hknown h := by
    obtain ⟨limit, reading, hleads⟩ := hslot.readsThrough
    obtain ⟨rest, hrest⟩ := hleads.reads
    have hread := Attribute.read?_repeated hknown h limit reading
    rw [hrest, Attribute.readAt?, within?_eq_none hread, Option.bind_none]

/-! ### Arrangements that differ -/

/-- An array around an attribute without content, which has a member that cannot be read. -/
def notedArray : List (String × Json) :=
  [("type", .string "array"),
    ("value", .array [.object [("type", .string "unspec"), ("note", .unreadable)]])]

/-- An array around a pair that tells the number of its kind. -/
def numberedArray : List (String × Json) :=
  [("type", .string "array"), ("value", .array [.array [.int 2, .int 5]])]

/-- With its content behind the kind the first is read, and with its content in front of it it is
not. The second is read only with its content in front. -/
theorem members_ordered_streamed :
    ReordersOne (object notedArray) (object notedArray.reverse) ∧
      (attr.read? (object notedArray)).isSome = true ∧
      (attr.read? (object notedArray.reverse)).isNone = true ∧
      ReordersOne (object numberedArray) (object numberedArray.reverse) ∧
      (attr.read? (object numberedArray)).isNone = true ∧
      (attr.read? (object numberedArray.reverse)).isSome = true ∧
      (attr.decode ("\x7b\"type\":\"array\"," ++
        "\"value\":[\x7b\"type\":\"unspec\",\"note\":1e999\x7d]\x7d")).toOption.isSome = true ∧
      (attr.decode ("\x7b\"value\":[\x7b\"type\":\"unspec\",\"note\":1e999\x7d]," ++
        "\"type\":\"array\"\x7d")).toOption.isNone = true :=
  ⟨.order (List.reverse_perm _).symm, by decide +kernel, by decide +kernel,
    .order (List.reverse_perm _).symm, by decide +kernel, by decide +kernel, by decide +kernel,
    by decide +kernel⟩

/-! ### A call in two arrangements -/

/-- A call with an attribute in its payload, as it is written. -/
def orderlyCall (a : Json) : Json :=
  .object ([("op", .string "call"), ("id", .int 1), ("object", .string "svc"),
    ("method", .string "set")] ++ [("data", .array [.array [.string "a", a]])])

/-- The call with its payload in front and with another member. -/
def mixedUpCall (a : Json) : Json :=
  .object ([("data", .array [.array [.string "a", a]]), ("op", .string "call")] ++
    ("trace", .bool true) ::
      [("id", .int 1), ("object", .string "svc"), ("method", .string "set")])

theorem orderlyCall_rearrangesOne {a a' : Json}
    (h : a.RearrangesOne (· ∈ Attribute.fieldNames) Attribute.IsKind a') :
    Wire.serverFrame.RearrangesOne (orderlyCall a) (orderlyCall a') := by
  have hfield := Json.RearrangesOne.item [.string "a"] [] h
  exact .serverFrame (.payload _ [] (.item [] [] hfield))

theorem mixedUpCall_rearranged (a : Json) :
    Wire.serverFrame.Rearranged (orderlyCall a) (mixedUpCall a) := by
  have hfront : Wire.serverFrame.RearrangesOne (orderlyCall a)
      (.object (("data", .array [.array [.string "a", a]]) ::
        [("op", .string "call"), ("id", .int 1), ("object", .string "svc"),
          ("method", .string "set")])) :=
    .serverFrame (.order List.perm_middle)
  have htrace : ¬ KnownToFrame ServerFrame.fieldNames
      ([("data", .array [.array [.string "a", a]]), ("op", .string "call")] ++
        [("id", .int 1), ("object", .string "svc"), ("method", .string "set")]) "trace" := by
    rintro (hop | ⟨kind, hkind, hname⟩)
    · exact absurd hop (by decide)
    · obtain rfl : "call" = kind := Option.some.inj hkind
      exact absurd hname (by decide)
  exact .trans _ _ _ (.rel _ _ hfront) (.rel _ _ (.serverFrame (.extra _ _ _ htrace)))

/-- A number, as it is written and with its content in front and a member that means nothing. -/
def plainNumber : Json := .object [("type", .string "int32"), ("value", .int 7)]

def mixedUpNumber : Json :=
  .object [("value", .int 7), ("unit", .null), ("type", .string "int32")]

/-- The number is read in both arrangements, by itself and as part of a call. -/
theorem members_unordered_call :
    attr.read? plainNumber = some (.int32 7) ∧ attr.read? mixedUpNumber = some (.int32 7) ∧
      (serverFrame.read? (orderlyCall plainNumber)).isSome = true ∧
      serverFrame.read? (orderlyCall plainNumber) =
        serverFrame.read? (mixedUpCall mixedUpNumber) := by
  have hswap : Json.RearrangesOne (· ∈ Attribute.fieldNames) Attribute.IsKind plainNumber
      (.object [("value", .int 7), ("type", .string "int32")]) := .order (.order (.swap _ _ _))
  have hunit : Json.RearrangesOne (· ∈ Attribute.fieldNames) Attribute.IsKind
      (.object [("value", .int 7), ("type", .string "int32")]) mixedUpNumber :=
    .extra [("value", .int 7)] [("type", .string "int32")] .null (by decide)
  have hnumber : attr.Rearranged plainNumber mixedUpNumber :=
    .trans _ _ _ (.rel _ _ (.attr hswap)) (.rel _ _ (.attr hunit))
  have hcall : serverFrame.Rearranged (orderlyCall plainNumber) (mixedUpCall mixedUpNumber) :=
    .trans _ _ _ (.rel _ _ (orderlyCall_rearrangesOne hswap))
      (.trans _ _ _ (.rel _ _ (orderlyCall_rearrangesOne hunit)) (mixedUpCall_rearranged _))
  have hplain : attr.read? plainNumber = some (.int32 7) := rfl
  refine ⟨hplain, ?_, by decide +kernel, ?_⟩
  · exact (members_unordered attr).kept hnumber ⟨by decide +kernel, by decide +kernel⟩ hplain
  · have hreadable : (orderlyCall plainNumber).isReadable nestingLimit = true := by decide +kernel
    have hreadable' : (mixedUpCall mixedUpNumber).isReadable nestingLimit = true := by
      decide +kernel
    exact (members_unordered serverFrame).rearranged hcall hreadable hreadable'

end Wire
end ScriptService
