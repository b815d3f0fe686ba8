import ScriptService.Proofs.Json.Documents
import ScriptService.Wire.Frame

/-!
# Round trips over the wire

Whatever travels as JSON text is read as it was written if all its floating-point numbers are finite
and its text does not nest too deep, and is refused otherwise: a number that is not finite is
written as null, which no double is read from.

What is read of the document that such a text says does not depend on where it is read from
(`Attribute.read?_asWritten`); that the text says this document is `Json.parse_render`.

Main statement: `Wire.decode_encode`.
-/

namespace ScriptService

/-! ## Attributes -/

namespace Attribute

mutual
/-- The floating-point numbers in an attribute, from left to right. -/
def doubles : Attribute → List Double
  | double x => [x]
  | array items => itemsDoubles items
  | table fields => fieldsDoubles fields
  | _ => []

def itemsDoubles : List Attribute → List Double
  | [] => []
  | a :: rest => doubles a ++ itemsDoubles rest

def fieldsDoubles : List (String × Attribute) → List Double
  | [] => []
  | (_, a) :: rest => doubles a ++ fieldsDoubles rest
end

/-! ### Reading a kind and its content -/

theorem asWritten_content (kind : String) (value : Json) :
    (toJson.content kind value).asWritten = toJson.content kind value.asWritten := rfl

theorem depth_content (kind : String) (value : Json) :
    (toJson.content kind value).depth = value.depth + 1 := by
  simp [toJson.content, Json.depth, Json.depthMembers]

/-- The members that an attribute has are among those of the object. -/
theorem mem_of_ownMembers {members own : List (String × Json)} (h : ownMembers members = own)
    {m : String × Json} (hm : m ∈ own) : m ∈ members := by
  rw [← h] at hm
  exact (List.mem_filter.1 hm).1

section Reading

variable (limit : Nat) (reading : Json.Reading)

/-- Only the content of an array or a table is an array. -/
theorem content?_of_not_array {content : Option Json}
    (h : ∀ items, content ≠ some (.array items)) (kind : String) :
    content? limit reading kind content = scalar? kind content := by
  rw [content?]
  rintro _ items - rfl
  exact h items rfl

theorem content?_array (items : List Json) :
    content? (limit + 1) reading "array" (some (.array items)) =
      (items.mapM (read? limit reading)).map array := rfl

theorem content?_table (items : List Json) :
    content? (limit + 1) reading "table" (some (.array items)) =
      (items.mapM (field? limit reading)).map table := rfl

theorem read?_content (kind : String) (value : Json) :
    read? (limit + 1) reading (toJson.content kind value) =
      content? limit reading kind (some value) := rfl

/-- A kind without content is written alone. -/
theorem read?_bare (kind : String) :
    read? (limit + 1) reading (.object [("type", .string kind)]) = scalar? kind none := by
  have hform : read? (limit + 1) reading (.object [("type", .string kind)]) =
      content? limit reading kind none := rfl
  rw [hform, content?_of_not_array _ _ (by simp)]

end Reading

/-- Nothing fits into an array that may not be there. -/
theorem content?_zero (reading : Json.Reading) (items : List Json) :
    content? 0 reading "array" (some (.array items)) = none ∧
      content? 0 reading "table" (some (.array items)) = none := ⟨rfl, rfl⟩

/-- Two attempts that succeed under a condition each. -/
theorem bind_ite {α β γ : Type} {p q : Prop} [Decidable p] [Decidable q] (f : α → β → γ) (a : α)
    (b : β) : ((if p then some a else none).bind fun x =>
      (if q then some b else none).bind fun y => some (f x y)) =
        if p ∧ q then some (f a b) else none := by
  by_cases hp : p
  · by_cases hq : q
    · simp [hp, hq]
    · simp [hp, hq]
  · simp [hp]

/-! ### Reading what was written -/

/-- What is written of a scalar: the kind with a value that is no container, read as the scalar. -/
theorem read?_scalar {a : Attribute} {kind : String} {value : Json}
    (hform : a.toJson = toJson.content kind value) (hdepth : value.depth = 0)
    (hread : scalar? kind (some value.asWritten) =
      if (doubles a).all Double.isFinite then some a else none) (limit : Nat)
    (reading : Json.Reading) :
    read? limit reading a.toJson.asWritten =
      if a.toJson.depth ≤ limit ∧ (doubles a).all Double.isFinite = true then some a else none := by
  cases limit with
  | zero => simp [read?, hform, depth_content]
  | succ limit =>
    have hvalue : ∀ items, some value.asWritten ≠ some (Json.array items) := by
      cases value with
      | array items => simp [Json.depth] at hdepth
      | real x =>
        rw [Json.asWritten]
        split
        · simp
        · simp
      | _ => simp [Json.asWritten]
    rw [hform, asWritten_content, read?_content, content?_of_not_array _ _ hvalue, hread,
      depth_content, hdepth]
    simp

mutual
/-- What the text of an attribute says is that attribute, unless it nests too deep or a number in it
is not finite. -/
theorem read?_asWritten : ∀ (a : Attribute) (limit : Nat) (reading : Json.Reading),
    read? limit reading (toJson a).asWritten =
      if (toJson a).depth ≤ limit ∧ (doubles a).all Double.isFinite = true then some a else none
  | bool b, limit, reading => by
    have hread : scalar? "bool" (some (Json.bool b).asWritten) = some (bool b) := by
      simp [Json.asWritten, scalar?]
    exact read?_scalar rfl rfl hread limit reading
  | int16 i, limit, reading => by
    have hlow := Int16.le_toInt i
    have hhigh := Int16.toInt_lt i
    have hfits : -32768 ≤ i.toInt ∧ i.toInt ≤ 32767 := by omega
    have hread : scalar? "int16" (some (Json.int i.toInt).asWritten) = some (int16 i) := by
      simp [Json.asWritten, scalar?, Json.integer?, hfits]
    exact read?_scalar rfl rfl hread limit reading
  | int32 i, limit, reading => by
    have hlow := Int32.le_toInt i
    have hhigh := Int32.toInt_lt i
    have hfits : -2147483648 ≤ i.toInt ∧ i.toInt ≤ 2147483647 := by omega
    have hread : scalar? "int32" (some (Json.int i.toInt).asWritten) = some (int32 i) := by
      simp [Json.asWritten, scalar?, Json.integer?, hfits]
    exact read?_scalar rfl rfl hread limit reading
  | int64 i, limit, reading => by
    have hlow := Int64.le_toInt i
    have hhigh := Int64.toInt_lt i
    have hfits : -9223372036854775808 ≤ i.toInt ∧ i.toInt ≤ 9223372036854775807 := by omega
    have hread : scalar? "int64" (some (Json.int i.toInt).asWritten) = some (int64 i) := by
      simp [Json.asWritten, scalar?, Json.integer?, hfits]
    exact read?_scalar rfl rfl hread limit reading
  | double x, limit, reading => by
    have hread : scalar? "double" (some (Json.real x).asWritten) =
        if x.isFinite then some (double x) else none := by
      rw [Json.asWritten]
      split
      · rfl
      · rfl
    exact read?_scalar rfl rfl (by simpa [doubles] using hread) limit reading
  | string s, limit, reading => by
    have hread : scalar? "string" (some (Json.string s).asWritten) = some (string s) := by
      simp [Json.asWritten, scalar?]
    exact read?_scalar rfl rfl hread limit reading
  -- A list takes a level for the attribute and one for itself.
  | array items, 0, reading => by simp [read?, toJson, depth_content]
  | array items, 1, reading => by
    rw [toJson, asWritten_content, Json.asWritten, read?_content, (content?_zero _ _).1,
      depth_content, Json.depth, if_neg (by omega)]
  | array items, limit + 2, reading => by
    rw [toJson, asWritten_content, Json.asWritten, read?_content, content?_array,
      itemsRead?_asWritten items, doubles, depth_content, Json.depth]
    simp only [Nat.add_le_add_iff_right]
    split
    · rfl
    · rfl
  | table fields, 0, reading => by simp [read?, toJson, depth_content]
  | table fields, 1, reading => by
    rw [toJson, asWritten_content, Json.asWritten, read?_content, (content?_zero _ _).2,
      depth_content, Json.depth, if_neg (by omega)]
  | table fields, limit + 2, reading => by
    rw [toJson, asWritten_content, Json.asWritten, read?_content, content?_table,
      fieldsRead?_asWritten fields, doubles, depth_content, Json.depth]
    simp only [Nat.add_le_add_iff_right]
    split
    · rfl
    · rfl
  | unspec, 0, _ => rfl
  | unspec, limit + 1, reading => by
    have hbare : (toJson unspec).asWritten = .object [("type", .string "unspec")] := rfl
    have hdepth : (toJson unspec).depth = 1 := rfl
    rw [hbare, read?_bare, hdepth]
    simp [scalar?, doubles]
  | unknown, 0, _ => rfl
  | unknown, limit + 1, reading => by
    have hbare : (toJson unknown).asWritten = .object [("type", .string "unknown")] := rfl
    have hdepth : (toJson unknown).depth = 1 := rfl
    rw [hbare, read?_bare, hdepth]
    simp [scalar?, scalar?.isContentKind, doubles]

theorem itemsRead?_asWritten : ∀ (items : List Attribute) (limit : Nat) (reading : Json.Reading),
    (Json.itemsAsWritten (itemsToJson items)).mapM (read? limit reading) =
      if Json.depthItems (itemsToJson items) ≤ limit ∧
        (itemsDoubles items).all Double.isFinite = true then some items else none
  | [], limit, reading => by simp [itemsToJson, Json.itemsAsWritten, itemsDoubles, Json.depthItems]
  | a :: rest, limit, reading => by
    rw [itemsToJson, Json.itemsAsWritten, List.mapM_cons, read?_asWritten a,
      itemsRead?_asWritten rest, itemsDoubles, List.all_append, Json.depthItems]
    simp only [Nat.max_le, Bool.and_eq_true, and_and_and_comm]
    exact bind_ite List.cons a rest

theorem fieldsRead?_asWritten : ∀ (fields : List (String × Attribute)) (limit : Nat)
    (reading : Json.Reading),
    (Json.itemsAsWritten (fieldsToJson fields)).mapM (field? limit reading) =
      if Json.depthItems (fieldsToJson fields) ≤ limit ∧
        (fieldsDoubles fields).all Double.isFinite = true then some fields else none
  | [], limit, reading => by
    simp [fieldsToJson, Json.itemsAsWritten, fieldsDoubles, Json.depthItems]
  | (name, a) :: rest, 0, reading => by
    simp [fieldsToJson, Json.itemsAsWritten, Json.asWritten, field?, Json.depthItems, Json.depth]
  | (name, a) :: rest, limit + 1, reading => by
    have hfield : field? (limit + 1) reading (.array [.string name, (toJson a).asWritten]) =
        if (toJson a).depth ≤ limit ∧ (doubles a).all Double.isFinite = true then some (name, a)
        else none := by
      rw [field?, read?_asWritten a]
      split
      · rfl
      · rfl
    have hdepth : (Json.array [.string name, toJson a]).depth = (toJson a).depth + 1 := by
      simp [Json.depth, Json.depthItems]
    have htext : Json.itemsAsWritten (fieldsToJson ((name, a) :: rest)) =
        .array [.string name, (toJson a).asWritten] ::
          Json.itemsAsWritten (fieldsToJson rest) := rfl
    rw [htext, List.mapM_cons, hfield, fieldsRead?_asWritten rest, fieldsDoubles, List.all_append,
      fieldsToJson, Json.depthItems, hdepth]
    simp only [Nat.max_le, Nat.add_le_add_iff_right, Bool.and_eq_true, and_and_and_comm]
    exact bind_ite List.cons (name, a) rest
end

mutual
/-- The text of an attribute tells its numbers if it does so for each of its doubles. -/
theorem writable_toJson : ∀ a : Attribute,
    (∀ d ∈ doubles a, d.isFinite = true → Json.ReadsBack d) → (toJson a).Writable
  | bool b, _ => ⟨trivial, trivial, trivial⟩
  | int16 i, _ => by
    have hlow := Int16.le_toInt i
    have hhigh := Int16.toInt_lt i
    exact ⟨trivial, by rw [Json.Writable]; omega, trivial⟩
  | int32 i, _ => by
    have hlow := Int32.le_toInt i
    have hhigh := Int32.toInt_lt i
    exact ⟨trivial, by rw [Json.Writable]; omega, trivial⟩
  | int64 i, _ => by
    have hlow := Int64.le_toInt i
    have hhigh := Int64.toInt_lt i
    exact ⟨trivial, by rw [Json.Writable]; omega, trivial⟩
  | double x, hback => ⟨trivial, hback x (List.mem_singleton.2 rfl), trivial⟩
  | string s, _ => ⟨trivial, trivial, trivial⟩
  | array items, hback => ⟨trivial, itemsWritable_itemsToJson items hback, trivial⟩
  | table fields, hback => ⟨trivial, itemsWritable_fieldsToJson fields hback, trivial⟩
  | unspec, _ => ⟨trivial, trivial⟩
  | unknown, _ => ⟨trivial, trivial⟩

theorem itemsWritable_itemsToJson : ∀ items : List Attribute,
    (∀ d ∈ itemsDoubles items, d.isFinite = true → Json.ReadsBack d) →
      Json.ItemsWritable (itemsToJson items)
  | [], _ => trivial
  | a :: rest, hback =>
    ⟨writable_toJson a fun d hd => hback d (List.mem_append_left _ hd),
      itemsWritable_itemsToJson rest fun d hd => hback d (List.mem_append_right _ hd)⟩

theorem itemsWritable_fieldsToJson : ∀ fields : List (String × Attribute),
    (∀ d ∈ fieldsDoubles fields, d.isFinite = true → Json.ReadsBack d) →
      Json.ItemsWritable (fieldsToJson fields)
  | [], _ => trivial
  | (_, a) :: rest, hback =>
    ⟨⟨trivial, writable_toJson a fun d hd => hback d (List.mem_append_left _ hd), trivial⟩,
      itemsWritable_fieldsToJson rest fun d hd => hback d (List.mem_append_right _ hd)⟩
end

end Attribute

/-! ## Tables, names and numbers of messages -/

namespace Table

def doubles (table : Table) : List Double := Attribute.fieldsDoubles table

theorem read?_asWritten (table : Table) (limit : Nat) (reading : Json.Reading) :
    read? limit reading table.toJson.asWritten =
      if table.toJson.depth ≤ limit ∧ table.doubles.all Double.isFinite = true then some table
      else none := by
  cases limit with
  | zero => simp [toJson, read?, Json.depth]
  | succ limit =>
    rw [toJson, Json.asWritten, read?, Attribute.fieldsRead?_asWritten, Json.depth]
    simp only [Nat.add_le_add_iff_right]
    rfl

theorem readOptional?_asWritten (data : Option Table) (limit : Nat) (reading : Json.Reading) :
    readOptional? limit reading (some (optionalToJson data).asWritten) =
      if (optionalToJson data).depth ≤ limit ∧
        (data.elim [] doubles).all Double.isFinite = true then some data else none := by
  cases data with
  | none => rfl
  | some table =>
    have harray : (optionalToJson (some table)).asWritten =
        .array (Json.itemsAsWritten (Attribute.fieldsToJson table)) := rfl
    have htable := read?_asWritten table limit reading
    have htext : table.toJson.asWritten =
        .array (Json.itemsAsWritten (Attribute.fieldsToJson table)) := rfl
    rw [harray, readOptional?, ← htext, htable]
    · by_cases h : table.toJson.depth ≤ limit ∧ table.doubles.all Double.isFinite = true
      · simp [optionalToJson, h]
      · rw [if_neg h, Option.map_none]
        exact (if_neg h).symm
    · simp

end Table

theorem Json.itemsAsWritten_strings (names : List String) :
    itemsAsWritten (names.map .string) = names.map .string := by
  induction names with
  | nil => rfl
  | cons name names ih => rw [List.map_cons, itemsAsWritten, ih, asWritten]

theorem Json.itemsWritable_strings (names : List String) :
    ItemsWritable (names.map .string) := by
  induction names with
  | nil => exact trivial
  | cons name names ih => exact ⟨trivial, ih⟩

theorem Json.depthItems_strings (names : List String) : depthItems (names.map .string) = 0 := by
  induction names with
  | nil => rfl
  | cons name names ih => simp [depthItems, depth, ih]

theorem Json.strings?_array (names : List String) :
    (array (names.map .string)).strings? = some names := by
  rw [strings?]
  induction names with
  | nil => rfl
  | cons name names ih => simp [string?, ih]

theorem Json.word?_int (id : RequestId) : (int id.toNat).word? = some id := by
  have hid := id.toNat_lt
  have hfits : (0 : Int) ≤ id.toNat ∧ (id.toNat : Int) ≤ 4294967295 := by omega
  simp [word?, integer?, hfits]

/-! ## All that travels -/

/-- The types of what travels as JSON text. -/
inductive Wire : Type → Type where
  | attr : Wire Attribute
  | table : Wire Table
  | status : Wire Status
  | objectSpec : Wire ObjectSpec
  | clientFrame : Wire ClientFrame
  | serverFrame : Wire ServerFrame

namespace Wire

variable {α : Type}

def toJson : Wire α → α → Json
  | attr, a => a.toJson
  | table, t => Table.toJson t
  | status, s => s.toJson
  | objectSpec, object => object.toJson
  | clientFrame, frame => frame.toJson
  | serverFrame, frame => frame.toJson

/-- Reads a document, straight from its text. -/
def read? : Wire α → Json → Option α
  | attr => Attribute.read? Json.nestingLimit .streamed
  | table => Table.read? Json.nestingLimit .streamed
  | status => Status.read? Json.nestingLimit .streamed
  | objectSpec => ObjectSpec.ofJson?
  | clientFrame => ClientFrame.ofJson?
  | serverFrame => ServerFrame.ofJson?

/-- The text of a value. -/
def encode (w : Wire α) (x : α) : String := (w.toJson x).toText

/-- The value of a text. -/
def decode (w : Wire α) (text : String) : Except BusError α :=
  match (Json.parse text.toList).bind w.read? with
  | some x => .ok x
  | none => .error .malformedFrame

/-- The floating-point numbers in a value. -/
def doubles : Wire α → α → List Double
  | attr, a => a.doubles
  | table, t => Table.doubles t
  | status, _ => []
  | objectSpec, _ => []
  | clientFrame, .data _ data => Table.doubles data
  | clientFrame, _ => []
  | serverFrame, .call r => r.data.elim [] Table.doubles

theorem writable_toJson (w : Wire α) {x : α}
    (hback : ∀ d ∈ w.doubles x, d.isFinite = true → Json.ReadsBack d) :
    (w.toJson x).Writable := by
  have hid : ∀ id : RequestId, (Json.int id.toNat).Writable := by
    intro id
    have hlt := id.toNat_lt
    rw [Json.Writable]
    omega
  cases w with
  | attr => exact Attribute.writable_toJson x hback
  | table => exact Attribute.itemsWritable_fieldsToJson x hback
  | status => exact trivial
  | objectSpec => exact ⟨trivial, Json.itemsWritable_strings x.methods, trivial⟩
  | clientFrame =>
    cases x with
    | addObject object =>
      exact ⟨trivial, trivial, Json.itemsWritable_strings object.methods, trivial⟩
    | data id data =>
      exact ⟨trivial, hid id, Attribute.itemsWritable_fieldsToJson data hback, trivial⟩
    | status id status => exact ⟨trivial, hid id, trivial, trivial⟩
  | serverFrame =>
    cases x with
    | call r =>
      have hdata : (Table.optionalToJson r.data).Writable := by
        cases hr : r.data with
        | none => exact trivial
        | some table =>
          refine Attribute.itemsWritable_fieldsToJson table fun d hd => hback d ?_
          simpa [doubles, Table.doubles, hr] using hd
      exact ⟨trivial, hid r.id, trivial, trivial, hdata, trivial⟩

/-- What is written of a frame goes into the buffer unless it nests too deep. -/
theorem buffer?_asWritten {β : Type} {j : Json} (hj : j.Writable) {read : Json → Option β}
    {finite : Prop} [Decidable finite] {b : Option β}
    (hread : read j.asWritten = if j.depth ≤ Json.nestingLimit ∧ finite then b else none) :
    (j.asWritten.buffer? Json.nestingLimit).bind read =
      if j.depth ≤ Json.nestingLimit ∧ finite then b else none := by
  have hreadable := Json.isReadable_asWritten j Json.nestingLimit hj
  rw [Json.buffer?]
  by_cases hdepth : j.depth ≤ Json.nestingLimit
  · rw [if_pos (hreadable.2 hdepth), Option.bind_some, hread]
  · rw [if_neg fun h => hdepth (hreadable.1 h), Option.bind_none, if_neg fun h => hdepth h.1]

/-- A payload that fits into what its frame leaves of the limit. -/
theorem map_payload {β γ : Type} {payload : β} {f : β → γ} {depth : Nat} {finite : Prop}
    [Decidable finite] :
    (if depth ≤ payloadLimit ∧ finite then some payload else none).map f =
      if depth + 1 ≤ Json.nestingLimit ∧ finite then some (f payload) else none := by
  have hlimit : depth + 1 ≤ Json.nestingLimit ↔ depth ≤ payloadLimit := Nat.add_le_add_iff_right
  simp only [hlimit]
  split
  · rfl
  · rfl

/-- A frame is read from the buffer if its payload fits into what the frame leaves of the limit. -/
theorem ofBuffer?_clientFrame (frame : ClientFrame) :
    ClientFrame.ofBuffer? frame.toJson.asWritten =
      if frame.toJson.depth ≤ Json.nestingLimit ∧
        (clientFrame.doubles frame).all Double.isFinite = true then some frame else none := by
  cases frame with
  | addObject object =>
    simp [doubles, ClientFrame.toJson, ClientFrame.ofBuffer?, Json.asWritten,
      Json.membersAsWritten, Json.itemsAsWritten_strings, Json.tagged?, Json.fields?,
      Json.member?, Json.values, Json.strings?_array, Json.depth, Json.depthMembers,
      Json.depthItems_strings, Json.nestingLimit]
  | data id data =>
    have hdata := Table.read?_asWritten data payloadLimit .buffered
    have hread : ClientFrame.ofBuffer? (ClientFrame.data id data).toJson.asWritten =
        (Table.read? payloadLimit .buffered data.toJson.asWritten).map (ClientFrame.data id) := by
      simp [ClientFrame.toJson, ClientFrame.ofBuffer?, Json.asWritten, Json.membersAsWritten,
        Json.tagged?, Json.fields?, Json.member?, Json.values, Json.word?_int,
        Option.map_eq_bind, Function.comp_def]
    have hdepth : (ClientFrame.data id data).toJson.depth = data.toJson.depth + 1 := by
      simp [ClientFrame.toJson, Json.depth, Json.depthMembers]
    rw [hread, hdata, hdepth]
    exact map_payload
  | status id status =>
    have hstatus : Status.read? payloadLimit .buffered (.string status.name) = some status :=
      Status.ofName?_name status
    simp [doubles, ClientFrame.toJson, ClientFrame.ofBuffer?, Json.asWritten,
      Json.membersAsWritten, Json.tagged?, Json.fields?, Json.member?, Json.values,
      Json.word?_int, hstatus, Json.depth, Json.depthMembers, Status.toJson, Json.nestingLimit]

theorem ofBuffer?_serverFrame (frame : ServerFrame) :
    ServerFrame.ofBuffer? frame.toJson.asWritten =
      if frame.toJson.depth ≤ Json.nestingLimit ∧
        (serverFrame.doubles frame).all Double.isFinite = true then some frame else none := by
  cases frame with
  | call r =>
    have hdata := Table.readOptional?_asWritten r.data payloadLimit .buffered
    have hread : ServerFrame.ofBuffer? (ServerFrame.call r).toJson.asWritten =
        (Table.readOptional? payloadLimit .buffered
          (some (Table.optionalToJson r.data).asWritten)).map fun data =>
            ServerFrame.call ⟨r.id, r.object, r.method, data⟩ := by
      simp [ServerFrame.toJson, ServerFrame.ofBuffer?, Json.asWritten, Json.membersAsWritten,
        Json.tagged?, Json.fields?, Json.member?, Json.values, Json.word?_int,
        Option.map_eq_bind, Function.comp_def]
    have hdepth : (ServerFrame.call r).toJson.depth =
        (Table.optionalToJson r.data).depth + 1 := by
      simp [ServerFrame.toJson, Json.depth, Json.depthMembers]
    rw [hread, hdata, hdepth]
    exact map_payload

/-- What the text of a value says is that value, unless it nests too deep or a number in it is not
finite. -/
theorem read?_asWritten (w : Wire α) {x : α} (hx : (w.toJson x).Writable) :
    w.read? (w.toJson x).asWritten =
      if (w.toJson x).depth ≤ Json.nestingLimit ∧ (w.doubles x).all Double.isFinite = true then
        some x
      else none := by
  cases w with
  | attr => exact Attribute.read?_asWritten x _ _
  | table => exact Table.read?_asWritten x Json.nestingLimit .streamed
  | status => exact Status.ofName?_name x
  | objectSpec =>
    simp [toJson, read?, doubles, ObjectSpec.toJson, ObjectSpec.ofJson?, Json.asWritten,
      Json.membersAsWritten, Json.itemsAsWritten_strings, Json.fields?, Json.member?, Json.values,
      Json.strings?_array, Json.depth, Json.depthMembers, Json.depthItems_strings,
      Json.nestingLimit]
  | clientFrame => exact buffer?_asWritten hx (ofBuffer?_clientFrame x)
  | serverFrame => exact buffer?_asWritten hx (ofBuffer?_serverFrame x)

theorem toList_encode (w : Wire α) (x : α) : (w.encode x).toList = (w.toJson x).render := by
  simp [encode, Json.toText]

/-- The text of a value nests as deep as its document. -/
theorem nesting_encode (w : Wire α) (x : α) :
    Json.nesting (w.encode x).toList = (w.toJson x).depth := by
  rw [toList_encode, Json.nesting_render]

/-- Decoding looks at the nesting of the text and at the numbers in the value, and at nothing
else. -/
theorem decode_encode_eq (w : Wire α) {x : α}
    (hback : ∀ d ∈ w.doubles x, d.isFinite = true → Json.ReadsBack d) :
    w.decode (w.encode x) =
      if Json.nesting (w.encode x).toList ≤ Json.nestingLimit ∧
          (w.doubles x).all Double.isFinite = true then .ok x
      else .error .malformedFrame := by
  have hwritable := writable_toJson w hback
  rw [nesting_encode, decode, toList_encode, Json.parse_render hwritable, Option.bind_some,
    read?_asWritten w hwritable]
  by_cases h : (w.toJson x).depth ≤ Json.nestingLimit ∧ (w.doubles x).all Double.isFinite = true
  · rw [if_pos h, if_pos h]
  · rw [if_neg h, if_neg h]

/--
What was written is read back if every floating-point number in it is finite and its text nests
containers at most 127 deep. It is refused as no frame if a number is not finite or the text nests
deeper.
-/
theorem decode_encode (w : Wire α) (x : α)
    (hback : ∀ d ∈ w.doubles x, d.isFinite = true → Json.ReadsBack d) :
    ((∀ d ∈ w.doubles x, d.isFinite = true) → Json.nesting (w.encode x).toList ≤ 127 →
        w.decode (w.encode x) = .ok x) ∧
      ((∃ d ∈ w.doubles x, d.isFinite = false) ∨ 127 < Json.nesting (w.encode x).toList →
        w.decode (w.encode x) = .error .malformedFrame) := by
  rw [decode_encode_eq w hback]
  refine ⟨?_, ?_⟩
  · intro hfinite hnesting
    exact if_pos ⟨hnesting, List.all_eq_true.2 hfinite⟩
  · rintro hwrong
    refine if_neg ?_
    rintro ⟨hnesting, hfinite⟩
    rcases hwrong with ⟨d, hd, hinfinite⟩ | hdeep
    · have hd' := List.all_eq_true.1 hfinite d hd
      rw [hinfinite] at hd'
      cases hd'
    · exact absurd hnesting (Nat.not_le.2 hdeep)

/-- A call whose payload repeats a name and has a number in it. -/
def numberedCall : ServerFrame :=
  .call ⟨7, "svc", "set", some [("k", .array [.double ⟨0x3ff8000000000000⟩, .unspec]),
    ("k", .table [])]⟩

/-- A call is read back, and an array with a number and with what is no number is refused. -/
theorem decode_encode_numberedCall :
    serverFrame.decode (serverFrame.encode numberedCall) = .ok numberedCall ∧
      attr.decode (attr.encode (.array [.double ⟨0x3ff8000000000000⟩, .double Double.nan])) =
        .error .malformedFrame :=
  ⟨(decode_encode serverFrame numberedCall (by decide +kernel)).1 (by decide +kernel)
      (by rw [nesting_encode]; decide +kernel),
    (decode_encode attr _ (by decide +kernel)).2 (.inl (by decide +kernel))⟩

end Wire
end ScriptService
