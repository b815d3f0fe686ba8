import ScriptService.Proofs.Json.Accepted
import ScriptService.Proofs.Wire.Foreign

/-!
# Canonical texts of what was read

A reader takes many spellings of one value: members in any order and among others, arrays in place
of objects, numbers and strings as they may be written, kinds that it does not know. The one text
that is written for the value nests no deeper than the reader goes, and its numbers are finite, so
that it is read again, as the same value.

What is read of an attribute is read of parts of its document, one level down each (`Json.Part`), so
that the limit to which a reader goes bounds the text of what it reads (`Attribute.read?_fits`).

Main statement: `Wire.decoded_reencodes`.
-/

namespace ScriptService

/-! ## Parts of documents -/

namespace Json

/-- An item of an array, or the value of a member of an object. -/
inductive Part (v : Json) : Json → Prop where
  | item {items : List Json} (h : v ∈ items) : Part v (array items)
  | member {members : List (String × Json)} {name : String} (h : (name, v) ∈ members) :
      Part v (object members)

theorem isFinite_of_mem_items {items : List Json} {v : Json} (hfinite : ItemsFinite items)
    (h : v ∈ items) : v.IsFinite := by
  induction items with
  | nil => cases h
  | cons j rest ih =>
    rcases List.mem_cons.1 h with rfl | hrest
    · exact hfinite.1
    · exact ih hfinite.2 hrest

theorem isFinite_of_mem_members {members : List (String × Json)} {name : String} {v : Json}
    (hfinite : MembersFinite members) (h : (name, v) ∈ members) : v.IsFinite := by
  induction members with
  | nil => cases h
  | cons m rest ih =>
    rcases List.mem_cons.1 h with rfl | hrest
    · exact hfinite.1
    · exact ih hfinite.2 hrest

theorem Part.isFinite {v j : Json} (h : Part v j) (hj : j.IsFinite) : v.IsFinite := by
  cases h with
  | item h => exact isFinite_of_mem_items hj h
  | member h => exact isFinite_of_mem_members hj h

/-- The fields of a record are parts of it. -/
theorem part_of_fields? {names : List String} {optional : Nat} {j v : Json}
    {fields : List (Option Json)} (h : fields? names optional j = some fields)
    (hv : some v ∈ fields) : Part v j := by
  cases j with
  | object members =>
    obtain ⟨name, -, hname⟩ := exists_of_mapM (by simpa [fields?] using h) hv
    have hmem : v ∈ values name members := by
      unfold member? at hname
      split at hname <;> simp_all
    exact .member (mem_of_values hmem)
  | array items =>
    simp only [fields?] at h
    split at h
    · obtain rfl := Option.some.inj h
      rcases List.mem_append.1 hv with hv | hv
      · obtain ⟨w, hw, hwv⟩ := List.mem_map.1 hv
        exact .item (Option.some.inj hwv ▸ hw)
      · simp at hv
    · cases h
  | _ => simp [fields?] at h

/-- What a record has besides its tag is part of the tagged record. -/
theorem part_of_tagged? {tag t : String} {j record v : Json} (h : tagged? tag j = some (t, record))
    (hv : Part v record) : Part v j := by
  cases j with
  | object members =>
    simp only [tagged?] at h
    split at h
    · cases h
      cases hv with
      | member hmem => exact .member (List.mem_filter.1 hmem).1
    · cases h
  | array items =>
    unfold tagged? at h
    split at h
    · simp_all
    · rename_i heq
      cases heq
      cases h
      cases hv with
      | item hmem => exact .item (List.mem_cons_of_mem _ hmem)
    · cases h
  | _ => simp [tagged?] at h

/-- A number that is read from a finite document is finite. -/
theorem isFinite_of_double? {j : Json} {x : Double} (hj : j.IsFinite) (h : j.double? = some x) :
    x.isFinite = true := by
  cases j with
  | int n =>
    cases h
    exact Double.isFinite_ofInt hj
  | real y =>
    cases h
    exact hj
  | _ => simp [double?] at h

/-- A document that a reader with a limit gets to the end of, and whose numbers are finite. -/
structure Fits (limit : Nat) (canonical : Json) (doubles : List Double) : Prop where
  depth : canonical.depth ≤ limit
  finite : ∀ d ∈ doubles, d.isFinite = true

end Json

open Json (Part Fits)

/-! ## Attributes -/

namespace Attribute

/-- The content of an attribute is part of it. -/
theorem part_of_form? {limit : Nat} {reading : Json.Reading} {j v : Json} {form : Form}
    (h : form? limit reading j = some form) (hv : form.content = some v) : Part v j := by
  have hown : ∀ {members : List (String × Json)} {name : String} {own : List (String × Json)},
      ownMembers members = own → (name, v) ∈ own → Part v (.object members) := by
    intro members name own hmembers hmem
    exact .member (mem_of_ownMembers hmembers hmem)
  unfold form? at h
  split at h
  · split at h
    · obtain ⟨kind, -, rfl⟩ := Option.map_eq_some_iff.1 h
      cases hv
    · rename_i hmembers
      obtain ⟨kind, -, rfl⟩ := Option.map_eq_some_iff.1 h
      cases hv
      exact hown hmembers (List.mem_cons_of_mem _ List.mem_cons_self)
    · rename_i hmembers
      split at h
      · obtain ⟨kind, -, rfl⟩ := Option.map_eq_some_iff.1 h
        cases hv
        exact hown hmembers List.mem_cons_self
      · cases h
    · cases h
  · obtain ⟨kind, -, rfl⟩ := Option.map_eq_some_iff.1 h
    cases hv
    exact .item (by simp)
  · cases h

/-! ### What is written for what was read -/

/-- A scalar is one record, and its number, if it is one, is that of the content. -/
theorem scalar?_sound {kind : String} {value : Option Json} {a : Attribute}
    (h : scalar? kind value = some a) : (toJson a).depth = 1 ∧
      ∀ d ∈ doubles a, ∃ v, value = some v ∧ v.double? = some d := by
  unfold scalar? at h
  split at h
  · cases h
    simp [toJson, depth_content, Json.depth, doubles]
  · obtain ⟨i, -, rfl⟩ := Option.map_eq_some_iff.1 h
    simp [toJson, depth_content, Json.depth, doubles]
  · obtain ⟨i, -, rfl⟩ := Option.map_eq_some_iff.1 h
    simp [toJson, depth_content, Json.depth, doubles]
  · obtain ⟨i, -, rfl⟩ := Option.map_eq_some_iff.1 h
    simp [toJson, depth_content, Json.depth, doubles]
  · obtain ⟨x, hx, rfl⟩ := Option.map_eq_some_iff.1 h
    simp [toJson, depth_content, Json.depth, doubles, hx]
  · cases h
    simp [toJson, depth_content, Json.depth, doubles]
  · cases h
    simp [toJson, Json.depth, Json.depthMembers, doubles]
  · cases h
    simp [toJson, Json.depth, Json.depthMembers, doubles]
  · split at h
    · cases h
    · cases h
      simp [toJson, Json.depth, Json.depthMembers, doubles]
  · split at h
    · cases h
    · cases h
      simp [toJson, Json.depth, Json.depthMembers, doubles]
  · cases h

theorem scalar?_fits {kind : String} {content : Option Json} {a : Attribute}
    (h : scalar? kind content = some a) (hfinite : ∀ v, content = some v → v.IsFinite) :
    Fits 1 (toJson a) (doubles a) := by
  obtain ⟨hdepth, hdoubles⟩ := scalar?_sound h
  refine ⟨Nat.le_of_eq hdepth, fun d hd => ?_⟩
  obtain ⟨v, hv, hdouble⟩ := hdoubles d hd
  exact Json.isFinite_of_double? (hfinite v hv) hdouble

theorem fits_items {limit : Nat} {as : List Attribute}
    (h : ∀ a ∈ as, Fits limit (toJson a) (doubles a)) :
    Fits (limit + 1) (.array (itemsToJson as)) (itemsDoubles as) := by
  induction as with
  | nil => exact ⟨by simp [itemsToJson, Json.depth, Json.depthItems], by simp [itemsDoubles]⟩
  | cons a as ih =>
    have hfirst := h a List.mem_cons_self
    have hrest := ih fun b hb => h b (List.mem_cons_of_mem _ hb)
    constructor
    · have hle := hfirst.depth
      have hmore := hrest.depth
      simp only [itemsToJson, Json.depth, Json.depthItems] at hmore ⊢
      omega
    · intro d hd
      rcases List.mem_append.1 hd with hd | hd
      · exact hfirst.finite d hd
      · exact hrest.finite d hd

/-- A field is a pair, one level above its attribute. -/
theorem fits_fields {limit : Nat} {fields : List (String × Attribute)}
    (h : ∀ f ∈ fields, Fits limit (.array [.string f.1, toJson f.2]) (doubles f.2)) :
    Fits (limit + 1) (.array (fieldsToJson fields)) (fieldsDoubles fields) := by
  induction fields with
  | nil => exact ⟨by simp [fieldsToJson, Json.depth, Json.depthItems], by simp [fieldsDoubles]⟩
  | cons f fields ih =>
    obtain ⟨name, a⟩ := f
    have hfirst := h (name, a) List.mem_cons_self
    have hrest := ih fun g hg => h g (List.mem_cons_of_mem _ hg)
    constructor
    · have hle := hfirst.depth
      have hmore := hrest.depth
      simp only [fieldsToJson, Json.depth, Json.depthItems] at hle hmore ⊢
      omega
    · intro d hd
      rcases List.mem_append.1 hd with hd | hd
      · exact hfirst.finite d hd
      · exact hrest.finite d hd

theorem fits_content {limit : Nat} {value : Json} {ds : List Double} (h : Fits limit value ds)
    (kind : String) : Fits (limit + 1) (toJson.content kind value) ds where
  depth := by
    rw [depth_content]
    exact Nat.add_le_add_right h.depth 1
  finite := h.finite

mutual
/-- An attribute is written no deeper than a reader may go that reads it. -/
theorem read?_fits : ∀ {limit : Nat} {reading : Json.Reading} {j : Json} {a : Attribute},
    read? limit reading j = some a → j.IsFinite → Fits limit (toJson a) (doubles a)
  | 0, _, _, _, h, _ => nomatch h
  | limit + 1, reading, j, a, h, hj => by
    rw [read?] at h
    obtain ⟨form, hform, hcontent⟩ := Option.bind_eq_some_iff.1 h
    exact content?_fits hcontent fun v hv => (part_of_form? hform hv).isFinite hj

theorem content?_fits : ∀ {limit : Nat} {reading : Json.Reading} {kind : String}
    {content : Option Json} {a : Attribute}, content? limit reading kind content = some a →
      (∀ v, content = some v → v.IsFinite) → Fits (limit + 1) (toJson a) (doubles a)
  | 0, reading, kind, content, a, h, hcontent => by
    have hscalar : scalar? kind content = some a := by
      cases content <;> exact h
    exact scalar?_fits hscalar hcontent
  | limit + 1, reading, kind, content, a, h, hcontent => by
    by_cases harray : ∃ items, content = some (.array items)
    · -- A list is written one level above its items, as it was read.
      obtain ⟨items, rfl⟩ := harray
      have hlist : (Json.array items).IsFinite := hcontent _ rfl
      rw [content?] at h
      split at h
      · obtain ⟨as, has, rfl⟩ := Option.map_eq_some_iff.1 h
        refine fits_content (fits_items fun a ha => ?_) "array"
        obtain ⟨item, hitem, hread⟩ := Json.exists_of_mapM has ha
        exact read?_fits hread ((Part.item hitem).isFinite hlist)
      · split at h
        · obtain ⟨fields, hfields, rfl⟩ := Option.map_eq_some_iff.1 h
          refine fits_content (fits_fields fun f hf => ?_) "table"
          obtain ⟨item, hitem, hread⟩ := Json.exists_of_mapM hfields hf
          exact field?_fits hread ((Part.item hitem).isFinite hlist)
        · cases h
    · have hnone : ∀ items, content ≠ some (.array items) := fun items heq => harray ⟨items, heq⟩
      rw [content?_of_not_array _ _ hnone] at h
      -- A scalar takes one level, and there is one left for it.
      have hone := scalar?_fits h hcontent
      exact ⟨hone.depth.trans (by omega), hone.finite⟩

theorem field?_fits : ∀ {limit : Nat} {reading : Json.Reading} {j : Json}
    {f : String × Attribute}, field? limit reading j = some f → j.IsFinite →
      Fits limit (.array [.string f.1, toJson f.2]) (doubles f.2)
  | 0, _, _, _, h, _ => nomatch h
  | limit + 1, reading, j, f, h, hj => by
    unfold field? at h
    split at h
    · rename_i name k hlimit
      cases hlimit
      obtain ⟨a, ha, rfl⟩ := Option.map_eq_some_iff.1 h
      have hread := read?_fits ha (Part.isFinite (.item (by simp)) hj)
      refine ⟨?_, hread.finite⟩
      have hle := hread.depth
      simp only [Json.depth, Json.depthItems]
      omega
    · cases h
end

end Attribute

/-! ## All that travels -/

theorem Table.read?_fits {limit : Nat} {reading : Json.Reading} {j : Json} {table : Table}
    (h : read? limit reading j = some table) (hj : j.IsFinite) :
    Fits limit table.toJson table.doubles := by
  unfold read? at h
  split at h
  · rename_i items
    refine Attribute.fits_fields fun f hf => ?_
    obtain ⟨item, hitem, hread⟩ := Json.exists_of_mapM h hf
    exact Attribute.field?_fits hread ((Part.item hitem).isFinite hj)
  · cases h

/-- A payload that is there is neither left out nor null. -/
theorem Table.readOptional?_eq_some {limit : Nat} {reading : Json.Reading} {data : Option Json}
    {table : Table} (h : readOptional? limit reading data = some (some table)) :
    ∃ k, data = some k ∧ read? limit reading k = some table := by
  unfold readOptional? at h
  split at h
  · cases h
  · cases h
  · rename_i k _
    obtain ⟨t, ht, heq⟩ := Option.map_eq_some_iff.1 h
    cases heq
    exact ⟨k, rfl, ht⟩

namespace Wire

variable {α : Type}

/-- A frame with a payload is one level above it, and has scalars besides. -/
theorem fits_payload {table : Table} (h : Fits payloadLimit table.toJson table.doubles)
    (scalars : List (String × Json)) (hscalars : Json.depthMembers scalars = 0) :
    Fits Json.nestingLimit (.object (scalars ++ [("data", table.toJson)])) table.doubles where
  depth := by
    have hsplit : ∀ members : List (String × Json),
        Json.depthMembers (members ++ [("data", table.toJson)]) =
          max (Json.depthMembers members) table.toJson.depth := by
      intro members
      induction members with
      | nil => simp [Json.depthMembers]
      | cons m rest ih => simp [Json.depthMembers, ih, Nat.max_assoc]
    rw [Json.depth.eq_2, hsplit, hscalars, Nat.zero_max]
    exact Nat.add_le_add_right h.depth 1
  finite := h.finite

theorem fits_clientFrame {j : Json} {frame : ClientFrame} (h : ClientFrame.ofJson? j = some frame)
    (hj : j.IsFinite) : Fits Json.nestingLimit frame.toJson (clientFrame.doubles frame) := by
  have hbuffer := Json.of_buffer? h
  unfold ClientFrame.ofBuffer? at hbuffer
  split at hbuffer
  · split at hbuffer
    · obtain ⟨names, -, rfl⟩ := Option.map_eq_some_iff.1 hbuffer
      exact ⟨by simp [ClientFrame.toJson, Json.depth, Json.depthMembers, Json.depthItems_strings,
        Json.nestingLimit], by simp [doubles]⟩
    · cases hbuffer
  · rename_i record htag
    split at hbuffer
    · rename_i id payload hfields
      simp only [Option.bind_eq_bind, Option.bind_eq_some_iff, Option.pure_def,
        Option.some.injEq] at hbuffer
      obtain ⟨n, -, table, htable, rfl⟩ := hbuffer
      -- Of the members only the payload nests.
      have hpart : Part payload record := Json.part_of_fields? hfields (by simp)
      have hpayload := (Json.part_of_tagged? htag hpart).isFinite hj
      exact fits_payload (Table.read?_fits htable hpayload)
        [("op", .string "data"), ("id", .int n.toNat)] rfl
    · cases hbuffer
  · split at hbuffer
    · simp only [Option.bind_eq_bind, Option.bind_eq_some_iff, Option.pure_def,
        Option.some.injEq] at hbuffer
      obtain ⟨n, -, outcome, -, rfl⟩ := hbuffer
      exact ⟨by simp [ClientFrame.toJson, Status.toJson, Json.depth, Json.depthMembers,
        Json.nestingLimit], by simp [doubles]⟩
    · cases hbuffer
  · cases hbuffer

theorem fits_serverFrame {j : Json} {frame : ServerFrame} (h : ServerFrame.ofJson? j = some frame)
    (hj : j.IsFinite) : Fits Json.nestingLimit frame.toJson (serverFrame.doubles frame) := by
  have hbuffer := Json.of_buffer? h
  unfold ServerFrame.ofBuffer? at hbuffer
  split at hbuffer
  · rename_i record htag
    split at hbuffer
    · rename_i id object method data hfields
      simp only [Option.bind_eq_bind, Option.bind_eq_some_iff, Option.pure_def,
        Option.some.injEq] at hbuffer
      obtain ⟨n, -, payload, hpayload, rfl⟩ := hbuffer
      cases payload with
      | none =>
        exact ⟨by simp [ServerFrame.toJson, Table.optionalToJson, Json.depth, Json.depthMembers,
          Json.nestingLimit], by simp [doubles]⟩
      | some table =>
        obtain ⟨k, rfl, htable⟩ := Table.readOptional?_eq_some hpayload
        have hpart : Part k record := Json.part_of_fields? hfields (by simp)
        have hpayload := (Json.part_of_tagged? htag hpart).isFinite hj
        exact fits_payload (Table.read?_fits htable hpayload) [("op", .string "call"),
          ("id", .int n.toNat), ("object", .string object), ("method", .string method)] rfl
    · cases hbuffer
  · cases hbuffer

/-- What is written for a value that was read nests no deeper than a reader goes. -/
theorem read?_fits (w : Wire α) {j : Json} {x : α} (h : w.read? j = some x) (hj : j.IsFinite) :
    Fits Json.nestingLimit (w.toJson x) (w.doubles x) := by
  cases w with
  | attr => exact Attribute.read?_fits h hj
  | table => exact Table.read?_fits h hj
  | status => exact ⟨Nat.zero_le _, by simp [doubles]⟩
  | objectSpec =>
    exact ⟨by simp [toJson, ObjectSpec.toJson, Json.depth, Json.depthMembers,
      Json.depthItems_strings, Json.nestingLimit], by simp [doubles]⟩
  | clientFrame => exact fits_clientFrame h hj
  | serverFrame => exact fits_serverFrame h hj

theorem parse_of_decode (w : Wire α) {text : String} {x : α} (h : w.decode text = .ok x) :
    ∃ j, Json.parse text.toList = some j ∧ w.read? j = some x := by
  unfold decode at h
  split at h
  · rename_i y hy
    cases h
    exact Option.bind_eq_some_iff.1 hy
  · cases h

/--
Whatever text a value was read from: its floating-point numbers are finite, the text that is written
for it nests containers at most 127 deep, and if each of its numbers is read back from its own text,
the value is read back from that text.
-/
theorem decoded_reencodes (w : Wire α) {text : String} {x : α} (h : w.decode text = .ok x) :
    (∀ d ∈ w.doubles x, d.isFinite = true) ∧ Json.nesting (w.encode x).toList ≤ 127 ∧
      ((∀ d ∈ w.doubles x, Json.ReadsBack d) → w.decode (w.encode x) = .ok x) := by
  obtain ⟨j, hparse, hread⟩ := w.parse_of_decode h
  obtain ⟨hdepth, hfinite⟩ := w.read?_fits hread (Json.parse_sound hparse)
  have hnesting : Json.nesting (w.encode x).toList ≤ Json.nestingLimit := by
    rw [nesting_encode]
    exact hdepth
  refine ⟨hfinite, hnesting, ?_⟩
  intro hback
  rw [decode_encode_eq w fun d hd _ => hback d hd]
  exact if_pos ⟨hnesting, List.all_eq_true.2 hfinite⟩

/-- A call as nobody here writes it: fields in an array, the content before its kind, pairs in place
of attributes, one of them with the number of its kind, a member that means nothing, and a kind that
is not known. -/
def spelledCall : Json :=
  .array [.string "call", .int 7, .string "svc", .string "set", .array [.array [.string "k",
    .object [("value", .array [.array [.string "double", .real ⟨0x3ff8000000000000⟩],
      .array [.string "int8", .null], .array [.int 2, .int (-1)],
      .object [("note", .array [.int 0]), ("type", .string "int64"), ("value", .int 5)]]),
      ("type", .object [("array", .object [])])]]]]

/-- The call that it spells. -/
def plainCall : ServerFrame :=
  .call ⟨7, "svc", "set",
    some [("k", .array [.double ⟨0x3ff8000000000000⟩, .unknown, .int32 (-1), .int64 5])]⟩

theorem decode_spelledCall : serverFrame.decode spelledCall.toText = .ok plainCall := by
  have hback : Json.ReadsBack ⟨0x3ff8000000000000⟩ := by decide +kernel
  have hwritable : spelledCall.Writable := by
    simp [spelledCall, Json.Writable, Json.ItemsWritable, Json.MembersWritable, hback]
  have hparse : Json.parse spelledCall.toText.toList = some spelledCall := by
    rw [Json.toText, String.toList_ofList, Json.parse_render hwritable]
    rfl
  have hread : ServerFrame.ofJson? spelledCall = some plainCall := by
    rfl
  rw [decode, hparse, Option.bind_some, read?, hread]

/-- The call is read, its number is read back from its own text, and so is the call. -/
theorem decoded_reencodes_spelledCall :
    serverFrame.decode spelledCall.toText = .ok plainCall ∧
      (∀ d ∈ serverFrame.doubles plainCall, Json.ReadsBack d) ∧
      serverFrame.decode (serverFrame.encode plainCall) = .ok plainCall := by
  have hback : ∀ d ∈ serverFrame.doubles plainCall, Json.ReadsBack d := by decide +kernel
  exact ⟨decode_spelledCall, hback, (decoded_reencodes serverFrame decode_spelledCall).2.2 hback⟩

end Wire
end ScriptService
