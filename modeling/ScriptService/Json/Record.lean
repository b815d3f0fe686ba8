import ScriptService.Json.Basic

/-!
# Records in JSON

A record may be written as an object, whose members come in any order and among others that are
ignored, or as an array of its fields in their own order. A record with a tag starts with it in
the array form. A field that is given twice makes the record unreadable.

A text is read straight on where it is known what to make of it; members that mean nothing are then
passed over. Else it goes into a buffer first, where all of it must be readable, and is interpreted
from there, with more spellings for a name among alternatives.
-/

namespace ScriptService.Json

/-- Where a document is read from. -/
inductive Reading where
  /-- Straight from the text. -/
  | streamed
  /-- From a buffer that the text was put into. -/
  | buffered
  deriving DecidableEq

/-- A document as it stands in a buffer, if it can be put there. -/
def buffer? (limit : Nat) (j : Json) : Option Json := if j.isReadable limit then some j else none

/-- The name of one among alternatives: a string, or an object with this name for its only one and
null for the value. In a buffer an empty object does for null. -/
def alternative? (reading : Reading) (limit : Nat) : Json → Option String
  | string name => some name
  | object [(name, null)] => if 0 < limit then some name else none
  | object [(name, object [])] => if reading = .buffered then some name else none
  | _ => none

/-- All values of the members with a name. -/
def values (name : String) (members : List (String × Json)) : List Json :=
  (members.filter fun m => m.1 == name).map (·.2)

/-- The value of the member with a name: `some none` if there is none, `none` if it is repeated. -/
def member? (name : String) (members : List (String × Json)) : Option (Option Json) :=
  match values name members with
  | [] => some none
  | [j] => some (some j)
  | _ => none

/--
The fields of a record in the order of `names`; a field that an object leaves out is `none`. An
array has all fields, except that up to `optional` of the last ones may be left off.
-/
def fields? (names : List String) (optional : Nat) : Json → Option (List (Option Json))
  | object members => names.mapM (member? · members)
  | array items =>
    if items.length ≤ names.length ∧ names.length ≤ items.length + optional then
      some (items.map some ++ List.replicate (names.length - items.length) none)
    else none
  | _ => none

/-- The tag of a record, and the record without it. -/
def tagged? (tag : String) : Json → Option (String × Json)
  | object members =>
    match values tag members with
    | [string t] => some (t, object (members.filter fun m => m.1 != tag))
    | _ => none
  | array (string t :: rest) => some (t, array rest)
  | _ => none

/-- A string. -/
def string? : Json → Option String
  | string s => some s
  | _ => none

/-- An array of strings. -/
def strings? : Json → Option (List String)
  | array items => items.mapM string?
  | _ => none

/-- An integer between two bounds, ends included. -/
def integer? (low high : Int) : Json → Option Int
  | int n => if low ≤ n ∧ n ≤ high then some n else none
  | _ => none

/-- A floating-point number; integers are rounded to the nearest one. -/
def double? : Json → Option Double
  | int n => some (Double.ofInt n)
  | real x => some x
  | _ => none

/-- A number from 0 to `2 ^ 32 - 1`. -/
def word? (j : Json) : Option UInt32 := (integer? 0 4294967295 j).map fun n => .ofNat n.toNat

/-- Every result of a list of attempts comes from one of them. -/
theorem exists_of_mapM {α β : Type} {f : α → Option β} {as : List α} {bs : List β} {b : β}
    (h : as.mapM f = some bs) (hb : b ∈ bs) : ∃ a, a ∈ as ∧ f a = some b := by
  induction as generalizing bs with
  | nil => simp_all
  | cons a as ih =>
    simp only [List.mapM_cons, Option.bind_eq_bind, Option.bind_eq_some_iff, Option.pure_def,
      Option.some.injEq] at h
    obtain ⟨c, hc, cs, hcs, rfl⟩ := h
    rcases List.mem_cons.1 hb with rfl | hb
    · exact ⟨a, List.mem_cons_self, hc⟩
    · obtain ⟨a', ha', hf⟩ := ih hcs hb
      exact ⟨a', List.mem_cons_of_mem a ha', hf⟩

/-- What is read from a buffer is read of the document that went into it. -/
theorem of_buffer? {α : Type} {limit : Nat} {j : Json} {read : Json → Option α} {a : α}
    (h : (j.buffer? limit).bind read = some a) : read j = some a := by
  unfold buffer? at h
  split at h
  · exact h
  · cases h

theorem buffer?_eq_none {α : Type} {limit : Nat} {j : Json} {read : Json → Option α}
    (h : read j = none) : (j.buffer? limit).bind read = none := by
  unfold buffer?
  split
  · exact h
  · rfl

theorem mem_of_values {name : String} {members : List (String × Json)} {j : Json}
    (h : j ∈ values name members) : (name, j) ∈ members := by
  obtain ⟨⟨n, v⟩, hm, rfl⟩ := List.mem_map.1 h
  obtain ⟨hm, hn⟩ := List.mem_filter.1 hm
  simpa [← beq_iff_eq.1 hn] using hm

theorem values_perm {name : String} {ms ms' : List (String × Json)} (h : ms.Perm ms') :
    (values name ms).Perm (values name ms') :=
  (h.filter _).map _

end ScriptService.Json
