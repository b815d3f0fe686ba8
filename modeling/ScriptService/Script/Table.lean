import ScriptService.Script.Fault

/-!
# Tables in scripts

A table is an insertion-ordered map from names to values. This module holds what builds one from
script values, and the calls that script code makes on one, with the exceptions they raise.
-/

namespace ScriptService

/-- Why a list is not a list of fields. -/
inductive PairError where
  | notAPair
  | nameNotString (typeName : String)
  deriving DecidableEq

namespace PairError

def message : PairError → String
  | notAPair => "table() expects [name, value] pairs"
  | nameNotString typeName => "table() field name must be a string, not " ++ typeName

end PairError

namespace Value

/-- The full type name, under which a table shows itself where types are not given short names. -/
def fullTypeName (v : Value) : String :=
  match v.content with
  | table _ => String.ofList tableText
  | v => v.typeName

/-- The name and the value of a pair. -/
def pair? (v : Value) : Except PairError (String × Value) :=
  match v.array? with
  | some [name, value] =>
    match name.string? with
    | some s => .ok (s, value)
    | none => .error (.nameNotString name.fullTypeName)
  | _ => .error .notAPair

/-- The fields of a list of pairs: each name at its first place, with the value given last. The
first element that is no pair decides the error. -/
def tableOfPairs (pairs : List Value) : Except PairError (Fields Value) :=
  (pairs.mapM pair?).map Fields.ofPairs

/-- The object map with the fields of a table. -/
def mapOfTable (fields : Fields Value) : Fields Value := Fields.sorted fields

/-! ## Sums -/

/-- `a + b` as scripts compute it: numbers add, text is appended to text, and an array takes items
or the items of another one. -/
def plus (a b : Value) : Except Fault Value :=
  match a.content, b.content with
  | int i, int j =>
    let sum := i.toInt + j.toInt
    if -9223372036854775808 ≤ sum ∧ sum ≤ 9223372036854775807 then .ok (int (.ofInt sum))
    else
      let operands := Digits.ofInt i.toInt ++ " + ".toList ++ Digits.ofInt j.toInt
      .error (.arithmetic (String.ofList ("Addition overflow: ".toList ++ operands)))
  | int i, float y => .ok (float ((Double.ofInt i.toInt).add y))
  | float x, int j => .ok (float (x.add (Double.ofInt j.toInt)))
  | float x, float y => .ok (float (x.add y))
  | array xs, array ys => .ok (array (xs ++ ys))
  | array xs, _ => .ok (array (xs ++ [b]))
  | string s, v => .ok (string (s ++ String.ofList v.display))
  | char c, string s => .ok (string (String.singleton c ++ s))
  | char c, char d => .ok (string (String.ofList [c, d]))
  | v, string s => .ok (string (String.ofList v.display ++ s))
  | _, _ => .error (.functionNotFound (signature "+" [a, b]))

end Value

/-! ## Calls -/

/-- A call that script code makes on a table. -/
inductive TableCall where
  /-- A new table, of nothing or of one argument. -/
  | build (source : Option Value)
  /-- The value at an index; unit if the name is absent. -/
  | index (key : Value)
  /-- Assignment to an index. -/
  | indexSet (key value : Value)
  /-- Addition to what an index holds. -/
  | indexAdd (key value : Value)
  /-- Sets a field and gives the table. -/
  | set (key value : Value)
  | contains (key : Value)
  /-- Removes a field and gives its value, unit if the name is absent. -/
  | remove (key : Value)
  | len
  | isEmpty
  | keys
  | values
  | toMap
  | toText
  deriving Inhabited

namespace TableCall

/-- The name under which messages show the table itself. -/
def receiver : Value := .table []

def indexError (key : Value) : Fault :=
  .indexerUnavailable ("table [" ++ key.typeName ++ "]")

def indexSetError (key value : Value) : Fault :=
  .indexerUnavailable ("table [" ++ key.typeName ++ "] = " ++ value.typeName)

/-- What a call finds under a key, or the fault of a key that is no string. -/
def withName {α : Type} (key : Value) (fault : Fault) (k : String → Except Fault α) :
    Except Fault α :=
  match key.string? with
  | some name => k name
  | none => .error fault

/-- The missing function of a call whose arguments do not fit. -/
def noFunction (name : String) (args : List Value) : Fault :=
  .functionNotFound (Value.signature name args)

/-- The value of a name, unit if it is absent. -/
def read (fields : Fields Value) (name : String) : Value := (Fields.get? fields name).getD .unit

/-- The result of a call and the table after it. A value that is passed leaves its shared cell. -/
def run (fields : Fields Value) : TableCall → Except Fault (Value × Fields Value)
  | build none => .ok (.unit, [])
  | build (some source) =>
    match source.content with
    | .array items =>
      match Value.tableOfPairs items with
      | .ok fields => .ok (.unit, fields)
      | .error e => .error (.thrown (.string e.message))
    | .map fields => .ok (.unit, fields)
    | _ => .error (noFunction "table" [source])
  | index key => withName key (indexError key) fun name => .ok (read fields name, fields)
  | indexSet key value =>
    withName key (indexSetError key value) fun name =>
      .ok (.unit, Fields.insert fields name value.content)
  | indexAdd key value =>
    withName key (indexError key) fun name => do
      return (.unit, Fields.insert fields name (← (read fields name).plus value.content))
  | set key value =>
    withName key (noFunction "set" [receiver, key, value]) fun name =>
      let fields := Fields.insert fields name value.content
      .ok (.table fields, fields)
  | contains key =>
    withName key (noFunction "contains" [receiver, key]) fun name =>
      .ok (.bool (Fields.contains fields name), fields)
  | remove key =>
    withName key (noFunction "remove" [receiver, key]) fun name =>
      .ok (read fields name, Fields.erase fields name)
  | len => .ok (.int (.ofNat fields.length), fields)
  | isEmpty => .ok (.bool fields.isEmpty, fields)
  | keys => .ok (.array ((Fields.keys fields).map .string), fields)
  | values => .ok (.array (fields.map (·.2)), fields)
  | toMap => .ok (.map (Value.mapOfTable fields), fields)
  | toText => .ok (.string (String.ofList (Value.tableDisplay fields)), fields)

end TableCall
end ScriptService
