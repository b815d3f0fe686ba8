import ScriptService.Number.Double

/-!
# JSON documents

A document keeps what its text says and nothing less: members stay in order, also repeated ones,
and a number is an integer or a floating-point number by its spelling. What no value can be made of
keeps its place, because a reader that passes over it does not mind.
-/

namespace ScriptService

/-- A JSON document. -/
inductive Json where
  | null
  | bool (b : Bool)
  | int (n : Int)
  | real (x : Double)
  | string (s : String)
  | array (items : List Json)
  | object (members : List (String × Json))
  /-- A number beyond all floating-point numbers, a string with half a character in it, or an object
  with such a name. -/
  | unreadable
  deriving Inhabited

namespace Json

mutual
/-- How deep containers nest; a scalar has depth 0. -/
def depth : Json → Nat
  | array items => depthItems items + 1
  | object members => depthMembers members + 1
  | _ => 0

def depthItems : List Json → Nat
  | [] => 0
  | j :: rest => max (depth j) (depthItems rest)

def depthMembers : List (String × Json) → Nat
  | [] => 0
  | (_, j) :: rest => max (depth j) (depthMembers rest)
end

/-- Whether everything in a document can be read and containers nest at most `limit` deep. -/
def isReadable : Nat → Json → Bool
  | _, unreadable => false
  | 0, array _ => false
  | 0, object _ => false
  | limit + 1, array items => items.all (isReadable limit)
  | limit + 1, object members => members.all fun m => isReadable limit m.2
  | _, _ => true

end Json
end ScriptService
