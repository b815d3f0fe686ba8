import ScriptService.Wire.Message

/-!
# Connections

What a client sees of one connection to the bus. A connection carries one registration, then calls
in one direction and replies in the other, until one side closes it.
-/

namespace ScriptService

/-- The number of a connection. -/
abbrev ConnectionId := Nat

/-- What a connection gives to a client that asks for the next call. -/
inductive Received where
  | call (r : Request)
  /-- There is no call yet. -/
  | pending
  /-- The bus has hung up and every call was taken. -/
  | closed
  | failed (e : BusError)
  deriving Inhabited

/-- What becomes of a reply that a client writes. -/
inductive Written where
  | done
  /-- The bus does not take it, and will not. -/
  | stalled
  | failed (e : BusError)
  deriving Inhabited

end ScriptService
