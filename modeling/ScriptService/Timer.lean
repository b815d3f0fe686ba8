import ScriptService.Script.Value

/-!
# Timers

A timer is a callback with an id that is linked until it is removed; while it is armed it has a
deadline. Armings queue up by deadline and, among equal deadlines, in the order they were made. An
arming is in force only while its timer is linked and has not been armed again; others are passed
over when they come to the front of the queue.
-/

namespace ScriptService

/-- A linked timer. -/
structure Timer where
  id : Nat
  callback : Callback
  /-- The value passed to the callback. -/
  attached : Option Value
  /-- The number of its latest arming. -/
  arming : Nat
  deriving Inhabited

/-- A deadline of a timer. -/
structure Arming where
  /-- When the timer is due, in milliseconds. -/
  deadline : Int
  /-- The number of this arming; armings are numbered in the order they are made. -/
  order : Nat
  id : Nat
  deriving DecidableEq, Inhabited

/-- Whether one arming is due before another. -/
def Arming.precedes (a b : Arming) : Bool :=
  a.deadline < b.deadline || (a.deadline == b.deadline && a.order < b.order)

/-- Linked timers and the queue of their deadlines. -/
structure TimerList where
  timers : List Timer := []
  queue : List Arming := []
  /-- The id given out last. -/
  lastId : Nat := 0
  /-- The number of the latest arming. -/
  lastArming : Nat := 0
  deriving Inhabited

namespace TimerList

/-- Puts an arming into a queue behind all that precede it. -/
def enqueue (queue : List Arming) (a : Arming) : List Arming :=
  match queue with
  | [] => [a]
  | b :: rest => if a.precedes b then a :: b :: rest else b :: enqueue rest a

/-- Arms a timer; a negative delay counts as none. -/
def arm (list : TimerList) (now : Int) (id : Nat) (delay : Int) : TimerList :=
  let order := list.lastArming + 1
  { list with
    queue := enqueue list.queue ⟨now + max delay 0, order, id⟩
    lastArming := order }

/-- Links a new timer that is due after a delay. -/
def schedule (list : TimerList) (now : Int) (callback : Callback) (delay : Int)
    (attached : Option Value) : Nat × TimerList :=
  let id := list.lastId + 1
  let list := { list with lastId := id }.arm now id delay
  (id, { list with timers := list.timers ++ [⟨id, callback, attached, list.lastArming⟩] })

/-- The linked timer with an id. -/
def get? (list : TimerList) (id : Nat) : Option Timer := list.timers.find? fun t => t.id == id

def contains (list : TimerList) (id : Nat) : Bool := (list.get? id).isSome

/-- Gives a linked timer a new deadline, which replaces the one it has. -/
def rearm (list : TimerList) (now : Int) (id : Nat) (delay : Int) : Bool × TimerList :=
  if list.contains id then
    -- The earlier arming stays in the queue, but is no longer in force.
    let list := list.arm now id delay
    (true,
      { list with
        timers := list.timers.map fun t =>
          if t.id = id then { t with arming := list.lastArming } else t })
  else (false, list)

/-- Unlinks a timer. -/
def remove (list : TimerList) (id : Nat) : Option Timer × TimerList :=
  (list.get? id, { list with timers := list.timers.eraseP fun t => t.id == id })

/-- Whether an arming is in force. -/
def inForce (list : TimerList) (a : Arming) : Bool :=
  match list.get? a.id with
  | some t => t.arming == a.order
  | none => false

/-- Leaves out the armings at the front of the queue that are not in force. -/
def settle (list : TimerList) : TimerList :=
  { list with queue := list.queue.dropWhile fun a => !list.inForce a }

/-- Takes the next timer that is due; it stays linked, but is no longer armed. -/
def popExpired (list : TimerList) (now : Int) : Option Nat × TimerList :=
  let list := list.settle
  match list.queue with
  | a :: rest => if a.deadline ≤ now then (some a.id, { list with queue := rest }) else (none, list)
  | [] => (none, list)

/-- The next deadline. -/
def nextDeadline (list : TimerList) : Option Int := (list.settle.queue.head?).map (·.deadline)

/-- Unlinks every timer; how many there were. -/
def clear (list : TimerList) : Nat × TimerList :=
  (list.timers.length, { list with timers := [], queue := [] })

/-- The values that the timers hold. -/
def held (list : TimerList) : List Value :=
  list.timers.flatMap fun t => t.callback.toValue :: t.attached.toList

end TimerList
end ScriptService
