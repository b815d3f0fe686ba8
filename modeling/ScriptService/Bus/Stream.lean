import ScriptService.Bus.Connection
import ScriptService.Text.Blank
import ScriptService.Wire.Frame
import ScriptService.World.SystemError

/-!
# The bus over a stream

Over a socket the frames travel as lines of text. What arrives is cut at line feeds, a carriage
return before a line feed belonging to the end of the line; blank lines say nothing, and a last
line needs no line feed. A line that is no text or no frame is lost, and only that line.
-/

namespace ScriptService

/-- The client's end of a stream. -/
structure Stream where
  /-- The bytes that arrived and were not read yet. -/
  incoming : List UInt8 := []
  /-- Whether the bus has closed its end. -/
  ended : Bool := false
  /-- The text written, in order. -/
  outgoing : List Char := []
  deriving Inhabited

namespace Stream

/-! ## Lines -/

def lineFeed : UInt8 := 10

def carriageReturn : UInt8 := 13

/-- The bytes up to the first line feed, and those after it. -/
def cut? : List UInt8 → Option (List UInt8 × List UInt8)
  | [] => none
  | b :: rest =>
    if b = lineFeed then some ([], rest)
    else (cut? rest).map fun (line, rest) => (b :: line, rest)

/-- The bytes without a carriage return at the end. -/
def chop (line : List UInt8) : List UInt8 :=
  if line.getLast? = some carriageReturn then line.dropLast else line

/-- The next line, and the bytes after it. -/
def nextLine? (ended : Bool) (bytes : List UInt8) : Option (List UInt8 × List UInt8) :=
  match cut? bytes with
  | some (line, rest) => some (chop line, rest)
  | none => if ended && !bytes.isEmpty then some (bytes, []) else none

theorem length_lt_of_cut? {bytes line rest : List UInt8} (h : cut? bytes = some (line, rest)) :
    rest.length < bytes.length := by
  induction bytes generalizing line with
  | nil => simp [cut?] at h
  | cons b bytes ih =>
    unfold cut? at h
    split at h
    · simp_all
    · obtain ⟨⟨l, r⟩, hc, hr⟩ := Option.map_eq_some_iff.1 h
      obtain ⟨rfl, rfl⟩ := Prod.mk.inj hr
      exact Nat.lt_succ_of_lt (ih hc)

theorem length_lt_of_nextLine? {ended : Bool} {bytes line rest : List UInt8}
    (h : nextLine? ended bytes = some (line, rest)) : rest.length < bytes.length := by
  unfold nextLine? at h
  split at h
  · rename_i hc
    obtain ⟨-, rfl⟩ := Prod.mk.inj (Option.some.inj h)
    exact length_lt_of_cut? hc
  · split at h
    · rename_i hb
      obtain ⟨-, rfl⟩ := Prod.mk.inj (Option.some.inj h)
      cases bytes with
      | nil => simp at hb
      | cons b bytes => exact Nat.zero_lt_succ _
    · simp at h

/-- The text of a line, if it is text. -/
def text? (line : List UInt8) : Option (List Char) :=
  (String.fromUTF8? ⟨line.toArray⟩).map String.toList

/-! ## Frames -/

/-- What a line says: nothing if it is blank, else a call or an error. -/
def frameOf (line : List UInt8) : Option (Except BusError Request) :=
  match text? line with
  | none => some (.error (.io "stream did not contain valid UTF-8"))
  | some cs =>
    if cs.all Text.isBlank then none
    else
      match (Json.parse cs).bind ServerFrame.ofJson? with
      | some (.call r) => some (.ok r)
      | none => some (.error .malformedFrame)

/-- The next call or error in a run of bytes, and the bytes after it. -/
def read (ended : Bool) (bytes : List UInt8) : Received × List UInt8 :=
  match h : nextLine? ended bytes with
  | none => (if ended then .closed else .pending, bytes)
  | some (line, rest) =>
    have := length_lt_of_nextLine? h
    match frameOf line with
    -- A blank line is passed over at once; an error uses up its line, too.
    | none => read ended rest
    | some (.ok r) => (.call r, rest)
    | some (.error e) => (.failed e, rest)
termination_by bytes.length

/-- Takes the next call. -/
def receive (s : Stream) : Received × Stream :=
  let (r, incoming) := read s.ended s.incoming
  (r, { s with incoming })

/-- The line that carries a frame. -/
def lineOf (f : ClientFrame) : List Char := f.toJson.render ++ ['\n']

/-- Writes frames, which fails once the bus has closed its end. -/
def send (s : Stream) (frames : List ClientFrame) : Except BusError Unit × Stream :=
  if s.ended then (.error (.io SystemError.brokenPipe.fileMessage), s)
  else (.ok (), { s with outgoing := s.outgoing ++ frames.flatMap lineOf })

def addObject (s : Stream) (object : ObjectSpec) : Except BusError Unit × Stream :=
  s.send [.addObject object]

def reply (s : Stream) (r : Reply) : Except BusError Unit × Stream := s.send (ClientFrame.ofReply r)

/-! ## The bus's end -/

/-- Bytes arrive, as long as the bus has not closed its end. -/
def arrive (s : Stream) (bytes : List UInt8) : Bool × Stream :=
  if s.ended then (false, s) else (true, { s with incoming := s.incoming ++ bytes })

/-- The bus closes its end, once. -/
def hangUp (s : Stream) : Bool × Stream := (!s.ended, { s with ended := true })

end Stream
end ScriptService
