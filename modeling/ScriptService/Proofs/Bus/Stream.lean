import ScriptService.Bus.Stream
import ScriptService.Proofs.History
import ScriptService.Proofs.Json.Printable
import ScriptService.Proofs.Text.Lines
import ScriptService.Proofs.Wire.RoundTrip

/-!
# Both directions of a stream

Bytes arrive in pieces of any size while the client asks for calls, registers its object and writes
replies. What the client writes is one line for each frame. What it is given is one result for each
line of what arrived that is not blank, in order, and then that the bus has hung up.

The lines that the arrived bytes still hold are followed at the level of bytes (`Stream.said`),
where a piece may end in the middle of a character; what these lines say in terms of the text is
`Stream.said_utf8`.

Main statement: `Stream.conversation`.
-/

namespace ScriptService
namespace Stream

open Text (utf8)

/-! ## Cutting bytes at line feeds -/

theorem lineFeed_mem_utf8 {cs : List Char} : lineFeed ∈ utf8 cs ↔ '\n' ∈ cs :=
  Text.mem_utf8 (a := '\n') (by decide)

theorem cut?_append {line : List UInt8} (h : lineFeed ∉ line) (rest : List UInt8) :
    cut? (line ++ lineFeed :: rest) = some (line, rest) := by
  induction line with
  | nil => rfl
  | cons b line ih =>
    have hb : b ≠ lineFeed := fun heq => h (by simp [heq])
    have hline : lineFeed ∉ line := fun hmem => h (List.mem_cons_of_mem b hmem)
    simp [cut?, hb, ih hline]

theorem cut?_of_not_mem {bytes : List UInt8} (h : lineFeed ∉ bytes) : cut? bytes = none := by
  induction bytes with
  | nil => rfl
  | cons b bytes ih =>
    have hb : b ≠ lineFeed := fun heq => h (by simp [heq])
    have hbytes : lineFeed ∉ bytes := fun hmem => h (List.mem_cons_of_mem b hmem)
    simp [cut?, hb, ih hbytes]

/-- What is cut off stays so when more arrives. -/
theorem cut?_append_right {bytes line rest : List UInt8} (h : cut? bytes = some (line, rest))
    (more : List UInt8) : cut? (bytes ++ more) = some (line, rest ++ more) := by
  induction bytes generalizing line with
  | nil => cases h
  | cons b bytes ih =>
    unfold cut? at h
    rw [List.cons_append, cut?]
    split at h
    · rename_i hb
      obtain ⟨rfl, rfl⟩ := Prod.mk.inj (Option.some.inj h)
      rw [if_pos hb]
    · rename_i hb
      obtain ⟨⟨front, back⟩, hcut, heq⟩ := Option.map_eq_some_iff.1 h
      obtain ⟨rfl, rfl⟩ := Prod.mk.inj heq
      rw [if_neg hb, ih hcut]
      rfl

/-- A line that was there is there when more arrives; nothing arrives behind the end. -/
theorem nextLine?_append {ended e : Bool} {bytes more line rest : List UInt8}
    (h : nextLine? ended bytes = some (line, rest)) (hmore : ended = true → e = true ∧ more = []) :
    nextLine? e (bytes ++ more) = some (line, rest ++ more) := by
  unfold nextLine? at h
  split at h
  · rename_i front back hcut
    obtain ⟨rfl, rfl⟩ := Prod.mk.inj (Option.some.inj h)
    rw [nextLine?, cut?_append_right hcut]
  · rename_i hcut
    cases ended with
    | false => simp at h
    | true =>
      obtain ⟨rfl, rfl⟩ := hmore rfl
      rw [List.append_nil, List.append_nil, nextLine?, hcut]
      exact h

theorem nextLine?_line (ended : Bool) {line : List UInt8} (h : lineFeed ∉ line)
    (rest : List UInt8) :
    nextLine? ended (line ++ lineFeed :: rest) = some (chop line, rest) := by
  rw [nextLine?, cut?_append h]

theorem nextLine?_of_not_mem (ended : Bool) {bytes : List UInt8} (h : lineFeed ∉ bytes) :
    nextLine? ended bytes = if ended && !bytes.isEmpty then some (bytes, []) else none := by
  rw [nextLine?, cut?_of_not_mem h]

/-! ## The text of a line -/

theorem text?_utf8 (line : List Char) : text? (utf8 line) = some line := by
  have hself : String.fromUTF8? line.utf8Encode = some (String.ofList line) :=
    dif_pos ByteArray.isValidUTF8_utf8Encode
  rw [text?, Text.toArray_utf8, hself, Option.map_some, String.toList_ofList]

theorem getLast?_utf8 (line : List Char) :
    (utf8 line).getLast? = some carriageReturn ↔ line.getLast? = some '\r' := by
  rcases List.eq_nil_or_concat line with rfl | ⟨front, c, rfl⟩
  · simp
  have hreturn : carriageReturn ∈ String.utf8EncodeChar c ↔ c = '\r' :=
    Text.mem_utf8EncodeChar (a := '\r') (by decide)
  have hlast : (utf8 (front ++ [c])).getLast? = (String.utf8EncodeChar c).getLast? := by
    rw [Text.utf8_append, Text.utf8_cons, Text.utf8_nil, List.append_nil,
      List.getLast?_append_of_ne_nil _ String.utf8EncodeChar_ne_nil]
  rw [List.concat_eq_append, hlast, List.getLast?_concat, Option.some.injEq]
  constructor
  · intro h
    exact hreturn.1 (List.mem_of_getLast? h)
  · rintro rfl
    rfl

/-- Chopping the bytes of a line is dropping the carriage return from its text. -/
theorem chop_utf8 (line : List Char) : chop (utf8 line) = utf8 (Text.dropReturn line) := by
  unfold chop Text.dropReturn
  by_cases h : line.getLast? = some '\r'
  · rw [if_pos h, if_pos ((getLast?_utf8 line).2 h)]
    obtain ⟨front, rfl⟩ := List.getLast?_eq_some_iff.1 h
    have hone : String.utf8EncodeChar '\r' = [carriageReturn] := rfl
    simp [hone]
  · rw [if_neg h, if_neg fun hlast => h ((getLast?_utf8 line).1 hlast)]

/-! ## What lines say -/

/-- The result that a line of text gives: none if it is blank, else the call it decodes to or an
error. -/
def outcome? (line : List Char) : Option Received :=
  if line.all Text.isBlank then none
  else
    match Wire.serverFrame.decode (String.ofList line) with
    | .ok (.call r) => some (.call r)
    | .error e => some (.failed e)

/-- The results that the lines of a text give, in order. -/
def outcomes (ended : Bool) (cs : List Char) : List Received :=
  (Text.lines ended cs).filterMap outcome?

/-- The result that the bytes of a line give. -/
def answer? (line : List UInt8) : Option Received :=
  (frameOf line).map fun
    | .ok r => .call r
    | .error e => .failed e

theorem answer?_utf8 (line : List Char) : answer? (utf8 line) = outcome? line := by
  rw [answer?, frameOf, text?_utf8, outcome?, Wire.decode, String.toList_ofList]
  by_cases hblank : line.all Text.isBlank = true
  · simp only [hblank, if_true, Option.map_none]
  · simp only [hblank, Wire.read?]
    cases (Json.parse line).bind ServerFrame.ofJson? with
    | none => rfl
    | some frame =>
      cases frame with
      | call r => rfl

/-- The results that the lines in a run of bytes give, in order. -/
def said (ended : Bool) (bytes : List UInt8) : List Received :=
  match h : nextLine? ended bytes with
  | none => []
  | some (line, rest) =>
    have := length_lt_of_nextLine? h
    (answer? line).toList ++ said ended rest
termination_by bytes.length

section

variable {ended : Bool} {bytes line rest : List UInt8}

theorem said_none (h : nextLine? ended bytes = none) : said ended bytes = [] := by
  rw [said]
  split
  · rfl
  · rename_i hsome
    rw [h] at hsome
    cases hsome

theorem said_some (h : nextLine? ended bytes = some (line, rest)) :
    said ended bytes = (answer? line).toList ++ said ended rest := by
  rw [said]
  split
  · rename_i hnone
    rw [h] at hnone
    cases hnone
  · rename_i line' rest' hsome
    rw [h] at hsome
    obtain ⟨rfl, rfl⟩ := Prod.mk.inj (Option.some.inj hsome)
    rfl

theorem read_none (h : nextLine? ended bytes = none) :
    read ended bytes = (if ended then .closed else .pending, bytes) := by
  rw [read]
  split
  · rfl
  · rename_i hsome
    rw [h] at hsome
    cases hsome

theorem read_some (h : nextLine? ended bytes = some (line, rest)) :
    read ended bytes = (answer? line).elim (read ended rest) fun r => (r, rest) := by
  rw [read]
  split
  · rename_i hnone
    rw [h] at hnone
    cases hnone
  · rename_i line' rest' hsome
    rw [h] at hsome
    obtain ⟨rfl, rfl⟩ := Prod.mk.inj (Option.some.inj hsome)
    unfold answer?
    cases frameOf line with
    | none => rfl
    | some result =>
      cases result with
      | ok r => rfl
      | error e => rfl

end

/-- What the lines of a text say: the text of each is what its bytes are read as. The beginning of a
line that has not arrived yet as a whole says nothing. -/
theorem said_utf8 (ended : Bool) (cs : List Char) {more : List UInt8} (hmore : lineFeed ∉ more)
    (hend : ended = true → more = []) : said ended (utf8 cs ++ more) = outcomes ended cs := by
  induction cs using Text.lines_induction with
  | hlast line hline =>
    -- What stands behind the last line feed is a line once the bus has hung up, and not before.
    have hbytes : lineFeed ∉ utf8 line ++ more := by
      rw [List.mem_append, lineFeed_mem_utf8]
      exact fun hmem => hmem.elim hline hmore
    have hnext := nextLine?_of_not_mem ended hbytes
    rw [outcomes, Text.lines_of_not_mem ended hline]
    by_cases hlast : (ended && !line.isEmpty) = true
    · obtain ⟨hended, hne⟩ := Bool.and_eq_true_iff.1 hlast
      obtain rfl := hend hended
      have hne' : line ≠ [] := by simpa using hne
      have hfull : (ended && !(utf8 line ++ []).isEmpty) = true := by
        simp [hended, Text.utf8_eq_nil, hne']
      rw [if_pos hfull, List.append_nil] at hnext
      have hrest : said ended [] = [] := said_none (by simp [nextLine?, cut?])
      rw [if_pos hlast, List.append_nil, said_some hnext, answer?_utf8, hrest]
      cases hline : outcome? line <;> simp [hline]
    · have hpart : ¬(ended && !(utf8 line ++ more).isEmpty) = true := by
        intro hpart
        obtain ⟨hended, hne⟩ := Bool.and_eq_true_iff.1 hpart
        obtain rfl := hend hended
        apply hlast
        simpa [hended, Text.utf8_eq_nil] using hne
      rw [if_neg hpart] at hnext
      rw [if_neg hlast, said_none hnext]
      rfl
  | hline line cs hline ih =>
    have hbytes : utf8 (line ++ '\n' :: cs) ++ more =
        utf8 line ++ lineFeed :: (utf8 cs ++ more) := by
      have hone : String.utf8EncodeChar '\n' = [lineFeed] := rfl
      simp [hone]
    have hfree : lineFeed ∉ utf8 line := fun hmem => hline (lineFeed_mem_utf8.1 hmem)
    rw [hbytes, said_some (nextLine?_line ended hfree _), chop_utf8, answer?_utf8, ih, outcomes,
      outcomes, Text.lines_cons ended hline, List.filterMap_cons]
    cases outcome? (Text.dropReturn line) with
    | none => rfl
    | some r => rfl

/-! ## Reading -/

/-- What a result tells: nothing if there is no line to tell of. -/
def telling : Received → List Received
  | .pending | .closed => []
  | r => [r]

theorem telling_answer? {line : List UInt8} {r : Received} (h : answer? line = some r) :
    telling r = [r] := by
  unfold answer? at h
  obtain ⟨result, -, rfl⟩ := Option.map_eq_some_iff.1 h
  cases result with
  | ok r => rfl
  | error e => rfl

/-- Reading takes the first result off what is said, whatever arrives later. -/
theorem said_read {ended e : Bool} {bytes more : List UInt8}
    (hmore : ended = true → e = true ∧ more = []) :
    said e (bytes ++ more) =
      telling (read ended bytes).1 ++ said e ((read ended bytes).2 ++ more) := by
  cases hnext : nextLine? ended bytes with
  | none =>
    rw [read_none hnext]
    cases ended <;> rfl
  | some p =>
    obtain ⟨line, rest⟩ := p
    have hshort := length_lt_of_nextLine? hnext
    rw [said_some (nextLine?_append hnext hmore), read_some hnext]
    cases hanswer : answer? line with
    -- Reading goes on behind a blank line, which says nothing.
    | none => exact said_read hmore
    | some r =>
      show _ = telling r ++ said e (rest ++ more)
      rw [telling_answer? hanswer]
      rfl
termination_by bytes.length

/-- Where reading finds no line, nothing more is said. -/
theorem read_untold {ended : Bool} {bytes : List UInt8} (h : telling (read ended bytes).1 = []) :
    (read ended bytes).1 = (if ended then .closed else .pending) ∧
      said ended (read ended bytes).2 = [] := by
  cases hnext : nextLine? ended bytes with
  | none =>
    rw [read_none hnext]
    exact ⟨rfl, said_none hnext⟩
  | some p =>
    obtain ⟨line, rest⟩ := p
    have hshort := length_lt_of_nextLine? hnext
    rw [read_some hnext] at h ⊢
    cases hanswer : answer? line with
    | none =>
      rw [hanswer] at h
      exact read_untold h
    | some r =>
      rw [hanswer] at h
      have htold : telling r = [] := h
      rw [telling_answer? hanswer] at htold
      cases htold
termination_by bytes.length

/-! ## Runs of a stream -/

/-- What happens at a stream. -/
inductive Act where
  | arrive (bytes : List UInt8)
  | hangUp
  | receive
  | addObject (object : ObjectSpec)
  | reply (r : Reply)

/-- What is noted of it. -/
inductive Note where
  | arrived (bytes : List UInt8)
  | hungUp
  /-- What the client was given for asking. -/
  | received (r : Received)
  | registered (object : ObjectSpec)
  | replied (r : Reply)
  /-- A registration or a reply could not be written. -/
  | refused

def act (s : Stream) : Act → Stream
  | .arrive bytes => (s.arrive bytes).2
  | .hangUp => s.hangUp.2
  | .receive => s.receive.2
  | .addObject object => (s.addObject object).2
  | .reply r => (s.reply r).2

def notes (s : Stream) : Act → List Note
  | .arrive bytes => if s.ended then [] else [.arrived bytes]
  | .hangUp => [.hungUp]
  | .receive => [.received s.receive.1]
  | .addObject object =>
    match (s.addObject object).1 with
    | .ok _ => [.registered object]
    | .error _ => [.refused]
  | .reply r =>
    match (s.reply r).1 with
    | .ok _ => [.replied r]
    | .error _ => [.refused]

def observed : Observed Stream Act Note := ⟨act, notes⟩

/-! ### What a history says -/

/-- The bytes that arrived. -/
def arrived : List Note → List UInt8
  | [] => []
  | .arrived bytes :: h => arrived h ++ bytes
  | _ :: h => arrived h

/-- Whether the bus has hung up. -/
def hasHungUp : List Note → Bool
  | [] => false
  | .hungUp :: _ => true
  | _ :: h => hasHungUp h

/-- What the client was given, in order, not counting that there was nothing yet. -/
def results : List Note → List Received
  | [] => []
  | .received .pending :: h => results h
  | .received r :: h => results h ++ [r]
  | _ :: h => results h

/-- The frames that a note stands for: a registration is one frame, and a reply is its data, if it
has any, and then its status under the same number. -/
def Note.frames : Note → List ClientFrame
  | .registered object => [.addObject object]
  | .replied r => r.data.toList.map (.data r.id) ++ [.status r.id r.status]
  | _ => []

/-- The frames that were written, in order. -/
def sent : List Note → List ClientFrame
  | [] => []
  | n :: h => sent h ++ n.frames

/-- The text of a frame. -/
def frameText (f : ClientFrame) : List Char := (Wire.clientFrame.encode f).toList

/-! ### Writing -/

theorem frames_replied (r : Reply) : (Note.replied r).frames = ClientFrame.ofReply r := by
  show r.data.toList.map (ClientFrame.data r.id) ++ [.status r.id r.status] = _
  unfold ClientFrame.ofReply
  cases r.data with
  | none => rfl
  | some table => rfl

theorem lineOf_eq (f : ClientFrame) : lineOf f = frameText f ++ ['\n'] := by
  rw [frameText, Wire.toList_encode]
  rfl

/-- A frame is written without line ends, and begins with a brace. -/
theorem frameText_plain (f : ClientFrame) :
    '\n' ∉ frameText f ∧ '\r' ∉ frameText f ∧ (frameText f).all Text.isBlank = false := by
  have hprintable := Json.printable_render f.toJson
  have htext : frameText f = f.toJson.render := Wire.toList_encode Wire.clientFrame f
  have hopen : ∃ cs, f.toJson.render = '\x7b' :: cs := by
    cases f <;> exact ⟨_, rfl⟩
  obtain ⟨cs, hcs⟩ := hopen
  rw [htext]
  refine ⟨hprintable.not_mem (by decide), hprintable.not_mem (by decide), ?_⟩
  rw [hcs, List.all_cons]
  rfl

/-- What was written so far is one line for each frame. -/
structure Writing (s : Stream) (h : List Note) : Prop where
  outgoing : s.outgoing = (sent h).flatMap fun f => frameText f ++ ['\n']
  refused : .refused ∈ h → s.ended = true

/-- Writing frames fails and changes nothing, or appends their lines. -/
theorem send_cases (s : Stream) (frames : List ClientFrame) :
    (s.ended = true ∧ ∃ e, s.send frames = (.error e, s)) ∨
      (s.ended = false ∧ s.send frames = (.ok (), { s with
        outgoing := s.outgoing ++ frames.flatMap fun f => frameText f ++ ['\n'] })) := by
  have hlines : (fun f => frameText f ++ ['\n']) = lineOf := funext fun f => (lineOf_eq f).symm
  rw [hlines]
  cases hended : s.ended with
  | true => exact .inl ⟨rfl, _, by rw [send, if_pos hended]⟩
  | false =>
    refine .inr ⟨rfl, ?_⟩
    rw [send, if_neg (by simp [hended])]
    simp [hended]

theorem Writing.act {s : Stream} {h : List Note} (hw : Writing s h) (a : Act) :
    Writing (s.act a) (s.notes a ++ h) := by
  obtain ⟨hout, hrefused⟩ := hw
  cases a with
  | arrive bytes =>
    cases hended : s.ended with
    | true => simpa [Stream.act, arrive, notes, hended] using ⟨hout, hrefused⟩
    | false =>
      refine ⟨?_, ?_⟩
      · simpa [Stream.act, arrive, notes, hended, sent, Note.frames] using hout
      · simpa [Stream.act, arrive, notes, hended] using hrefused
  | hangUp =>
    refine ⟨?_, fun _ => rfl⟩
    simpa [Stream.act, hangUp, notes, sent, Note.frames] using hout
  | receive =>
    refine ⟨?_, ?_⟩
    · simpa [Stream.act, receive, notes, sent, Note.frames] using hout
    · simpa [Stream.act, receive, notes] using hrefused
  | addObject object =>
    rcases s.send_cases [.addObject object] with ⟨hended, e, hsend⟩ | ⟨hended, hsend⟩
    · refine ⟨?_, fun _ => ?_⟩
      · simpa [Stream.act, addObject, notes, hsend, sent, Note.frames] using hout
      · simpa [Stream.act, addObject, hsend] using hended
    · refine ⟨?_, ?_⟩
      · simp [Stream.act, addObject, notes, hsend, sent, Note.frames, hout]
      · simpa [Stream.act, addObject, notes, hsend] using hrefused
  | reply r =>
    rcases s.send_cases (ClientFrame.ofReply r) with ⟨hended, e, hsend⟩ | ⟨hended, hsend⟩
    · refine ⟨?_, fun _ => ?_⟩
      · simpa [Stream.act, reply, notes, hsend, sent, Note.frames] using hout
      · simpa [Stream.act, reply, hsend] using hended
    · refine ⟨?_, ?_⟩
      · simp [Stream.act, reply, notes, hsend, sent, frames_replied, hout]
      · simpa [Stream.act, reply, notes, hsend] using hrefused

/-! ### Being told -/

/-- What the client was given so far, together with what it will be given for the bytes it has not
read, is what the arrived bytes say, whatever arrives later; and it is told to wait only when it was
given everything. -/
structure Reading (s : Stream) (h : List Note) : Prop where
  ended : s.ended = hasHungUp h
  told : ∃ (past : List Received) (times : Nat),
    results h = past ++ List.replicate times .closed ∧
    (0 < times → s.ended = true ∧ said true s.incoming = []) ∧
    ∀ e more, (s.ended = true → e = true ∧ more = []) →
      said e (arrived h ++ more) = past ++ said e (s.incoming ++ more)
  waits : ∀ past, (.received .pending :: past) <:+ h →
    hasHungUp past = false ∧ results past = said false (arrived past)

/-- A note of something else than a wait adds no wait to the history. -/
theorem waits_cons {h : List Note} {n : Note} {P : List Note → Prop}
    (hwaits : ∀ past, (.received .pending :: past) <:+ h → P past) (hn : n ≠ .received .pending) :
    ∀ past, (.received .pending :: past) <:+ n :: h → P past := by
  intro past hpast
  rcases List.suffix_cons_iff.1 hpast with heq | hsuffix
  · exact absurd (List.cons.inj heq).1.symm hn
  · exact hwaits past hsuffix

/-- Writing is not noticed by the reader. -/
theorem Reading.write {s s' : Stream} {h : List Note} {n : Note} (hr : Reading s h)
    (hs : s'.incoming = s.incoming ∧ s'.ended = s.ended)
    (hn : n = .refused ∨ (∃ object, n = .registered object) ∨ ∃ r, n = .replied r) :
    Reading s' (n :: h) := by
  have hsilent : arrived (n :: h) = arrived h ∧ hasHungUp (n :: h) = hasHungUp h ∧
      results (n :: h) = results h ∧ n ≠ .received .pending := by
    rcases hn with rfl | ⟨object, rfl⟩ | ⟨r, rfl⟩
    · exact ⟨rfl, rfl, rfl, nofun⟩
    · exact ⟨rfl, rfl, rfl, nofun⟩
    · exact ⟨rfl, rfl, rfl, nofun⟩
  obtain ⟨harrived, hhung, hresults, hwait⟩ := hsilent
  constructor
  · rw [hs.2, hhung]
    exact hr.ended
  · rw [hs.1, hs.2, harrived, hresults]
    exact hr.told
  · exact waits_cons hr.waits hwait

theorem send_reader (s : Stream) (frames : List ClientFrame) :
    (s.send frames).2.incoming = s.incoming ∧ (s.send frames).2.ended = s.ended := by
  rcases s.send_cases frames with ⟨-, e, hsend⟩ | ⟨-, hsend⟩
  · rw [hsend]
    exact ⟨rfl, rfl⟩
  · rw [hsend]
    exact ⟨rfl, rfl⟩

theorem Reading.arrive {s : Stream} {h : List Note} (hr : Reading s h) (bytes : List UInt8) :
    Reading (s.act (.arrive bytes)) (s.notes (.arrive bytes) ++ h) := by
  by_cases hended : s.ended = true
  · simpa [act, Stream.arrive, notes, hended] using hr
  · have hopen : s.ended = false := by simpa using hended
    obtain ⟨past, times, hresults, htimes, hsaid⟩ := hr.told
    have hact : s.act (.arrive bytes) = { s with incoming := s.incoming ++ bytes } := by
      simp [act, Stream.arrive, hopen]
    have hnotes : s.notes (.arrive bytes) ++ h = .arrived bytes :: h := by simp [notes, hopen]
    rw [hact, hnotes]
    refine ⟨hr.ended, ⟨past, times, hresults, ?_, ?_⟩, waits_cons hr.waits nofun⟩
    · intro hpos
      exact absurd (htimes hpos).1 hended
    · intro e more hmore
      have hlater := hsaid e (bytes ++ more) fun h => absurd h hended
      simpa [arrived] using hlater

theorem Reading.hangUp {s : Stream} {h : List Note} (hr : Reading s h) :
    Reading (s.act .hangUp) (s.notes .hangUp ++ h) := by
  obtain ⟨past, times, hresults, htimes, hsaid⟩ := hr.told
  refine ⟨rfl, ⟨past, times, hresults, ?_, ?_⟩, waits_cons hr.waits nofun⟩
  · intro hpos
    exact ⟨rfl, (htimes hpos).2⟩
  · intro e more hmore
    obtain ⟨rfl, rfl⟩ := hmore rfl
    exact hsaid true [] fun _ => ⟨rfl, rfl⟩

/-- A result tells of a line, and then there was no reason to wait, or it tells of none. -/
theorem telling_cases (r : Received) : (telling r = [r] ∧ r ≠ .pending) ∨ telling r = [] := by
  cases r with
  | call r => exact .inl ⟨rfl, nofun⟩
  | failed e => exact .inl ⟨rfl, nofun⟩
  | pending => exact .inr rfl
  | closed => exact .inr rfl

section

variable {s : Stream} {h : List Note} {r : Received} {rest : List UInt8}

/-- What was read is off what is said, whatever arrives later. -/
theorem said_of_read (hread : read s.ended s.incoming = (r, rest)) (e : Bool) (more : List UInt8)
    (hmore : s.ended = true → e = true ∧ more = []) :
    said e (s.incoming ++ more) = telling r ++ said e (rest ++ more) := by
  have hstep : said e (s.incoming ++ more) = telling (read s.ended s.incoming).1 ++
      said e ((read s.ended s.incoming).2 ++ more) := said_read hmore
  rwa [hread] at hstep

/-- A result was said, so the client was not told of the end before. -/
theorem Reading.receive_result (hr : Reading s h) (hread : read s.ended s.incoming = (r, rest))
    (htell : telling r = [r]) (hpending : r ≠ .pending) :
    Reading { s with incoming := rest } (.received r :: h) := by
  obtain ⟨past, times, hresults, htimes, hsaid⟩ := hr.told
  have hzero : times = 0 := by
    by_contra hne
    obtain ⟨hended, hsilent⟩ := htimes (Nat.pos_of_ne_zero hne)
    have hstep := said_of_read hread true [] fun _ => ⟨rfl, rfl⟩
    rw [List.append_nil, hsilent, htell] at hstep
    cases hstep
  subst hzero
  refine ⟨hr.ended, ⟨past ++ [r], 0, ?_, ?_, ?_⟩, waits_cons hr.waits ?_⟩
  · have hplain : results (.received r :: h) = results h ++ [r] := by
      cases r <;> first | rfl | exact absurd rfl hpending
    rw [hplain, hresults]
    simp
  · intro hpos
    exact absurd hpos (Nat.lt_irrefl 0)
  · intro e more hmore
    have hstep := said_of_read hread e more hmore
    rw [htell] at hstep
    show said e (arrived h ++ more) = past ++ [r] ++ said e (rest ++ more)
    rw [hsaid e more hmore, hstep, List.append_assoc]
  · rintro ⟨⟩
    exact hpending rfl

/-- Where nothing is said the client is told that there is no more, or to wait. -/
theorem Reading.receive_nothing (hr : Reading s h) (hread : read s.ended s.incoming = (r, rest))
    (htell : telling r = []) : Reading { s with incoming := rest } (.received r :: h) := by
  obtain ⟨past, times, hresults, htimes, hsaid⟩ := hr.told
  have hquiet : telling (read s.ended s.incoming).1 = [] := by rw [hread]; exact htell
  have huntold := read_untold hquiet
  rw [hread] at huntold
  obtain ⟨hresult, hsilent⟩ := huntold
  have hsame : ∀ e more, (s.ended = true → e = true ∧ more = []) →
      said e (arrived h ++ more) = past ++ said e (rest ++ more) := by
    intro e more hmore
    have hstep := said_of_read hread e more hmore
    rw [htell, List.nil_append] at hstep
    rw [hsaid e more hmore, hstep]
  by_cases hended : s.ended = true
  · rw [if_pos hended] at hresult
    rw [hended] at hsilent
    subst hresult
    refine ⟨hr.ended, ⟨past, times + 1, ?_, ?_, hsame⟩, waits_cons hr.waits nofun⟩
    · show results h ++ [.closed] = _
      rw [hresults, List.replicate_succ', List.append_assoc]
    · exact fun _ => ⟨hended, hsilent⟩
  · have hopen : s.ended = false := by simpa using hended
    rw [if_neg hended] at hresult
    rw [hopen] at hsilent
    subst hresult
    have hzero : times = 0 := by
      by_contra hne
      exact hended (htimes (Nat.pos_of_ne_zero hne)).1
    subst hzero
    refine ⟨hr.ended, ⟨past, 0, hresults, ?_, hsame⟩, ?_⟩
    · intro hpos
      exact absurd hpos (Nat.lt_irrefl 0)
    · -- This wait is the only new one: all that was said by now has been told.
      intro earlier hearlier
      rcases List.suffix_cons_iff.1 hearlier with heq | hsuffix
      · obtain rfl := (List.cons.inj heq).2
        have hall := hsame false [] fun h => absurd h hended
        rw [List.append_nil, List.append_nil, hsilent, List.append_nil] at hall
        refine ⟨?_, ?_⟩
        · rw [← hr.ended, hopen]
        · rw [hall, hresults, List.replicate_zero, List.append_nil]
      · exact hr.waits earlier hsuffix

end

theorem Reading.receive {s : Stream} {h : List Note} (hr : Reading s h) :
    Reading (s.act .receive) (s.notes .receive ++ h) := by
  obtain ⟨r, rest, hread⟩ : ∃ r rest, read s.ended s.incoming = (r, rest) := ⟨_, _, rfl⟩
  have hact : s.act .receive = { s with incoming := rest } := by
    simp [act, Stream.receive, hread]
  have hnotes : s.notes .receive ++ h = .received r :: h := by
    simp [notes, Stream.receive, hread]
  rw [hact, hnotes]
  rcases telling_cases r with ⟨htell, hpending⟩ | htell
  · exact hr.receive_result hread htell hpending
  · exact hr.receive_nothing hread htell

theorem Reading.act {s : Stream} {h : List Note} (hr : Reading s h) (a : Act) :
    Reading (s.act a) (s.notes a ++ h) := by
  cases a with
  | arrive bytes => exact hr.arrive bytes
  | hangUp => exact hr.hangUp
  | receive => exact hr.receive
  | addObject object =>
    have hsame := s.send_reader [.addObject object]
    show Reading (s.addObject object).2 ((match (s.addObject object).1 with
      | .ok _ => [.registered object]
      | .error _ => [.refused]) ++ h)
    cases (s.addObject object).1 with
    | ok _ => exact hr.write hsame (.inr (.inl ⟨object, rfl⟩))
    | error e => exact hr.write hsame (.inl rfl)
  | reply r =>
    have hsame := s.send_reader (ClientFrame.ofReply r)
    show Reading (s.reply r).2 ((match (s.reply r).1 with
      | .ok _ => [.replied r]
      | .error _ => [.refused]) ++ h)
    cases (s.reply r).1 with
    | ok _ => exact hr.write hsame (.inr (.inr ⟨r, rfl⟩))
    | error e => exact hr.write hsame (.inl rfl)

/-! ## The conversation -/

/-- What is so after any run, `s` being the stream and `h` the history. -/
structure Conversation (s : Stream) (h : List Note) : Prop where
  /-- The bytes written are the texts of the frames, a line feed behind each. -/
  written : utf8 s.outgoing = (sent h).flatMap fun f => utf8 (frameText f) ++ [lineFeed]
  /-- Read as lines, they are the texts of the frames. -/
  lines : Text.lines true s.outgoing = (sent h).map frameText
  /-- The text of a frame has no line end in it and is not blank. -/
  plain : ∀ f ∈ sent h,
    '\n' ∉ frameText f ∧ '\r' ∉ frameText f ∧ (frameText f).all Text.isBlank = false
  /-- Only after the bus has hung up can a frame not be written. -/
  refused : .refused ∈ h → hasHungUp h = true
  /-- If what has arrived is a text, perhaps with the beginning of one more line, the client was
  given what the lines say, in order, as far as it asked, and after the last line that there are no
  more. -/
  answered : ∀ cs more, arrived h = utf8 cs ++ more → lineFeed ∉ more →
    (hasHungUp h = true → more = []) →
    results h = (outcomes (hasHungUp h) cs ++
      if hasHungUp h then List.replicate (results h).length Received.closed else []).take (results h).length
  /-- The client is told to wait only while the bus may go on and every whole line was told of. -/
  prompt : ∀ past, (.received .pending :: past) <:+ h → hasHungUp past = false ∧
    ∀ cs more, arrived past = utf8 cs ++ more → lineFeed ∉ more → results past = outcomes false cs

theorem Writing.written {s : Stream} {h : List Note} (hw : Writing s h) :
    utf8 s.outgoing = (sent h).flatMap fun f => utf8 (frameText f) ++ [lineFeed] := by
  have hone : utf8 ['\n'] = [lineFeed] := rfl
  simp only [hw.outgoing, Text.utf8_flatMap, Text.utf8_append, hone]

theorem Writing.lines {s : Stream} {h : List Note} (hw : Writing s h) :
    Text.lines true s.outgoing = (sent h).map frameText := by
  rw [hw.outgoing]
  apply Text.lines_flatMap
  intro f _
  exact ⟨(frameText_plain f).1, (frameText_plain f).2.1⟩

theorem Reading.answered {s : Stream} {h : List Note} (hr : Reading s h) {cs : List Char}
    {more : List UInt8} (harrived : arrived h = utf8 cs ++ more) (hmore : lineFeed ∉ more)
    (hend : hasHungUp h = true → more = []) :
    results h = (outcomes (hasHungUp h) cs ++
      if hasHungUp h then List.replicate (results h).length Received.closed else []).take
        (results h).length := by
  obtain ⟨past, times, hresults, htimes, hsaid⟩ := hr.told
  rw [hr.ended] at htimes hsaid
  have hall := hsaid (hasHungUp h) [] fun hhung => ⟨hhung, rfl⟩
  rw [List.append_nil, List.append_nil, harrived, said_utf8 _ cs hmore hend] at hall
  rw [hall, hresults]
  by_cases hzero : times = 0
  · subst hzero
    simp
  · obtain ⟨hhung, hsilent⟩ := htimes (Nat.pos_of_ne_zero hzero)
    rw [hhung, hsilent, if_pos rfl, List.append_nil, List.take_append]
    simp [List.take_of_length_le]

/-- A stream carries one line for each frame written to it, and gives one result for each line that
arrived and is not blank, in order, and then that the bus has hung up: in every run of arrivals,
calls received, registrations and replies. -/
theorem conversation (acts : List Act) :
    Conversation (observed.run {} acts).1 (observed.run {} acts).2 := by
  have hwriting : Writing (observed.run {} acts).1 (observed.run {} acts).2 := by
    refine observed.run_invariant ⟨rfl, nofun⟩ ?_ acts
    exact fun s h a hw => hw.act a
  have hreading : Reading (observed.run {} acts).1 (observed.run {} acts).2 := by
    have hstart : Reading {} [] := by
      refine ⟨rfl, ⟨[], 0, rfl, ?_, ?_⟩, ?_⟩
      · exact fun hpos => absurd hpos (Nat.lt_irrefl 0)
      · exact fun e more _ => rfl
      · exact fun past hpast => absurd (List.suffix_nil.1 hpast) (List.cons_ne_nil _ _)
    refine observed.run_invariant hstart ?_ acts
    exact fun s h a hr => hr.act a
  refine ⟨hwriting.written, hwriting.lines, fun f _ => frameText_plain f, ?_, ?_, ?_⟩
  · intro hrefused
    rw [← hreading.ended]
    exact hwriting.refused hrefused
  · exact fun cs more => hreading.answered
  · intro past hpast
    obtain ⟨hhung, hresults⟩ := hreading.waits past hpast
    refine ⟨hhung, fun cs more harrived hmore => ?_⟩
    rw [hresults, harrived]
    exact said_utf8 false cs hmore nofun

end Stream
end ScriptService
