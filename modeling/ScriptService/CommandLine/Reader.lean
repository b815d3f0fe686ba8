import ScriptService.CommandLine.Basic

/-!
# Reading command lines

Words are read from left to right. Options are recognised up to the first argument of the script:
that word and all after it are the script's own, whatever they look like. A word `--` makes every
word after it plain. Between the script's file and its first argument a word with hyphens is an
option if there is one of that name, and otherwise an argument.

A value is taken over only when the word after it is read, so of two errors in a command line the
one about an unknown word comes first.
-/

namespace ScriptService.CommandLine

/-- A word that is not taken over yet. -/
inductive Pending where
  | script (path : String)
  /-- An option that takes a value, and the value once it is read. -/
  | option (s : Switch) (value : Option String)
  deriving DecidableEq, Inhabited

/-- What has been read of a command line. -/
structure Reading where
  script : Option String := none
  args : List String := []
  busSocket : Option String := none
  reconnectInterval : Option Nat := none
  keepsChildren : Bool := false
  verbose : Bool := false
  pending : Option Pending := none
  /-- Whether options are no longer recognised. -/
  plain : Bool := false
  deriving DecidableEq, Inhabited

namespace Reading

/-- The result of reading: what has been read, or why no script is run. -/
abbrev Result := Except Refusal Reading

def wrong (e : UsageError) : Result := .error (.wrong e)

/-- Whether the script's file has been read. -/
def hasScript (r : Reading) : Bool :=
  match r.script, r.pending with
  | some _, _ => true
  | none, some (.script _) => true
  | none, _ => false

/-! ## Taking over -/

def setBusSocket (r : Reading) (value : String) : Result :=
  if value.isEmpty then wrong (.missingValue Switch.busSocket.display)
  else .ok { r with busSocket := some value }

def setReconnectInterval (r : Reading) (value : String) : Result :=
  match Word.read value.toList with
  | .ok n => .ok { r with reconnectInterval := some n }
  | .error e => wrong (.invalidValue .reconnectInterval value e)

/-- Takes over an option with its value, which a command line gives once. -/
def setValue (r : Reading) (s : Switch) (value : String) : Result :=
  match s with
  | .busSocket => if r.busSocket.isSome then wrong (.repeated s) else r.setBusSocket value
  | .reconnectInterval =>
    if r.reconnectInterval.isSome then wrong (.repeated s) else r.setReconnectInterval value
  | _ => .ok r

/-- Takes over the word that is pending. -/
def complete (r : Reading) : Result :=
  let rest := { r with pending := none }
  match r.pending with
  | none => .ok r
  | some (.script path) =>
    if path.isEmpty then wrong (.missingValue scriptName)
    else .ok { rest with script := some path }
  | some (.option s none) => wrong (.missingValue s.display)
  | some (.option s (some value)) => rest.setValue s value

/-- Takes over an option without a value, which a command line gives once. -/
def setFlag (r : Reading) (s : Switch) : Result := do
  let r ← r.complete
  match s with
  | .keepChildren =>
    if r.keepsChildren then wrong (.repeated s) else return { r with keepsChildren := true }
  | .verbose => if r.verbose then wrong (.repeated s) else return { r with verbose := true }
  | .help => throw .help
  | .version => throw .version
  | _ => return r

/-! ## Words -/

/-- Reads a word that is no option: the script's file, or else an argument of the script, after
which options are no longer recognised. -/
def addWord (r : Reading) (word : String) : Result := do
  -- The word that was pending may be the script's file; that counts as read, too.
  let taken ← r.complete
  if r.hasScript then return { taken with args := taken.args ++ [word], plain := true }
  else return { taken with pending := some (.script word) }

/-- Reads a word that is no option, where it may be the value of the option before it. -/
def addValue (r : Reading) (word : String) : Result :=
  match r.pending with
  | some (.option s none) => .ok { r with pending := some (.option s (some word)) }
  | _ => r.addWord word

/-- Reads a word that names an option, perhaps with a value. -/
def addNamed (r : Reading) (word name : String) (value : Option String) : Result :=
  match Switch.ofName? name, value with
  | some s, some value =>
    if s.takesValue then do (← r.complete).setValue s value else wrong (.unexpectedValue s value)
  | some s, none =>
    if s.takesValue then do return { ← r.complete with pending := some (.option s none) }
    else r.setFlag s
  | none, _ => if r.hasScript then r.addValue word else wrong (.unexpectedArgument ("--" ++ name))

/-- Reads letters, each of which is an option. -/
def addLetters (r : Reading) : List Char → Result
  | [] => .ok r
  | c :: rest =>
    match Switch.ofLetter? c with
    | some s => do (← r.setFlag s).addLetters rest
    | none => wrong (.unexpectedArgument ("-" ++ String.ofList [c]))

/-- Splits a text at the first equals sign. -/
def splitValue (cs : List Char) : String × Option String :=
  let name := String.ofList (cs.takeWhile (· != '='))
  match cs.dropWhile (· != '=') with
  | _ :: value => (name, some (String.ofList value))
  | [] => (name, none)

/-- Reads a word. -/
def step (r : Reading) (word : String) : Result :=
  if r.plain then r.addWord word
  else
    match word.toList with
    | ['-', '-'] => .ok { r with plain := true }
    | '-' :: '-' :: cs =>
      let (name, value) := splitValue cs
      r.addNamed word name value
    | '-' :: c :: cs =>
      -- Behind the script's file, letters are options only if all of them are.
      if r.hasScript && (c :: cs).any fun c => (Switch.ofLetter? c).isNone then r.addValue word
      else r.addLetters (c :: cs)
    | _ => r.addValue word

/-! ## Command lines -/

/-- Takes from the environment what was not given. -/
def addEnvironment (env : Environment) (r : Reading) : Result := do
  let r ←
    match r.busSocket, env.busSocket with
    | none, some value => r.setBusSocket value
    | _, _ => .ok r
  match r.reconnectInterval, env.reconnectInterval with
  | none, some value => r.setReconnectInterval value
  | _, _ => .ok r

end Reading

/-- Reads a command line. -/
def read (env : Environment) (words : List String) : Except Refusal CommandLine := do
  let r ← words.foldlM Reading.step {}
  let r ← r.complete
  let r ← r.addEnvironment env
  match r.script with
  | none => throw (.wrong .missingScript)
  | some script =>
    return {
      script
      args := r.args
      busSocket := r.busSocket.getD defaultBusSocket
      reconnectInterval := r.reconnectInterval.getD defaultReconnectInterval
      keepsChildren := r.keepsChildren
      verbose := r.verbose }

end ScriptService.CommandLine
