import ScriptService.Number.Word

/-!
# Command lines

What a command line says: the settings of the host, the script's file, and the arguments that are
the script's own. Beside it stand the options by which settings are given, and what can be wrong
with a command line.
-/

namespace ScriptService

/-- An option. -/
inductive Switch where
  | busSocket
  | reconnectInterval
  | keepChildren
  | verbose
  | help
  | version
  deriving DecidableEq, Inhabited

namespace Switch

def all : List Switch := [busSocket, reconnectInterval, keepChildren, verbose, help, version]

/-- The name that follows two hyphens. -/
def name : Switch → String
  | busSocket => "bus-socket"
  | reconnectInterval => "reconnect-interval"
  | keepChildren => "keep-children"
  | verbose => "verbose"
  | help => "help"
  | version => "version"

/-- The letter that follows one hyphen. -/
def letter? : Switch → Option Char
  | verbose => some 'v'
  | help => some 'h'
  | version => some 'V'
  | _ => none

/-- The name of the value that the option takes. -/
def valueName? : Switch → Option String
  | busSocket => some "BUS_SOCKET"
  | reconnectInterval => some "RECONNECT_INTERVAL"
  | _ => none

def takesValue (s : Switch) : Bool := s.valueName?.isSome

/-- The option in messages. -/
def display (s : Switch) : String :=
  match s.valueName? with
  | some v => "--" ++ s.name ++ " <" ++ v ++ ">"
  | none => "--" ++ s.name

def ofName? (name : String) : Option Switch := all.find? fun s => s.name == name

def ofLetter? (c : Char) : Option Switch := all.find? fun s => s.letter? == some c

end Switch

/-- What is wrong with a command line. -/
inductive UsageError where
  | missingScript
  | unexpectedArgument (word : String)
  /-- An option or the script's file was given without its value. -/
  | missingValue (owner : String)
  | invalidValue (s : Switch) (value : String) (reason : NumeralError)
  | repeated (s : Switch)
  /-- A value was given to an option that takes none. -/
  | unexpectedValue (s : Switch) (value : String)
  deriving DecidableEq, Inhabited

/-- What is said of a wrong command line. -/
def UsageError.message : UsageError → String
  | missingScript => "the following required arguments were not provided:"
  | unexpectedArgument word => "unexpected argument '" ++ word ++ "' found"
  | missingValue owner => "a value is required for '" ++ owner ++ "' but none was supplied"
  | invalidValue s value reason =>
    "invalid value '" ++ value ++ "' for '" ++ s.display ++ "': " ++ reason.message
  | repeated s => "the argument '" ++ s.display ++ "' cannot be used multiple times"
  | unexpectedValue s value =>
    "unexpected value '" ++ value ++ "' for '" ++ s.display ++ "' found; no more were expected"

/-- A command line that runs a script. -/
structure CommandLine where
  script : String
  /-- The arguments of the script. -/
  args : List String := []
  busSocket : String
  /-- How long to wait before connecting to the bus again, in milliseconds. -/
  reconnectInterval : Nat
  keepsChildren : Bool := false
  verbose : Bool := false
  deriving DecidableEq, Inhabited

namespace CommandLine

/-- Why a command line runs no script. -/
inductive Refusal where
  | help
  | version
  | wrong (e : UsageError)
  deriving DecidableEq, Inhabited

/-- What the environment says in place of options that are not given. -/
structure Environment where
  busSocket : Option String := none
  reconnectInterval : Option String := none
  deriving DecidableEq, Inhabited

/-- The environment variable for the bus socket. -/
def busSocketVariable : String := "UCRUN_BUS_SOCKET"

/-- The environment variable for the reconnect interval. -/
def reconnectIntervalVariable : String := "UCRUN_RECONNECT_MS"

def defaultBusSocket : String := "/var/run/ubus/ubus.sock"

def defaultReconnectInterval : Nat := 1000

/-- The script's file in messages. -/
def scriptName : String := "<SCRIPT>"

/-- The answer to a request for the version. -/
def versionText : String := "ucrun 0.1.0\n"

/-- The answer to a request for help. -/
def helpText : String :=
  "Run a service script with timers, child processes, bus methods and logging\n\n" ++
  "Usage: ucrun [OPTIONS] <SCRIPT> [ARGS]...\n\n" ++
  "Arguments:\n" ++
  "  <SCRIPT>   Script file to run\n" ++
  "  [ARGS]...  Arguments passed to the script as ARGV\n\n" ++
  "Options:\n" ++
  "      --bus-socket <BUS_SOCKET>\n" ++
  "          Bus daemon socket [env: UCRUN_BUS_SOCKET=] [default: /var/run/ubus/ubus.sock]\n" ++
  "      --reconnect-interval <RECONNECT_INTERVAL>\n" ++
  "          Delay between bus reconnect attempts, in milliseconds [env: UCRUN_RECONNECT_MS=] " ++
  "[default: 1000]\n" ++
  "      --keep-children\n" ++
  "          Leave children running when the host exits\n" ++
  "  -v, --verbose\n" ++
  "          Enable verbose logging\n" ++
  "  -h, --help\n" ++
  "          Print help\n" ++
  "  -V, --version\n" ++
  "          Print version\n"

end CommandLine
end ScriptService
