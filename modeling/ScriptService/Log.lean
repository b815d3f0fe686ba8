import ScriptService.Declaration
import ScriptService.World.Basic

/-!
# Script logs

Records of a script go to the channels that it declared, under the identity it declared, and
nowhere while no declaration is in force. The kernel log gets a record first, then the system log,
then the standard error stream. What goes into the kernel log is not put together first: each part
of a line is written by itself.
-/

namespace ScriptService

/-- How serious a record is. -/
inductive Severity where
  | info
  | notice
  | warning
  | error
  deriving DecidableEq, Inhabited

namespace Severity

/-- The priority of a severity in the system log. -/
def priority : Severity → Nat
  | info => 6
  | notice => 5
  | warning => 4
  | error => 3

/-- The function by which scripts write records of a severity. -/
def function : Severity → String
  | info => "ulog_info"
  | notice => "ulog_note"
  | warning => "ulog_warn"
  | error => "ulog_err"

def all : List Severity := [info, notice, warning, error]

/-- The severity whose records a function writes. -/
def ofFunction? (name : String) : Option Severity := all.find? fun s => s.function == name

end Severity

/-- The channels that records can go to. -/
structure Channels where
  kmsg : Bool := false
  syslog : Bool := false
  stdio : Bool := false
  deriving DecidableEq, Inhabited

namespace Channels

/-- The channels of a list of names; names that are no channel say nothing. -/
def ofNames (names : List String) : Channels where
  kmsg := names.contains "kmsg"
  syslog := names.contains "syslog"
  stdio := names.contains "stdio"

def isEmpty (c : Channels) : Bool := !(c.kmsg || c.syslog || c.stdio)

end Channels

/-- What a script declares about its log. -/
structure LogDeclaration where
  identity : String
  channels : Channels
  deriving DecidableEq, Inhabited

/-- The name of the declaration. -/
def LogDeclaration.global : String := "ulog"

/-- Reads a declaration; items of the channel list that are no strings say nothing. -/
def LogDeclaration.ofValue? (v : Value) : Except DeclarationError LogDeclaration := do
  let fields ← Declaration.fields global v
  let identity ← Declaration.field global fields "identity" "a string" Value.string?
  let names ← Declaration.field global fields "channels" "an array of strings" Value.array?
  return ⟨identity, .ofNames (names.filterMap Value.string?)⟩

/-- A log: closed, or open on channels under an identity. -/
structure Logger where
  identity : Option String := none
  channels : Channels := {}
  deriving DecidableEq, Inhabited

namespace Logger

/-- The log in which records are lost. -/
def closed : Logger := {}

def isOpen (l : Logger) : Bool := l.identity.isSome

/-- The text without NUL characters, which the system log cannot take. -/
def withoutNul (text : String) : String := String.ofList (text.toList.filter (· != '\x00'))

/-- Opens the channels of a declaration; a kernel log that cannot be opened is left out. -/
def openOn (w : World) (d : LogDeclaration) : Logger × World :=
  let identity := withoutNul d.identity
  let (kmsg, w) :=
    if d.channels.kmsg && !w.kernelLog then
      (false, w.warn "Cannot open kernel log" [("error", SystemError.noEntry.fileMessage)])
    else (d.channels.kmsg, w)
  let w := if d.channels.syslog then w.note (.openLog identity) else w
  (⟨some identity, { d.channels with kmsg }⟩, w)

/-- Writes a record to every open channel. -/
def emit (l : Logger) (w : World) (severity : Severity) (text : String) : World :=
  match l.identity with
  | none => w
  | some identity =>
    let w :=
      if l.channels.kmsg then
        w.writeKernelLog ["<", toString severity.priority, ">", identity, ": ", text, "\n"]
      else w
    let w :=
      if l.channels.syslog then w.note (.sysLog severity.priority (withoutNul text)) else w
    if l.channels.stdio then w.writeError (identity ++ ": " ++ text ++ "\n") else w

/-- Closes every channel. -/
def close (l : Logger) (w : World) : Logger × World :=
  (closed, if l.isOpen && l.channels.syslog then w.note .closeLog else w)

/-- Opens a log in place of another one, which is closed afterwards. -/
def replace (l : Logger) (w : World) (d : LogDeclaration) : Logger × World :=
  -- The new log is open before the old one is closed.
  let (new, w) := openOn w d
  (new, (l.close w).2)

end Logger
end ScriptService
