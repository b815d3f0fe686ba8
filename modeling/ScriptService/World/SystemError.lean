/-!
# Errors of the system

Why a call into the operating system failed: the symbol, the number and the words for each cause.
Calls on processes report the symbol, calls on files the number.
-/

namespace ScriptService

/-- Why a call into the system failed. -/
inductive SystemError where
  | noEntry
  | noProcess
  | interrupted
  | noChild
  | tryAgain
  | permissionDenied
  | isDirectory
  | invalidArgument
  | brokenPipe
  | tooManyLinks
  deriving DecidableEq, Inhabited

namespace SystemError

def all : List SystemError :=
  [noEntry, noProcess, interrupted, noChild, tryAgain, permissionDenied, isDirectory,
    invalidArgument, brokenPipe, tooManyLinks]

/-- The symbol that stands for an error. -/
def symbol : SystemError → String
  | noEntry => "ENOENT"
  | noProcess => "ESRCH"
  | interrupted => "EINTR"
  | noChild => "ECHILD"
  | tryAgain => "EAGAIN"
  | permissionDenied => "EACCES"
  | isDirectory => "EISDIR"
  | invalidArgument => "EINVAL"
  | brokenPipe => "EPIPE"
  | tooManyLinks => "ELOOP"

/-- The number of an error. -/
def number : SystemError → Nat
  | noEntry => 2
  | noProcess => 3
  | interrupted => 4
  | noChild => 10
  | tryAgain => 11
  | permissionDenied => 13
  | isDirectory => 21
  | invalidArgument => 22
  | brokenPipe => 32
  | tooManyLinks => 40

/-- The error in words. -/
def words : SystemError → String
  | noEntry => "No such file or directory"
  | noProcess => "No such process"
  | interrupted => "Interrupted system call"
  | noChild => "No child processes"
  | tryAgain => "Try again"
  | permissionDenied => "Permission denied"
  | isDirectory => "Is a directory"
  | invalidArgument => "Invalid argument"
  | brokenPipe => "Broken pipe"
  | tooManyLinks => "Too many levels of symbolic links"

/-- The error of a call on processes. -/
def message (e : SystemError) : String := e.symbol ++ ": " ++ e.words

/-- The error of a call on files and sockets. -/
def fileMessage (e : SystemError) : String :=
  e.words ++ " (os error " ++ toString e.number ++ ")"

def ofNumber? (n : Nat) : Option SystemError := all.find? fun e => e.number == n

end SystemError
end ScriptService
