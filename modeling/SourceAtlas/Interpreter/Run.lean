import SourceAtlas.Interpreter.Dump
import SourceAtlas.Json.Reader
import SourceAtlas.Text.Blank

/-!
A run of the Python interpreter over one file.

* `Ending`: how a process ends.
* `Outcome`: what a run does.
* `Fault`: why a run gives no units, and how it is worded.
* `dump`: the JSON value a run prints. `statements`: the units in it.
-/

namespace SourceAtlas.Interpreter

/-- How a process ends. -/
inductive Ending where
  | exited (status : Nat)
  /-- It is ended by a signal of this number, and may leave a picture of its memory behind. -/
  | signalled (signal : Nat) (dumpsCore : Bool)
deriving DecidableEq, Repr

namespace Ending

def isSuccess (e : Ending) : Bool := e == exited 0

/-- The names of the signals from number one on. -/
def signalNames : List String :=
  ["SIGHUP", "SIGINT", "SIGQUIT", "SIGILL", "SIGTRAP", "SIGABRT", "SIGBUS", "SIGFPE", "SIGKILL",
    "SIGUSR1", "SIGSEGV", "SIGUSR2", "SIGPIPE", "SIGALRM", "SIGTERM", "SIGSTKFLT", "SIGCHLD",
    "SIGCONT", "SIGSTOP", "SIGTSTP", "SIGTTIN", "SIGTTOU", "SIGURG", "SIGXCPU", "SIGXFSZ",
    "SIGVTALRM", "SIGPROF", "SIGWINCH", "SIGIO", "SIGPWR", "SIGSYS"]

/-- The name of a signal, with a blank and in brackets, if it has one. -/
def signalName (signal : Nat) : String :=
  if signal = 0 then ""
  else
    match signalNames[signal - 1]? with
    | some name => " (" ++ name ++ ")"
    | none => ""

def text : Ending → String
  | exited status => "exit status: " ++ toString status
  | signalled signal dumpsCore =>
    "signal: " ++ toString signal ++ signalName signal ++
      (if dumpsCore then " (core dumped)" else "")

end Ending

/-- What happens when the interpreter is called. -/
inductive Outcome where
  /-- There is nothing to run it with. -/
  | notPrepared (cause : FileError)
  | notStarted (cause : FileError)
  /-- After so many milliseconds its input cannot be written to the end, or its end not be
  awaited. -/
  | interrupted (milliseconds : Nat) (cause : FileError)
  /-- It has all of its input and ends after so many milliseconds, having written these texts. -/
  | ended (milliseconds : Nat) (ending : Ending) (stdout stderr : String)
  /-- What waits for it breaks off. -/
  | abandoned

inductive Fault where
  | notPrepared (cause : FileError)
  | notStarted (command : String) (cause : FileError)
  | timedOut (seconds : Nat)
  | interrupted (cause : FileError)
  | failed (ending : Ending) (stderr : String)
  | notJson
  | reported (text : String)
  | noBody
  | abandoned
deriving DecidableEq, Repr

def Fault.message : Fault → String
  | notPrepared cause => "Failed to start runtime: " ++ cause.message
  | notStarted command cause => "Failed to spawn " ++ command ++ ": " ++ cause.message
  | timedOut seconds => "timed out after " ++ toString seconds ++ "s"
  | interrupted cause => "execution failed: " ++ cause.message
  | failed ending stderr =>
    "interpreter exited with " ++ ending.text ++ ": " ++ Text.trimmed stderr
  | notJson => "invalid AST JSON"
  | reported text => text
  | noBody => "AST dump has no module body"
  | abandoned => "interpreter worker panicked"

/-- What a run prints, unless it fails, takes too long or reports an error itself. -/
def dump (command : String) (seconds : Nat) : Outcome → Except Fault Json
  | .notPrepared cause => .error (.notPrepared cause)
  | .notStarted cause => .error (.notStarted command cause)
  | .abandoned => .error .abandoned
  | .interrupted milliseconds cause =>
    if seconds * 1000 ≤ milliseconds then .error (.timedOut seconds)
    else .error (.interrupted cause)
  | .ended milliseconds ending stdout stderr =>
    if seconds * 1000 ≤ milliseconds then .error (.timedOut seconds)
    else if !ending.isSuccess then .error (.failed ending stderr)
    else
      match Json.read (Text.trimmed stdout) with
      | none => .error .notJson
      | some value =>
        match nameIn value "error" with
        | some text => .error (.reported text)
        | none => .ok value

/-- The units that a run finds in a file. -/
def statements (command : String) (seconds : Nat) (content : String) (outcome : Outcome) :
    Except Crash (Except Fault (List Node)) :=
  match dump command seconds outcome with
  | .error fault => .ok (.error fault)
  | .ok value =>
    (statements? content value).map fun found =>
      match found with
      | some nodes => .ok nodes
      | none => .error .noBody

end SourceAtlas.Interpreter
