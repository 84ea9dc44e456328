namespace SecretFill

/-!
# Programs that are run

* `Ending` — how a program ends; `Ending.text` is its wording.
* `Run` — what a program does when it is run.
* `Tool` — a program that can be run, by what it does for each list of arguments.
-/

/-- How a program ends. -/
inductive Ending where
  /-- By itself, with a status. -/
  | exit (status : Nat)
  /-- By a signal. -/
  | signal (number : Nat)
deriving DecidableEq, Repr, Inhabited

namespace Ending

/-- The name of a signal. -/
def signalName? : Nat → Option String
  | 1 => some "SIGHUP"
  | 2 => some "SIGINT"
  | 3 => some "SIGQUIT"
  | 4 => some "SIGILL"
  | 5 => some "SIGTRAP"
  | 6 => some "SIGABRT"
  | 7 => some "SIGBUS"
  | 8 => some "SIGFPE"
  | 9 => some "SIGKILL"
  | 10 => some "SIGUSR1"
  | 11 => some "SIGSEGV"
  | 12 => some "SIGUSR2"
  | 13 => some "SIGPIPE"
  | 14 => some "SIGALRM"
  | 15 => some "SIGTERM"
  | 16 => some "SIGSTKFLT"
  | 17 => some "SIGCHLD"
  | 18 => some "SIGCONT"
  | 19 => some "SIGSTOP"
  | 20 => some "SIGTSTP"
  | 21 => some "SIGTTIN"
  | 22 => some "SIGTTOU"
  | 23 => some "SIGURG"
  | 24 => some "SIGXCPU"
  | 25 => some "SIGXFSZ"
  | 26 => some "SIGVTALRM"
  | 27 => some "SIGPROF"
  | 28 => some "SIGWINCH"
  | 29 => some "SIGIO"
  | 30 => some "SIGPWR"
  | 31 => some "SIGSYS"
  | _ => none

/-- The wording of an ending. -/
def text : Ending → String
  | exit status => s!"exit status: {status}"
  | signal number =>
    match signalName? number with
    | some name => s!"signal: {number} ({name})"
    | none => s!"signal: {number}"

/-- Whether a program did what it should. -/
def isSuccess : Ending → Bool
  | exit status => status == 0
  | signal _ => false

end Ending

/-- What a program does when it is run. -/
structure Run where
  /-- The milliseconds before it does anything. -/
  pause : Nat
  /-- What it tells the user. -/
  told : String
  /-- The bytes that it prints. -/
  output : List UInt8
  /-- How it ends. -/
  ending : Ending
deriving DecidableEq, Repr, Inhabited

/-- A program, by what it does for the lists of arguments that it knows and for all others. -/
structure Tool where
  /-- The known lists of arguments; the first that fits counts. -/
  known : List (List String × Run)
  /-- What it does for others. -/
  otherwise : Run
deriving DecidableEq, Repr, Inhabited

/-- What a program does for a list of arguments. -/
def Tool.run (t : Tool) (arguments : List String) : Run :=
  (t.known.lookup arguments).getD t.otherwise

end SecretFill
