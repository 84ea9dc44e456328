import SecretFill.Lpass.Arguments
import SecretFill.Machine.Basic
import SecretFill.Text.Blank
import SecretFill.Text.Utf8
import SecretFill.Walk

namespace SecretFill.Lpass

/-!
# The store behind a command

A secret is what the store command prints, without the white space around it.

* `StoreCommand` — a command with a limit of time.
* `StoreCommand.reply` — what a store answers for what its command did.
* `StoreCommand.store` — the store on a machine; `StoreCommand.fetch` — the job of one fetch.
* `StoreCommand.ensure` — the job that looks whether there is such a command.
-/

/-- A store command. -/
structure StoreCommand where
  /-- Its name or its path. -/
  name : String
  /-- The milliseconds that it may take. -/
  limit? : Option Nat
deriving DecidableEq, Repr, Inhabited

/-- The milliseconds that a command may take if nothing else is said. -/
def standardLimit : Nat := 300000

namespace StoreCommand

/-- A command as it is called. -/
def line (c : StoreCommand) (key : Key) : String :=
  " ".intercalate (c.name :: showArguments key)

/-- What is told before a command is run. -/
def startNotice (c : StoreCommand) (key : Key) : Log.Notice :=
  Log.note .debug "lpass" s!"Executing command: {c.line key}"

/-- What is told of a command that takes too long. -/
def limitNotice (c : StoreCommand) (key : Key) (limit : Nat) : Log.Notice :=
  Log.note .warn "lpass" s!"Command timed out after {limit / 1000} seconds: {c.line key}"

/-- What is told of a command that fails. -/
def failNotice (ending : Ending) : Log.Notice :=
  Log.note .debug "lpass" <|
    match ending with
    | .exit status => s!"Command failed with exit code: Some({status})"
    | .signal _ => "Command failed with exit code: None"

/-- The secret that a command printed. -/
def outcome (c : StoreCommand) (key : Key) (run : Run) : Except Failure String :=
  if !run.ending.isSuccess then
    .error (.fetchFailed key.entry key.field s!"{c.name} exited with {run.ending.text}")
  else
    match Text.decodeUtf8 run.output with
    | .ok cs => .ok (String.ofList (Text.trimChars cs))
    | .error _ => .error (.fetchFailed key.entry key.field "output is not valid UTF-8")

/-- The answer of a store whose command was run.  Running a program takes a moment, even if it does
    not pause. -/
def replyOfRun (c : StoreCommand) (key : Key) (run : Run) : Reply :=
  match c.limit?.filter (· ≤ run.pause) with
  | some limit =>
    { outcome := .error (.timedOut key.entry key.field (limit / 1000))
      delay := limit + 1
      notices := [c.startNotice key, c.limitNotice key limit] }
  | none =>
    { outcome := c.outcome key run
      delay := run.pause + 1
      notices := c.startNotice key :: .printed run.told
        :: if run.ending.isSuccess then [] else [failNotice run.ending] }

/-- The answer of a store whose command could not be run. -/
def replyOfFault (c : StoreCommand) (key : Key) (fault : SystemFault) : Reply where
  outcome := .error <|
    if fault.isAbsence then .storeMissing c.name
    else .fetchFailed key.entry key.field s!"failed to run {c.name}: {fault.text}"
  delay := 0
  notices := [c.startNotice key]

/-- The answer of a store for what became of its command. -/
def reply (c : StoreCommand) (key : Key) : Except SystemFault Run → Reply
  | .ok run => c.replyOfRun key run
  | .error fault => c.replyOfFault key fault

/-- The store on a machine. -/
def store (c : StoreCommand) : Store Machine := fun key m =>
  let (launched, m) := m.launch c.name (showArguments key)
  (c.reply key launched, m)

/-- The job of one fetch. -/
def fetch (c : StoreCommand) (note : Log.Notice → Job Unit) (key : Key) :
    Job (Except Failure String) := do
  let reply := c.reply key (← Job.ask (.launch c.name (showArguments key)))
  reply.notices.forM note
  return reply.outcome

/-- The path of the command, if there is one. -/
def found (c : StoreCommand) : Option String → Except Failure String
  | some path => .ok path
  | none => .error (.storeMissing c.name)

/-- The job that looks for the command. -/
def ensure (c : StoreCommand) : Job (Except Failure String) := do
  return c.found (← Job.ask (.locate c.name))

end StoreCommand

end SecretFill.Lpass
