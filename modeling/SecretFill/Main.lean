import SecretFill.Program

/-!
# The command

The outermost layer: the job of the command line is performed on the real machine.  Programs cannot
be run from here, so a document with placeholders ends with the failure of its first fetch.
-/

namespace SecretFill

/-- The fault that an error of the system is. -/
def SystemFault.ofError : IO.Error → SystemFault
  | .noFileOrDirectory _ code _ | .alreadyExists _ code _ | .permissionDenied _ code _
  | .inappropriateType _ code _ | .resourceExhausted _ code _ | .invalidArgument _ code _
  | .resourceBusy code _ | .otherError code _ => .numbered code.toNat
  | e => .worded .other (some (toString e))

/-- Does something, and gives its fault if there is one. -/
def attempt {α : Type} (action : IO α) : IO (Except SystemFault α) := do
  match ← action.toBaseIO with
  | .ok a => return .ok a
  | .error e => return .error (.ofError e)

/-- Whether something can be read at a path, or is a folder. -/
def isReadable (path : String) : IO Bool := do
  match ← attempt (IO.FS.readBinFile path) with
  | .ok _ => return true
  | .error fault => return !fault.isAbsence

/-- The first path at which there is something. -/
def firstReadable : List String → IO (Option String)
  | [] => return none
  | path :: paths => do if ← isReadable path then return some path else firstReadable paths

/-- The bytes that are left in a stream, behind those read before. -/
partial def readAll (stream : IO.FS.Stream) (before : ByteArray) : IO ByteArray := do
  let bytes ← stream.read 65536
  if bytes.isEmpty then return before else readAll stream (before ++ bytes)

/-- The answer of the real machine to a request. -/
def Request.perform : (request : Request) → IO request.Answer
  | .lookUp name => IO.getEnv name
  | .isThere path => isReadable path
  | .read path => attempt do return (← IO.FS.readBinFile path).toList
  | .input => attempt do return (← readAll (← IO.getStdin) ⟨#[]⟩).toList
  | .write path content => attempt (IO.FS.writeBinFile path ⟨content.toArray⟩)
  | .print content => attempt do
    let out ← IO.getStdout
    out.write ⟨content.toArray⟩
    out.flush
  | .tell text => do (← IO.getStderr).putStr text
  | .isTerminal => do (← IO.getStdout).isTty
  | .locate program => do
    let here ← IO.currentDir
    firstReadable
      (Machine.candidates here.toString (Machine.foldersOf (← IO.getEnv "PATH")) program)
  | .launch _ _ => return .error (.worded .unsupported none)

/-- Performs a job on the real machine. -/
def Job.perform {α : Type} : Job α → IO α
  | .done result => return result
  | .act request resume => do (resume (← request.perform)).perform

end SecretFill

/-- Runs the command line. -/
def main (arguments : List String) : IO UInt32 := do
  return (← (SecretFill.Program.job arguments).perform).toUInt32
