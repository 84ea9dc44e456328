import SecretFill.Job
import SecretFill.Machine.Environment
import SecretFill.Text.Utf8

namespace SecretFill

/-!
# Texts from outside

Files and inputs are bytes; a job that wants a text refuses what is no UTF-8.

* `SystemFault.ofUtf8Fault` — the fault of bytes that are no text.
* `Job.readFile`, `Job.readInput` — the text of a file and of the input.
* `Job.environment` — the variables with some names.
-/

namespace SystemFault

/-- That a file is no text. -/
def notText : SystemFault := worded .invalidData (some "stream did not contain valid UTF-8")

/-- That bytes are no text, and where. -/
def ofUtf8Fault (fault : Text.Utf8Fault) : SystemFault :=
  worded .invalidData <| some <|
    match fault.width with
    | some width => s!"invalid utf-8 sequence of {width} bytes from index {fault.validUpTo}"
    | none => s!"incomplete utf-8 byte sequence from index {fault.validUpTo}"

end SystemFault

namespace Job

/-- The text of a file. -/
def readFile (path : String) : Job (Except SystemFault String) := do
  match ← ask (.read path) with
  | .error fault => return .error fault
  | .ok bytes =>
    match Text.decodeUtf8 bytes with
    | .ok cs => return .ok (String.ofList cs)
    | .error _ => return .error .notText

/-- The text of the input. -/
def readInput : Job (Except SystemFault String) := do
  match ← ask .input with
  | .error fault => return .error fault
  | .ok bytes =>
    match Text.decodeUtf8 bytes with
    | .ok cs => return .ok (String.ofList cs)
    | .error fault => return .error (.ofUtf8Fault fault)

/-- The variables with some names. -/
def environment : List String → Job Environment
  | [] => return .empty
  | name :: names => do
    let value? ← ask (.lookUp name)
    let rest ← environment names
    return match value? with
      | some value => rest.set name value
      | none => rest

end Job

end SecretFill
