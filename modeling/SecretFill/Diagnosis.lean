import SecretFill.Failure
import SecretFill.Lpass.Arguments
import SecretFill.Machine.SystemFault

namespace SecretFill

/-!
# Diagnoses

What is told to a person when something went wrong.

* `Trouble` — a cause with the layers of context that were put around it.
* `Diagnosis` — a failure with details and advice; `Diagnosis.text` is its written form.
* `Failure.diagnosis` — what is told of each failure.
* `Trouble.diagnosis` — what is told of a trouble: the outermost failure among cause and layers
  decides alone, and only without one the whole chain is told.
-/

/-- What lies at the bottom of a trouble. -/
inductive Cause where
  /-- A placeholder has no value. -/
  | failure (e : Failure)
  /-- The system reported a fault. -/
  | system (fault : SystemFault)
  /-- The settings cannot be read, for the reason given. -/
  | settings (reason : String)
  /-- Any other cause, already worded. -/
  | message (words : String)
deriving DecidableEq, Repr

/-- A layer of context. -/
inductive Layer where
  /-- Words that say what was being done. -/
  | words (text : String)
  /-- A failure that came of it. -/
  | failure (e : Failure)
deriving DecidableEq, Repr

/-- A cause with its context, the innermost layer first. -/
structure Trouble where
  /-- The cause. -/
  cause : Cause
  /-- The layers around it. -/
  layers : List Layer
deriving DecidableEq, Repr

namespace Cause

/-- The wording of a cause. -/
def text : Cause → String
  | failure e => e.message
  | system fault => fault.text
  | settings reason => reason
  | message words => words

/-- The failure that a cause is. -/
def failure? : Cause → Option Failure
  | failure e => some e
  | _ => none

end Cause

namespace Layer

/-- The wording of a layer. -/
def text : Layer → String
  | words text => text
  | failure e => e.message

/-- The failure that a layer is. -/
def failure? : Layer → Option Failure
  | failure e => some e
  | words _ => none

end Layer

namespace Trouble

/-- A cause without context. -/
def bare (cause : Cause) : Trouble := ⟨cause, []⟩

/-- Puts words around a trouble. -/
def during (t : Trouble) (text : String) : Trouble := { t with layers := t.layers ++ [.words text] }

/-- The wordings from the outermost layer to the cause. -/
def chain (t : Trouble) : List String := (t.layers.map Layer.text).reverse ++ [t.cause.text]

/-- The wording of the outermost layer. -/
def headline (t : Trouble) : String := t.chain.headD ""

/-- The wordings below the outermost one. -/
def causes (t : Trouble) : List String := t.chain.tail

/-- The outermost failure. -/
def failure? (t : Trouble) : Option Failure :=
  (t.layers.reverse.findSome? Layer.failure?).or t.cause.failure?

/-- The lines that number the causes, the first of which has the number `i`. -/
def numberedLines (i : Nat) : List String → String
  | [] => ""
  | cause :: rest => s!"\n  {i}: {cause}" ++ numberedLines (i + 1) rest

/-- The whole chain as one message. -/
def message (t : Trouble) : String :=
  if t.causes.isEmpty then t.headline
  else s!"{t.headline}\n\nCaused by:{numberedLines 1 t.causes}"

end Trouble

/-- A failure as it is told, with what helps to understand and to mend it. -/
structure Diagnosis where
  /-- The failure. -/
  failure : Failure
  /-- What to do about it. -/
  suggestion : Option String
  /-- What lies behind it. -/
  details : Option String
deriving DecidableEq, Repr

namespace Diagnosis

/-- The failure alone. -/
def bare (failure : Failure) : Diagnosis := ⟨failure, none, none⟩

/-- Adds advice. -/
def withSuggestion (d : Diagnosis) (text : String) : Diagnosis := { d with suggestion := some text }

/-- Adds details. -/
def withDetails (d : Diagnosis) (text : String) : Diagnosis := { d with details := some text }

/-- A line with a title, if there is something to write. -/
def titled (title : String) : Option String → String
  | none => ""
  | some text => s!"\n{title}: {text}"

/-- The written form: the failure, its details, the advice. -/
def text (d : Diagnosis) : String :=
  d.failure.message ++ titled "Details" d.details ++ titled "Suggestion" d.suggestion

end Diagnosis

/-- What is told of a failure. -/
def Failure.diagnosis (e : Failure) : Diagnosis :=
  match e with
  | malformedHandle .. => {
      failure := e
      suggestion := some "Write placeholders as ((entry/field)) or ((entry/field/subfield))"
      details := some
        "The text between (( and )) must name a store entry and a field separated by '/'" }
  | unreadableFragment _ field _ => {
      failure := e
      suggestion := some <|
        s!"Make sure the '{field}' field holds 'key: value' lines, or drop the subfield to use " ++
          "the whole value"
      details := some
        "A third handle component asks for one key of a YAML document stored in the field" }
  | missingKey entry field _ => {
      failure := e
      suggestion := some
        s!"Run 'lpass show {Lpass.fieldFlag field} {entry}' to see the available keys"
      details := some "Keys are matched exactly and only at the top level of the document" }
  | fetchFailed .. => {
      failure := e
      suggestion := some
        "Check that you are logged in with 'lpass login' and that the entry name is correct"
      details := some "The credential store command exited with an error" }
  | timedOut .. => {
      failure := e
      suggestion := some
        "Log in with 'lpass login' before running, or raise the limit with --timeout"
      details := some "lpass may be waiting for a password prompt that nobody is answering" }
  | storeMissing .. => {
      failure := e
      suggestion := some <|
        "Install lastpass-cli (e.g. 'brew install lastpass-cli', 'apt install lastpass-cli') or " ++
          "set lpass_command in the config"
      details := some "lpass-resolve shells out to the LastPass CLI to read secrets" }
  | unencodable .. => {
      failure := e
      suggestion := none
      details := some "Structured values must use string keys to be representable as JSON" }
  | other .. => .bare e

namespace Trouble

/-- What is told of a trouble in which there is no failure. -/
def told (t : Trouble) : Diagnosis :=
  let d := Diagnosis.bare (.other t.message)
  match t.cause with
  | .system fault =>
    if fault.isAbsence then
      d.withSuggestion "Check that the input file exists and the path is correct"
    else if fault.isRefusal then
      d.withSuggestion "Check the permissions of the input and output files"
    else d
  | .settings _ =>
    (d.withSuggestion "Check the TOML syntax in your lpass-resolve config file").withDetails
      "Supported keys: lpass_command, timeout_secs, cache_empty_values, on_error"
  | _ => d

/-- What is told of a trouble. -/
def diagnosis (t : Trouble) : Diagnosis :=
  match t.failure? with
  | some e => e.diagnosis
  | none => t.told

end Trouble

end SecretFill
