import SecretFill.Failure
import SecretFill.Handle
import SecretFill.Json.Encode
import SecretFill.Text.Blank
import SecretFill.Yaml.Document

namespace SecretFill

/-!
# Fragments of a secret

A secret may hold a small YAML document, and a handle with a subfield names one of its keys.
Whatever is filled in, a whole secret or a fragment, is JSON text.

* `Fragment.parse` — the document in a secret.
* `Fragment.extract` — the value of one key.
* `encodeValue` — a value as JSON text.
* `render` — what a handle stands for, given its secret.
-/

open Yaml (Value Fault)

namespace Fragment

/-- What is said of a fault in a secret: its position, and nothing of the secret. -/
def faultText (fault : Fault) : String :=
  match fault.place with
  | some mark => s!"invalid YAML at line {mark.line + 1} column {mark.column + 1}"
  | none => "invalid YAML"

/-- The entries of the document in a secret.  A blank secret and an empty document have none; of
    several documents the first one counts. -/
def parse (key : Key) (secret : String) : Except Failure (List (Value × Value)) :=
  if Text.isAllBlank secret then .ok []
  else
    match Yaml.read secret.toList with
    | .error fault => .error (.unreadableFragment key.entry key.field (faultText fault))
    | .ok (.mapping entries) => .ok entries
    | .ok .null => .ok []
    | .ok value =>
      .error (.unreadableFragment key.entry key.field
        s!"expected key/value pairs, found {value.kind}")

/-- The value of a key among some entries: of the string that equals it or else of the first scalar
    whose text it is. -/
def lookup (name : String) (entries : List (Value × Value)) : Option Value :=
  let isString := fun entry : Value × Value =>
    match entry.1 with
    | .string s => s == name
    | _ => false
  ((entries.find? isString).or
    (entries.find? fun entry => entry.1.keyText? == some name)).map (·.2)

/-- The value of a key in the document that a secret holds. -/
def extract (key : Key) (secret : String) (name : String) : Except Failure Value := do
  match lookup name (← parse key secret) with
  | some value => return value
  | none => throw (.missingKey key.entry key.field name)

section Extract

variable {key : Key} {secret name : String}

theorem extract_of_parse {entries : List (Value × Value)} (h : parse key secret = .ok entries) :
    extract key secret name
      = (lookup name entries).elim (.error (.missingKey key.entry key.field name)) .ok := by
  simp only [extract, h, bind, Except.bind]
  cases lookup name entries <;> rfl

theorem extract_of_parse_error {failure : Failure} (h : parse key secret = .error failure) :
    extract key secret name = .error failure := by
  simp only [extract, h, bind, Except.bind]

end Extract

end Fragment

/-- A value as JSON text. -/
def encodeValue (handle : Handle) (value : Value) : Except Failure String :=
  (Json.encode value).mapError fun fault => .unencodable handle.text fault.message

/-- What a handle stands for, given its secret: the secret as a JSON string, or the named value. -/
def render (handle : Handle) (secret : String) : Except Failure String :=
  match handle.subfield with
  | none => .ok (Json.quote secret)
  | some name => do encodeValue handle (← Fragment.extract handle.key secret name)

end SecretFill
