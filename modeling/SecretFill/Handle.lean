import SecretFill.Failure
import SecretFill.Text.Components

namespace SecretFill

/-!
# Handles

A handle is the text between the delimiters of a placeholder: `entry/field` names a whole
secret, `entry/field/subfield` one key of a secret that holds a small YAML document.

* `Handle.parse` — reads a handle; `HandleFault` has the reasons for a refusal.
* `Handle.text` — writes it back.
* `Key` — the address of a secret, an entry together with a field.
-/

/-- The address of one secret.  Kept as a pair, so that no separator makes two addresses alike. -/
structure Key where
  /-- The name of the entry in the store. -/
  entry : String
  /-- The field of the entry. -/
  field : String
deriving DecidableEq, Repr, Inhabited, Hashable

/-- The written form of an address, for people only: it is not injective. -/
def Key.text (k : Key) : String := s!"{k.entry}/{k.field}"

/-- A parsed handle. -/
structure Handle where
  /-- The name of the entry. -/
  entry : String
  /-- The field of the entry. -/
  field : String
  /-- The key to look up in the secret; never the empty text. -/
  subfield : Option String
deriving DecidableEq, Repr, Inhabited

/-- Why a text is no handle. -/
inductive HandleFault where
  /-- There is no separator. -/
  | tooFew
  /-- There are more than three components. -/
  | tooMany
  /-- The first component is empty. -/
  | emptyEntry
  /-- The second component is empty. -/
  | emptyField
deriving DecidableEq, Repr

/-- The wording of a refusal. -/
def HandleFault.message : HandleFault → String
  | tooFew => "expected entry/field or entry/field/subfield"
  | tooMany => "too many '/' separated components (at most 3)"
  | emptyEntry => "entry name is empty"
  | emptyField => "field name is empty"

namespace Handle

/-- The address of the secret that a handle is about. -/
def key (h : Handle) : Key := ⟨h.entry, h.field⟩

/-- Builds a handle from its components, an empty third one counting as absent. -/
def build (entry field : List Char) (subfield : Option (List Char)) : Except HandleFault Handle :=
  if entry.isEmpty then .error .emptyEntry
  else if field.isEmpty then .error .emptyField
  else
    .ok {
      entry := String.ofList entry
      field := String.ofList field
      subfield := (subfield.filter fun s => !s.isEmpty).map String.ofList }

/-- Reads a handle: the number of components is checked first, then the entry, then the field. -/
def parse? (raw : String) : Except HandleFault Handle :=
  match components '/' raw.toList with
  | [entry, field] => build entry field none
  | [entry, field, subfield] => build entry field (some subfield)
  | _ :: _ :: _ => .error .tooMany
  | _ => .error .tooFew

/-- Reads a handle; a refusal carries the raw text and the reason. -/
def parse (raw : String) : Except Failure Handle :=
  (parse? raw).mapError fun fault => .malformedHandle raw fault.message

/-- The written form of a handle. -/
def text (h : Handle) : String :=
  match h.subfield with
  | none => s!"{h.entry}/{h.field}"
  | some key => s!"{h.entry}/{h.field}/{key}"

end Handle

end SecretFill
