namespace SecretFill

/-!
# Failures

Everything that can go wrong between a placeholder and the text that replaces it.

* `Failure` — one constructor per cause; the fields name the place, never a secret.
* `Failure.message` — the wording of each cause.
* `Failure.concernsStore` — the causes that lie with the credential store.
-/

/-- Why a placeholder has no value. -/
inductive Failure where
  /-- The text between the delimiters is no handle. -/
  | malformedHandle (handle reason : String)
  /-- A key was asked of a secret that is no list of keys and values. -/
  | unreadableFragment (entry field reason : String)
  /-- The secret has no such key. -/
  | missingKey (entry field key : String)
  /-- The store command could not run, or said no. -/
  | fetchFailed (entry field reason : String)
  /-- The store command did not answer in time. -/
  | timedOut (entry field : String) (seconds : Nat)
  /-- There is no store command of this name. -/
  | storeMissing (command : String)
  /-- The value has no JSON form. -/
  | unencodable (handle reason : String)
  /-- Any other cause, already worded. -/
  | other (message : String)
deriving DecidableEq, Repr, Inhabited

namespace Failure

/-- The wording of a failure. -/
def message : Failure → String
  | malformedHandle handle reason => s!"Malformed credential handle '{handle}': {reason}"
  | unreadableFragment entry field reason =>
    s!"Credential '{entry}/{field}' is not a valid structured document: {reason}"
  | missingKey entry field key => s!"Could not find key '{key}' in credential '{entry}/{field}'"
  | fetchFailed entry field reason =>
    s!"Failed to fetch '{entry}/{field}' from the credential store: {reason}"
  | timedOut entry field seconds => s!"Fetching '{entry}/{field}' timed out after {seconds} seconds"
  | storeMissing command =>
    s!"Credential store command '{command}' is not installed or not found in PATH"
  | unencodable handle reason => s!"Failed to encode value for '{handle}' as JSON: {reason}"
  | other message => message

/-- Whether the failure lies with the store and not with the document or the secret. -/
def concernsStore : Failure → Bool
  | fetchFailed .. | timedOut .. | storeMissing .. => true
  | _ => false

end Failure

end SecretFill
