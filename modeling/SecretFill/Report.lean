import SecretFill.Fragment
import SecretFill.Placeholder
import SecretFill.Policy
import SecretFill.Walk

namespace SecretFill

/-!
# Filling a document

The placeholders of a document are replaced from left to right, each by the JSON text of what its
handle stands for; the text between them is kept.

* `Report` — the filled document, and what could not be filled.
* `credential`, `resolve` — the walks for one secret and for one handle.
* `fill`, `report` — the walks for a row of segments and for a document.
-/

/-- The result of filling a document. -/
structure Report where
  /-- The document with every placeholder replaced. -/
  output : String
  /-- How many placeholders were replaced by a value. -/
  resolved : Nat
  /-- The handles of the others with their failures, in the order of the document. -/
  failures : List (String × Failure)
deriving DecidableEq, Repr, Inhabited

namespace Report

/-- Nothing was read so far. -/
def empty : Report := ⟨"", 0, []⟩

/-- Whether every placeholder was replaced by a value. -/
def isComplete (r : Report) : Bool := r.failures.isEmpty

/-- Adds a character of the document. -/
def keep (r : Report) (c : Char) : Report := { r with output := r.output.push c }

/-- Adds the value of a placeholder. -/
def value (r : Report) (text : String) : Report :=
  { r with output := r.output ++ text, resolved := r.resolved + 1 }

/-- Adds the marker of a placeholder that has no value. -/
def failure (r : Report) (handle : String) (e : Failure) : Report :=
  { r with output := r.output ++ marker handle, failures := r.failures ++ [(handle, e)] }

end Report

/-- The walk that asks for one secret. -/
def credential (key : Key) : Walk (Except Failure String) := .ask key .done

/-- What is told of a handle that has its value. -/
def resolvedNotice (handle : Handle) : Log.Notice :=
  Log.note .debug "resolver" s!"Resolved {handle.text}"

/-- What is told of a placeholder that is left. -/
def leavingNotice (handle : String) (e : Failure) : Log.Notice :=
  Log.note .warn "resolver" s!"Leaving (({handle})) unresolved: {e.message}"

/-- What is told of a document before it is filled. -/
def foundNotice (count : Nat) : Log.Notice :=
  Log.note .debug "resolver" s!"Found {count} placeholders"

/-- The walk from the text of a handle to the text that replaces it.  A malformed handle asks for
    nothing. -/
def resolve (raw : String) : Walk (Except Failure String) :=
  match Handle.parse raw with
  | .error e => .done (.error e)
  | .ok handle =>
    .ask handle.key fun
      | .error e => .done (.error e)
      | .ok secret =>
        match render handle secret with
        | .error e => .done (.error e)
        | .ok text => .note (resolvedNotice handle) (.done (.ok text))

/-- The walk that fills a row of segments behind what a report holds. -/
def fill (policy : Policy) : List Segment → Report → Walk (Except Failure Report)
  | [], r => .done (.ok r)
  | .literal c :: rest, r => fill policy rest (r.keep c)
  | .placeholder raw :: rest, r =>
    let handle := String.ofList raw
    (resolve handle).bind fun
      | .ok text => fill policy rest (r.value text)
      | .error e =>
        match policy with
        | .abort => .done (.error e)
        | .marker => .note (leavingNotice handle e) (fill policy rest (r.failure handle e))

/-- How many placeholders a row of segments has. -/
def countPlaceholders (segments : List Segment) : Nat :=
  segments.countP fun
    | .placeholder _ => true
    | .literal _ => false

/-- The walk that fills a document. -/
def report (policy : Policy) (document : String) : Walk (Except Failure Report) :=
  let segments := segments document.toList
  .note (foundNotice (countPlaceholders segments)) (fill policy segments .empty)

end SecretFill
