import SecretFill.Report
import SecretFill.Schedule

namespace SecretFill

/-!
# Filling several documents at once

The documents share the cache, so a key that several of them name is fetched once.

* `Batch.run` — the reports of all documents, or the failure that stopped them.
* `Batch.join` — single requests side by side, each with an outcome of its own.
-/

namespace Batch

variable {σ : Type}

/-- Up to this many documents, the first failure stops the others at once. -/
def eagerLimit : Nat := 30

/-- Whether a document failed. -/
def failed : Status (Except Failure Report) → Bool
  | .finished (.error _) => true
  | _ => false

/-- Whether a document was filled. -/
def filled : Status (Except Failure Report) → Bool
  | .finished (.ok _) => true
  | _ => false

/-- Whether a failure stops the documents.  Many documents are delivered in order, so there a failure
    counts only once all documents before it are filled. -/
def halts (statuses : List (Status (Except Failure Report))) : Bool :=
  if statuses.length ≤ eagerLimit then statuses.any failed
  else (statuses.dropWhile filled).head?.any failed

/-- The reports in order, or the first failure. -/
def collect : List (Status (Except Failure Report)) → Except Failure (List Report)
  | [] => .ok []
  | .finished (.ok r) :: rest => (collect rest).map (r :: ·)
  | .finished (.error e) :: _ => .error e
  | _ :: rest => collect rest

/-- How often documents ask for a secret, at most. -/
def asks : List String → Nat
  | [] => 0
  | d :: rest => countPlaceholders (segments d.toList) + asks rest

/-- Fills documents side by side. -/
def run (store : Store σ) (policy : Policy) (documents : List String) (s : Session σ) :
    Except Failure (List Report) × Session σ :=
  let (statuses, s) :=
    Schedule.run (fun _ => store) halts (asks documents) (documents.map (report policy)) s
  (collect statuses, s)

/-- A request for one key with the answer that a fetch would get for it. -/
structure Request where
  /-- The key. -/
  key : Key
  /-- The outcome of a fetch. -/
  outcome : Except Failure String
  /-- The milliseconds that a fetch takes. -/
  delay : Nat

/-- The source that answers each request as it says, and notes which requests were fetched. -/
def requestSource (requests : List Request) : Source (List Nat) := fun caller _ fetched =>
  match requests[caller]? with
  | some r => (⟨r.outcome, r.delay, []⟩, caller :: fetched)
  | none => (⟨.error (.other ""), 0, []⟩, fetched)

/-- Makes requests side by side: the answer to each, whether it was fetched, and the cache
    afterwards. -/
def join (requests : List Request) (cache : Cache) :
    List (Option (Except Failure String) × Bool) × Cache :=
  let (statuses, s) :=
    Schedule.run (requestSource requests) (fun _ => false) requests.length
      (requests.map fun r => credential r.key) ⟨cache, []⟩
  (statuses.mapIdx fun i status => (status.result?, s.store.contains i), s.cache)

end Batch

end SecretFill
