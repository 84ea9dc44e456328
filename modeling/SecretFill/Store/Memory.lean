import SecretFill.Walk

namespace SecretFill

/-!
# A store in memory

* `MemoryStore` — secrets and failures by key, and two counts of the fetches that were made.
* `MemoryStore.fetch` — one fetch, counted twice; a failure wins over a secret.
-/

/-- A store that holds its answers. -/
structure MemoryStore where
  /-- The secrets. -/
  secrets : List (Key × String)
  /-- The keys whose fetches fail. -/
  failures : List (Key × Failure)
  /-- The milliseconds that every fetch takes. -/
  delay : Nat
  /-- How often each key was fetched, for the keys that were. -/
  history : List (Key × Nat)
  /-- How many fetches were made. -/
  total : Nat := 0
deriving Repr, Inhabited

namespace MemoryStore

/-- Adds or replaces a secret. -/
def set (s : MemoryStore) (key : Key) (secret : String) : MemoryStore :=
  { s with secrets := (key, secret) :: s.secrets }

/-- How often a key was fetched. -/
def calls (s : MemoryStore) (key : Key) : Nat := (s.history.lookup key).getD 0

/-- How many fetches were made. -/
def totalCalls (s : MemoryStore) : Nat := s.total

/-- Counts a fetch that begins, for its key and in total. -/
def countFetch (s : MemoryStore) (key : Key) : MemoryStore :=
  { s with
    history := (key, s.calls key + 1) :: s.history.filter (·.1 ≠ key)
    total := s.total + 1 }

/-- What a fetch of a key gives. -/
def outcome (s : MemoryStore) (key : Key) : Except Failure String :=
  match s.failures.lookup key with
  | some e => .error e
  | none =>
    match s.secrets.lookup key with
    | some secret => .ok secret
    | none => .error (.fetchFailed key.entry key.field "Could not find specified account")

/-- One fetch. -/
def fetch : Store MemoryStore := fun key s =>
  (⟨s.outcome key, s.delay, []⟩, s.countFetch key)

end MemoryStore

end SecretFill
