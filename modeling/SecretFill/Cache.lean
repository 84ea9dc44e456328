import SecretFill.Failure
import SecretFill.Handle
import SecretFill.Text.Blank

namespace SecretFill

/-!
# The cache of secrets

A cache holds the trimmed secret of each key that was fetched with success, and counts the fetches
that were started.

* `Cache` — the secrets, the count, and whether an empty secret counts as cached.
* `Cache.usable?` — the secret that a caller gets without a fetch.
* `Cache.countFetch`, `Cache.insert` — a fetch begins; a fetch gave a secret.
-/

/-- A cache of secrets. -/
structure Cache where
  /-- Whether an empty secret counts as cached. -/
  keepEmpty : Bool
  /-- The secrets, at most one for a key. -/
  secrets : List (Key × String)
  /-- The fetches that were started, those that failed included. -/
  fetches : Nat
deriving DecidableEq, Repr, Inhabited

namespace Cache

/-- A cache without secrets. -/
def empty (keepEmpty : Bool) : Cache := ⟨keepEmpty, [], 0⟩

/-- The secret that is held for a key, usable or not. -/
def held? (c : Cache) (key : Key) : Option String := c.secrets.lookup key

/-- Whether a secret may be given out from the cache. -/
def isUsable (c : Cache) (secret : String) : Bool := c.keepEmpty || !secret.isEmpty

/-- The secret that a caller gets without a fetch. -/
def usable? (c : Cache) (key : Key) : Option String := (c.held? key).filter c.isUsable

/-- Whether a secret is cached for a key. -/
def contains (c : Cache) (key : Key) : Bool := (c.usable? key).isSome

/-- How many keys have a secret. -/
def size (c : Cache) : Nat := c.secrets.length

/-- Whether no key has a secret. -/
def isEmpty (c : Cache) : Bool := c.secrets.isEmpty

/-- Counts a fetch that begins. -/
def countFetch (c : Cache) : Cache := { c with fetches := c.fetches + 1 }

/-- Holds a secret for a key, in place of an earlier one. -/
def insert (c : Cache) (key : Key) (secret : String) : Cache :=
  { c with secrets := (key, secret) :: c.secrets.filter (·.1 ≠ key) }

/-- Takes the outcome of a fetch: a secret is trimmed and held, a failure changes nothing.  The
    caller gets what was held. -/
def finish (c : Cache) (key : Key) : Except Failure String → Cache × Except Failure String
  | .ok text =>
    let secret := Text.trim text
    (c.insert key secret, .ok secret)
  | .error e => (c, .error e)

end Cache

end SecretFill
