import SecretFill.Cache

namespace SecretFill

/-!
# One fetch at a time

Callers that ask for the same key at the same time share one fetch.  They stand in a line; the one
whose turn it is looks into the cache once more and fetches only if the secret is still not there.

* `Desk` — the cache and the lines before it.
* `Desk.ask` — a caller comes.
* `Desk.begin` — the turn of the first caller in a line.
* `Desk.finish` — its fetch is over; `Desk.leave` — a caller goes away.
-/

/-- A cache with a line of callers for every key, the one whose turn it is first. -/
structure Desk where
  /-- The cache. -/
  cache : Cache
  /-- The callers in line for each key. -/
  line : Key → List Nat

/-- What a caller meets at the desk. -/
inductive Reception where
  /-- The secret is cached. -/
  | cached (secret : String)
  /-- It is the caller's turn. -/
  | turn
  /-- The caller has to wait. -/
  | wait
deriving DecidableEq, Repr

namespace Desk

/-- A desk without callers. -/
def idle (cache : Cache) : Desk := ⟨cache, fun _ => []⟩

/-- Changes the line for a key. -/
def withLine (d : Desk) (key : Key) (callers : List Nat) : Desk :=
  { d with line := fun k => if k = key then callers else d.line k }

/-- A caller asks for a key.  Unless the secret is cached, the caller stands at the end of the
    line. -/
def ask (d : Desk) (caller : Nat) (key : Key) : Desk × Reception :=
  match d.cache.usable? key with
  | some secret => (d, .cached secret)
  | none =>
    let callers := d.line key
    (d.withLine key (callers ++ [caller]), if callers.isEmpty then .turn else .wait)

/-- Whether it is the turn of a caller. -/
def isTurn (d : Desk) (caller : Nat) (key : Key) : Bool := (d.line key).head? == some caller

/-- A caller leaves the line for a key; if it was first, it is the turn of the next one. -/
def leave (d : Desk) (caller : Nat) (key : Key) : Desk :=
  d.withLine key ((d.line key).erase caller)

/-- The turn of a caller: it leaves with a secret that was cached meanwhile, or its fetch begins. -/
def begin (d : Desk) (caller : Nat) (key : Key) : Desk × Option String :=
  match d.cache.usable? key with
  | some secret => (d.leave caller key, some secret)
  | none => ({ d with cache := d.cache.countFetch }, none)

/-- The fetch of a caller is over, and the caller leaves. -/
def finish (d : Desk) (caller : Nat) (key : Key) (outcome : Except Failure String) :
    Desk × Except Failure String :=
  let (cache, answer) := d.cache.finish key outcome
  ({ d with cache }.leave caller key, answer)

end Desk

end SecretFill
