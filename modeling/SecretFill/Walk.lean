import SecretFill.Cache
import SecretFill.Log.Record

namespace SecretFill

/-!
# Walks

A walk is a computation that asks for secrets one at a time.  It does not say where they come from,
so one walk can be run on its own or beside others.

* `Walk` — the computation; `Walk.bind`, `Walk.map` — composition.
* `Store` — where secrets are fetched; its answers may depend on its state.
* `Walk.run` — runs a walk on its own over a cache and a store.
-/

/-- A computation that asks for secrets and may note what it does. -/
inductive Walk (α : Type) where
  /-- It has a result. -/
  | done (result : α)
  /-- It asks for the secret at a key and goes on with the answer. -/
  | ask (key : Key) (resume : Except Failure String → Walk α)
  /-- It notes something and goes on. -/
  | note (notice : Log.Notice) (next : Walk α)

namespace Walk

variable {α β σ : Type}

/-- Goes on with another walk. -/
def bind : Walk α → (α → Walk β) → Walk β
  | done result, f => f result
  | ask key resume, f => ask key fun answer => (resume answer).bind f
  | note notice next, f => note notice (next.bind f)

/-- Changes the result. -/
def map (f : α → β) (w : Walk α) : Walk β := w.bind fun result => done (f result)

end Walk

/-- The answer of a store to one fetch. -/
structure Reply where
  /-- The secret or the failure. -/
  outcome : Except Failure String
  /-- The milliseconds that the fetch takes. -/
  delay : Nat
  /-- What the store tells meanwhile. -/
  notices : List Log.Notice

/-- A store with states in `σ`: what a fetch answers, and the state behind it. -/
abbrev Store (σ : Type) := Key → σ → Reply × σ

/-- A cache and the state of the store behind it. -/
structure Session (σ : Type) where
  /-- The cache. -/
  cache : Cache
  /-- The state of the store. -/
  store : σ

/-- What a run leaves. -/
structure Outcome (α σ : Type) where
  /-- The result. -/
  result : α
  /-- The cache and the store afterwards. -/
  session : Session σ
  /-- What was told, in order. -/
  notices : List Log.Notice

/-- What the cache tells of a secret that it holds. -/
def hitNotice (key : Key) : Log.Notice := Log.note .trace "cache" s!"Cache hit for {key.text}"

/-- What the cache tells before a fetch. -/
def missNotice (key : Key) : Log.Notice :=
  Log.note .debug "cache" s!"Cache miss for {key.text}, fetching"

namespace Walk

variable {α σ : Type}

/-- Runs a walk on its own.  A usable secret of the cache answers at once; otherwise the store is
    asked, and the caller gets what the cache makes of its answer. -/
def run (store : Store σ) : Walk α → Session σ → Outcome α σ
  | done result, s => ⟨result, s, []⟩
  | note notice next, s =>
    let o := next.run store s
    { o with notices := notice :: o.notices }
  | ask key resume, s =>
    match s.cache.usable? key with
    | some secret =>
      let o := (resume (.ok secret)).run store s
      { o with notices := hitNotice key :: o.notices }
    | none =>
      let (reply, state) := store key s.store
      let (cache, answer) := s.cache.countFetch.finish key reply.outcome
      let o := (resume answer).run store ⟨cache, state⟩
      { o with notices := missNotice key :: (reply.notices ++ o.notices) }

end Walk

end SecretFill
