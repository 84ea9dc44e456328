import SecretFill.Proofs.Fetches

namespace SecretFill

/-!
# What is asked of a cache, and what is seen of it

* `Errand`, `Finding` — one thing that is asked of a cache and its store, and what it comes to.
* `Errand.run`, `Errand.runAll` — an errand, and errands one after the other.
* `Glimpse` — what may be looked at between them.
-/

/-- What may be asked of a cache and the store behind it. -/
inductive Errand where
  /-- To fill a document and to report on it. -/
  | report (policy : Policy) (document : String)
  /-- To fill a document. -/
  | text (policy : Policy) (document : String)
  /-- To fill several documents side by side. -/
  | reports (policy : Policy) (documents : List String)
  /-- What a handle stands for. -/
  | handle (raw : String)
  /-- The secret at a key. -/
  | secret (key : Key)
deriving DecidableEq, Repr

/-- What an errand comes to. -/
inductive Finding where
  /-- A report, or a failure. -/
  | report (result : Except Failure Report)
  /-- A text, or a failure. -/
  | text (result : Except Failure String)
  /-- Several reports, or a failure. -/
  | reports (result : Except Failure (List Report))

namespace Errand

variable {σ : Type}

/-- Runs an errand. -/
def run (store : Store σ) : Errand → Session σ → Finding × Session σ
  | report policy document, s =>
    let o := (SecretFill.report policy document).run store s
    (.report o.result, o.session)
  | text policy document, s =>
    let o := (SecretFill.report policy document).run store s
    (.text (o.result.map Report.output), o.session)
  | reports policy documents, s =>
    let (result, s) := Batch.run store policy documents s
    (.reports result, s)
  | handle raw, s =>
    let o := (resolve raw).run store s
    (.text o.result, o.session)
  | secret key, s =>
    let o := (credential key).run store s
    (.text o.result, o.session)

/-- Runs errands one after the other. -/
def runAll (store : Store σ) : List Errand → Session σ → List Finding × Session σ
  | [], s => ([], s)
  | e :: rest, s =>
    let (finding, s) := e.run store s
    let (findings, s) := runAll store rest s
    (finding :: findings, s)

end Errand

/-- What may be looked at between errands. -/
@[ext]
structure Glimpse where
  /-- Whether a secret is cached for a key. -/
  contains : Key → Bool
  /-- How many keys have a secret. -/
  size : Nat
  /-- Whether no key has one. -/
  isEmpty : Bool
  /-- The fetches that were started. -/
  fetches : Nat
  /-- The calls of the store, in order. -/
  calls : List Key

/-- What may be looked at in a session that notes the calls of its store. -/
def Session.glimpse {σ : Type} (s : Session (σ × List Key)) : Glimpse where
  contains := s.cache.contains
  size := s.cache.size
  isEmpty := s.cache.isEmpty
  fetches := s.cache.fetches
  calls := s.calls

end SecretFill
