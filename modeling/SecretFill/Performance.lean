import SecretFill.Job
import SecretFill.Walk

namespace SecretFill

/-!
# Walks as jobs

* `Walk.perform` — a walk that fetches its secrets by jobs, and tells what happens meanwhile.
-/

/-- Performs a walk over a cache.  `fetch` is the job of one fetch, `tell` that of telling something.
    A usable secret of the cache answers at once. -/
def Walk.perform {α : Type} (fetch : Key → Job (Except Failure String))
    (tell : Log.Notice → Job Unit) : Walk α → Cache → Job (α × Cache)
  | .done result, cache => .done (result, cache)
  | .note notice next, cache => (tell notice).bind fun _ => next.perform fetch tell cache
  | .ask key resume, cache =>
    match cache.usable? key with
    | some secret =>
      (tell (hitNotice key)).bind fun _ => (resume (.ok secret)).perform fetch tell cache
    | none =>
      (tell (missNotice key)).bind fun _ =>
        (fetch key).bind fun outcome =>
          let (cache, answer) := cache.countFetch.finish key outcome
          (resume answer).perform fetch tell cache

end SecretFill
