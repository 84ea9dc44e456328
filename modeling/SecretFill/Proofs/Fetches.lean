import SecretFill.Proofs.Resolutions

namespace SecretFill

/-!
# What a fetch keeps, a run keeps

A walk changes the cache and the store by its fetches alone, so what every fetch keeps is kept by
the walk, and by any number of walks one after the other.

* `Session.fetched` — a cache and a store after a fetch.
* `Walk.run_induct`, `Walk.runAll_induct` — what fetches keep is kept by walks.
* `Session.calls` — the calls of a store, in order.
* `Walk.calls_runAll`, `Walk.usable?_runAll`, `Walk.fetches_runAll` — calls are added at the end,
  what is usable stays as it is, and every call is counted.
-/

variable {α σ : Type} {store : Store σ}

/-- A cache and a store after a fetch. -/
def Session.fetched (store : Store σ) (s : Session σ) (key : Key) : Session σ :=
  ⟨(s.cache.countFetch.finish key (store key s.store).1.outcome).1, (store key s.store).2⟩

/-- To ask for a key is to fetch it if it has no usable secret. -/
theorem credential_session (key : Key) (s : Session σ) :
    ((credential key).run store s).session
      = if s.cache.contains key then s else s.fetched store key := by
  unfold credential Cache.contains
  cases h : s.cache.usable? key <;> simp [Walk.run, h, Session.fetched]

namespace Walk

/-- **What every fetch keeps**, a walk keeps. -/
theorem run_induct {P : Session σ → Prop}
    (hfetch : ∀ s key, s.cache.usable? key = none → P s → P (s.fetched store key)) (w : Walk α)
    (s : Session σ) (h : P s) : P (w.run store s).session := by
  induction w generalizing s with
  | done result => exact h
  | note notice next ih => exact ih s h
  | ask key resume ih =>
    cases hu : s.cache.usable? key with
    | some secret =>
      simp only [run, hu]
      exact ih (.ok secret) s h
    | none =>
      simp only [run, hu]
      exact ih _ (s.fetched store key) (hfetch s key hu h)

/-- What every fetch keeps, walks keep one after the other. -/
theorem runAll_induct {P : Session σ → Prop}
    (hfetch : ∀ s key, s.cache.usable? key = none → P s → P (s.fetched store key))
    (ws : List (Walk α)) (s : Session σ) (h : P s) : P (runAll store ws s).2 := by
  induction ws generalizing s with
  | nil => exact h
  | cons w ws ih => exact ih _ (w.run_induct hfetch s h)

end Walk

/-! ### Calls -/

/-- The calls of a store since they are noted, in order. -/
def Session.calls (s : Session (σ × List Key)) : List Key := s.store.2.reverse

@[simp] theorem Session.calls_recording (s : Session σ) : s.recording.calls = [] := rfl

@[simp] theorem Session.calls_fetched (s : Session (σ × List Key)) (key : Key) :
    (s.fetched store.recorded key).calls = s.calls ++ [key] := List.reverse_cons

namespace Walk

variable {key : Key} {secret : String}

/-- Calls that were made stay at the beginning. -/
theorem calls_runAll (ws : List (Walk α)) (s : Session (σ × List Key)) :
    s.calls <+: (runAll store.recorded ws s).2.calls := by
  refine runAll_induct (P := fun t => s.calls <+: t.calls) (fun t k _ h => ?_) ws s
    (List.prefix_refl _)
  rw [Session.calls_fetched]
  exact h.trans (List.prefix_append _ _)

/-- A usable secret is not fetched again, so it stays as it is. -/
theorem usable?_runAll (ws : List (Walk α)) (s : Session σ)
    (h : s.cache.usable? key = some secret) :
    (runAll store ws s).2.cache.usable? key = some secret := by
  refine runAll_induct (P := fun t => t.cache.usable? key = some secret)
    (fun t k hk ht => ?_) ws s h
  have hne : key ≠ k := by
    rintro rfl
    rw [ht] at hk
    exact absurd hk (by simp)
  exact (Cache.usable?_finish_of_ne hne).trans ht

/-- Every call is counted. -/
theorem fetches_runAll (ws : List (Walk α)) (s : Session (σ × List Key)) :
    (runAll store.recorded ws s).2.cache.fetches + s.calls.length
      = s.cache.fetches + (runAll store.recorded ws s).2.calls.length := by
  refine runAll_induct
    (P := fun t => t.cache.fetches + s.calls.length = s.cache.fetches + t.calls.length)
    (fun t k _ h => ?_) ws s rfl
  have hcount : (t.fetched store.recorded k).cache.fetches = t.cache.fetches + 1 := by
    simp only [Session.fetched, Cache.fetches_finish, Cache.fetches_countFetch]
  rw [hcount, Session.calls_fetched, List.length_append, List.length_singleton]
  omega

end Walk

end SecretFill
