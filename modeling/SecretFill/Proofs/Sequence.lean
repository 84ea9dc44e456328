import SecretFill.Proofs.ConstantStore

namespace SecretFill

/-!
# Walks one after the other

Over a constant store, what walks leave one after the other follows from how often each key is asked
for: the order of the visits does not count.

* `Session.recording`, `Session.Agree` — sessions that note the calls of their store, and what is
  compared of them.
* `Book.after`, `Book.Keeps` — the book of a row of visits; it agrees with a session.
* `Book.after_alike` — only how often each key is visited counts.
* `Walk.runAll`, `Walk.runAll_recorded` — walks one after the other, and the visits they make.
-/

variable {α σ : Type} {store : Store σ} {outcome : Key → Except Failure String}

/-! ### Sessions with calls -/

/-- A session that notes the calls of its store from now on. -/
def Session.recording (s : Session σ) : Session (σ × List Key) := ⟨s.cache, (s.store, [])⟩

/-- Two sessions with the same cached values, the same count of fetches, and as many calls of the
    store for each key. -/
structure Session.Agree (s t : Session (σ × List Key)) : Prop where
  /-- The same secrets are held. -/
  held : ∀ key, s.cache.held? key = t.cache.held? key
  /-- There are as many of them. -/
  size : s.cache.size = t.cache.size
  /-- As many fetches were started. -/
  fetches : s.cache.fetches = t.cache.fetches
  /-- The store was called as often for each key. -/
  calls : ∀ key, s.store.2.count key = t.store.2.count key

/-- The visit for a key over a constant store. -/
def Visit.ofKey (outcome : Key → Except Failure String) (key : Key) : Visit Key :=
  ⟨key, key, outcome key⟩

namespace Book

variable {b : Book Key} {s t : Session (σ × List Key)} {key : Key}

/-- The book of a session before which keys were visited. -/
def ofSession (s : Session (σ × List Key)) : Book Key := ⟨s.cache, s.store.2, []⟩

/-- The book after the visits for some keys. -/
def after (outcome : Key → Except Failure String) (s : Session (σ × List Key)) (keys : List Key) :
    Book Key := (ofSession s).visits (keys.map (.ofKey outcome))

/-- What a book holds is what a session holds, and its fetches are the calls of the store. -/
structure Keeps (b : Book Key) (s : Session (σ × List Key)) : Prop where
  /-- The caches have the same secrets. -/
  secrets : s.cache.secrets = b.cache.secrets
  /-- The same secrets count as cached. -/
  keepEmpty : s.cache.keepEmpty = b.cache.keepEmpty
  /-- As many fetches were started. -/
  fetches : s.cache.fetches = b.cache.fetches
  /-- The same calls were made. -/
  calls : ∀ key, s.store.2.count key = b.fetched.count key

theorem after_append (s : Session (σ × List Key)) (keys : List Key) (key : Key) :
    after outcome s (keys ++ [key]) = (after outcome s keys).visit (.ofKey outcome key) := by
  unfold after
  rw [List.map_append, visits_append]
  rfl

theorem keepEmpty_after (s : Session (σ × List Key)) (keys : List Key) :
    (after outcome s keys).cache.keepEmpty = s.cache.keepEmpty := keepEmpty_visits _

/-- The visits for one key, among those for many, differ in nothing. -/
theorem filter_ofKey (keys : List Key) (key : Key) :
    (keys.map (Visit.ofKey outcome)).filter (·.key = key)
      = List.replicate (keys.count key) (.ofKey outcome key) := by
  induction keys with
  | nil => rfl
  | cons k keys ih =>
    by_cases hk : k = key
    · subst hk
      rw [List.map_cons, List.filter_cons_of_pos (by simp [Visit.ofKey]), ih, List.count_cons_self,
        List.replicate_succ]
    · rw [List.map_cons, List.filter_cons_of_neg (by simp [Visit.ofKey, hk]), ih,
        List.count_cons_of_ne hk]

/-- Only how often each key is visited counts. -/
theorem after_alike (s : Session (σ × List Key)) {keys keys' : List Key}
    (h : ∀ key, keys.count key = keys'.count key) :
    (after outcome s keys).Alike (after outcome s keys') := by
  refine visits_alike fun key => ?_
  rw [filter_ofKey, filter_ofKey, h key]

/-- Sessions that are kept by books that cannot be told apart agree. -/
theorem Keeps.agree {d : Book Key} (hs : b.Keeps s) (ht : d.Keeps t) (h : b.Alike d) :
    s.Agree t where
  held key := by
    have hheld : ∀ {b : Book Key} {s : Session (σ × List Key)}, b.Keeps s →
        s.cache.held? key = b.cache.held? key := by
      intro b s hk
      unfold Cache.held?
      rw [hk.secrets]
    rw [hheld hs, hheld ht, h.cache.held?]
  size := by
    unfold Cache.size
    rw [hs.secrets, ht.secrets]
    exact h.cache.size
  fetches := by rw [hs.fetches, ht.fetches, h.cache.fetches]
  calls key := by rw [hs.calls, ht.calls, h.fetched.count_eq]

end Book

/-! ### One after the other -/

namespace Walk

/-- Runs walks one after the other. -/
def runAll (store : Store σ) : List (Walk α) → Session σ → List α × Session σ
  | [], s => ([], s)
  | w :: ws, s =>
    let first := w.run store s
    let rest := runAll store ws first.session
    (first.result :: rest.1, rest.2)

/-- A walk on its own makes the visits for which it asks. -/
theorem run_recorded (w : Walk α) (s : Session (σ × List Key)) (b : Book Key)
    (h : store.recorded.Constant outcome s.store) (hcache : b.cache = s.cache)
    (hcalls : b.fetched = s.store.2) :
    (b.visits ((w.asked (s.cache.answer outcome)).map (.ofKey outcome))).cache
        = (w.run store.recorded s).session.cache ∧
      (b.visits ((w.asked (s.cache.answer outcome)).map (.ofKey outcome))).fetched
        = (w.run store.recorded s).session.store.2 := by
  induction w generalizing s b with
  | done result => exact ⟨hcache, hcalls⟩
  | note notice next ih => exact ih s b h hcache hcalls
  | ask key resume ih =>
    cases hu : s.cache.usable? key with
    | some secret =>
      have hb : b.cache.usable? (Visit.ofKey outcome key).key = some secret := hcache ▸ hu
      have hrest := ih (.ok secret) s (b.visit (.ofKey outcome key)) h
        (by rw [Book.visit_hit hb]; exact hcache) (by rw [Book.visit_hit hb]; exact hcalls)
      simp only [run, hu, asked, Cache.answer_of_some hu]
      exact hrest
    | none =>
      have hb : b.cache.usable? (Visit.ofKey outcome key).key = none := hcache ▸ hu
      -- The walk and the visit fetch the same key with the same outcome.
      have hrest := ih (trimmed (outcome key))
        ⟨(s.cache.countFetch.finish key (outcome key)).1, (store.recorded key s.store).2⟩
        (b.visit (.ofKey outcome key)) (h.next key)
        (by rw [Book.visit_miss hb, hcache]; rfl) (by rw [Book.visit_miss hb, hcalls]; rfl)
      rw [Cache.answer_finish (by exact hu), Cache.answer_countFetch] at hrest
      simp only [run, hu, asked, Cache.answer_of_none hu, h.outcome_eq, Cache.finish_snd]
      exact hrest

/-- **One after the other**, walks come to what each of them comes to, and make the visits for which
    they ask. -/
theorem runAll_recorded (ws : List (Walk α)) (s : Session (σ × List Key)) (b : Book Key)
    (h : store.recorded.Constant outcome s.store) (hcache : b.cache = s.cache)
    (hcalls : b.fetched = s.store.2) :
    (runAll store.recorded ws s).1 = ws.map (eval (s.cache.answer outcome)) ∧
      (b.visits ((ws.flatMap (asked (s.cache.answer outcome))).map (.ofKey outcome))).Keeps
        (runAll store.recorded ws s).2 := by
  induction ws generalizing s b with
  | nil =>
    refine ⟨rfl, ⟨?_, ?_, ?_, fun key => ?_⟩⟩
    · exact congrArg Cache.secrets hcache.symm
    · exact congrArg Cache.keepEmpty hcache.symm
    · exact congrArg Cache.fetches hcache.symm
    · exact congrArg (List.count key) hcalls.symm
  | cons w ws ih =>
    -- The first walk changes no answer, so the others come to what they come to without it.
    obtain ⟨hresult, hanswer, hconstant⟩ := w.run_eval s h
    obtain ⟨hcache', hcalls'⟩ := w.run_recorded s b h hcache hcalls
    have hrest := ih (w.run store.recorded s).session _ hconstant hcache' hcalls'
    rw [hanswer] at hrest
    rw [List.flatMap_cons, List.map_append, Book.visits_append, List.map_cons, ← hresult]
    exact ⟨congrArg _ hrest.1, hrest.2⟩

end Walk

end SecretFill
