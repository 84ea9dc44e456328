import SecretFill.Proofs.Lines
import SecretFill.Proofs.Visits

namespace SecretFill

/-!
# Stores that do not change their answers

A store is constant if the outcome of a fetch depends on the key alone, however long it takes.  Then
what a caller gets for a key is settled from the start, and no walk can tell in which order the keys
were fetched.

* `Store.Constant` — from a state on, every fetch of a key has the same outcome.
* `Cache.answer` — what a caller gets for a key, be it cached or fetched.
* `Walk.eval`, `Walk.asked` — the result of a walk that gets these answers, and the keys for which
  it asks.
* `Walk.run_eval` — a walk that is run on its own has this result and changes no answer.
* `Floor.Steady.of_steps` — nor does anything that walks do side by side.
-/

variable {α σ : Type} {store : Store σ} {outcome : Key → Except Failure String}

/-! ### Constant stores -/

namespace Store

/-- The state of a store after some fetches. -/
def after (store : Store σ) (s : σ) (keys : List Key) : σ :=
  keys.foldl (fun s key => (store key s).2) s

/-- Whatever was fetched before, the outcome of a fetch depends on the key alone. -/
def Constant (store : Store σ) (outcome : Key → Except Failure String) (s : σ) : Prop :=
  ∀ keys key, (store key (store.after s keys)).1.outcome = outcome key

/-- Whatever was fetched before, a fetch takes no time. -/
def Prompt (store : Store σ) (s : σ) : Prop :=
  ∀ keys key, (store key (store.after s keys)).1.delay = 0

/-- The same store, which also notes the keys of the fetches, the latest first. -/
def recorded (store : Store σ) : Store (σ × List Key) := fun key s =>
  ((store key s.1).1, (store key s.1).2, key :: s.2)

/-- Noting the fetches leaves the store in the same states. -/
theorem after_recorded (store : Store σ) (s : σ) (log keys : List Key) :
    (store.recorded.after (s, log) keys).1 = store.after s keys := by
  induction keys generalizing s log with
  | nil => rfl
  | cons key keys ih => exact ih (store key s).2 (key :: log)

namespace Constant

variable {s : σ}

theorem outcome_eq (h : store.Constant outcome s) (key : Key) :
    (store key s).1.outcome = outcome key := h [] key

theorem next (h : store.Constant outcome s) (key : Key) :
    store.Constant outcome (store key s).2 := fun keys => h (key :: keys)

/-- Noting the fetches does not change their outcomes. -/
theorem recorded {log : List Key} (h : store.Constant outcome s) :
    store.recorded.Constant outcome (s, log) := by
  intro keys key
  show (store key (store.recorded.after (s, log) keys).1).1.outcome = outcome key
  rw [after_recorded]
  exact h keys key

end Constant

namespace Prompt

variable {s : σ}

theorem delay_eq (h : store.Prompt s) (key : Key) : (store key s).1.delay = 0 := h [] key

theorem next (h : store.Prompt s) (key : Key) : store.Prompt (store key s).2 :=
  fun keys => h (key :: keys)

/-- Noting the fetches does not make them slower. -/
theorem recorded {log : List Key} (h : store.Prompt s) : store.recorded.Prompt (s, log) := by
  intro keys key
  show (store key (store.recorded.after (s, log) keys).1).1.delay = 0
  rw [after_recorded]
  exact h keys key

end Prompt

end Store

/-! ### Settled answers -/

namespace Cache

variable {c d : Cache} {key : Key} {secret : String}

/-- What a caller gets for a key: the usable secret, or else the trimmed outcome of a fetch. -/
def answer (outcome : Key → Except Failure String) (c : Cache) (key : Key) :
    Except Failure String :=
  match c.usable? key with
  | some secret => .ok secret
  | none => trimmed (outcome key)

theorem answer_of_some (h : c.usable? key = some secret) : c.answer outcome key = .ok secret := by
  simp only [answer, h]

theorem answer_of_none (h : c.usable? key = none) :
    c.answer outcome key = trimmed (outcome key) := by
  simp only [answer, h]

theorem answer_congr (h : ∀ key, c.usable? key = d.usable? key) :
    c.answer outcome = d.answer outcome := by
  funext key
  simp only [answer, h key]

@[simp] theorem answer_countFetch : c.countFetch.answer outcome = c.answer outcome :=
  answer_congr fun _ => rfl

/-- A fetch of a key that had no usable secret changes no answer. -/
theorem answer_finish (h : c.usable? key = none) :
    (c.finish key (outcome key)).1.answer outcome = c.answer outcome := by
  funext k
  by_cases hk : k = key
  · subst hk
    rw [answer_of_none h]
    -- What is usable now is what was fetched, and what is not will be fetched again.
    cases hu : (c.finish k (outcome k)).1.usable? k with
    | none => rw [answer_of_none hu]
    | some secret =>
      rw [answer_of_some hu]
      rcases usable?_finish_self hu with htrim | hbefore
      · exact htrim.symm
      · rw [h] at hbefore
        exact absurd hbefore (by simp)
  · simp only [answer, usable?_finish_of_ne hk]

/-- In an empty cache every answer is a fetch. -/
theorem answer_empty (keepEmpty : Bool) :
    (Cache.empty keepEmpty).answer outcome = fun key => trimmed (outcome key) := rfl

end Cache

/-! ### What a walk comes to -/

namespace Walk

/-- The result of a walk that gets settled answers. -/
def eval (answer : Key → Except Failure String) : Walk α → α
  | done result => result
  | note _ next => next.eval answer
  | ask key resume => (resume (answer key)).eval answer

/-- The keys for which a walk asks when it gets settled answers. -/
def asked (answer : Key → Except Failure String) : Walk α → List Key
  | done _ => []
  | note _ next => next.asked answer
  | ask key resume => key :: (resume (answer key)).asked answer

theorem eval_bind {β : Type} (answer : Key → Except Failure String) (w : Walk α)
    (f : α → Walk β) : (w.bind f).eval answer = (f (w.eval answer)).eval answer := by
  induction w with
  | done result => rfl
  | note notice next ih => exact ih
  | ask key resume ih => exact ih (answer key)

/-- **A walk on its own.**  Over a constant store it gets the settled answers, and it changes none
    of them. -/
theorem run_eval (w : Walk α) (s : Session σ) (h : store.Constant outcome s.store) :
    (w.run store s).result = w.eval (s.cache.answer outcome) ∧
      (w.run store s).session.cache.answer outcome = s.cache.answer outcome ∧
      store.Constant outcome (w.run store s).session.store := by
  induction w generalizing s with
  | done result => exact ⟨rfl, rfl, h⟩
  | note notice next ih => exact ih s h
  | ask key resume ih =>
    cases hu : s.cache.usable? key with
    | some secret =>
      have hanswer : s.cache.answer outcome key = .ok secret := Cache.answer_of_some hu
      have hrun := ih (.ok secret) s h
      simp only [run, hu, eval, hanswer]
      exact hrun
    | none =>
      have hanswer : s.cache.answer outcome key = trimmed (outcome key) := Cache.answer_of_none hu
      -- The fetch gives the settled answer, and leaves a cache that gives the same answers.
      have hrun := ih (trimmed (outcome key))
        ⟨(s.cache.countFetch.finish key (outcome key)).1, (store key s.store).2⟩ (h.next key)
      rw [Cache.answer_finish (by exact hu), Cache.answer_countFetch] at hrun
      simp only [run, hu, eval, hanswer, h.outcome_eq, Cache.finish_snd]
      exact hrun

end Walk

/-! ### What walks side by side come to -/

namespace Floor

variable {f g : Floor α σ} {c : Cache} {i : Nat}

/-- Nothing that happened on a floor changed an answer. -/
structure Steady (store : Store σ) (outcome : Key → Except Failure String) (c : Cache)
    (f : Floor α σ) : Prop where
  /-- The lines are in order. -/
  orderly : f.Orderly
  /-- The store is still constant. -/
  constant : store.Constant outcome f.store
  /-- The answers are those of the cache at the start. -/
  answer : f.desk.cache.answer outcome = c.answer outcome
  /-- Who fetches a key will get the outcome of the key. -/
  fetches : ∀ (i : Nat) (key : Key) o resume,
    f.stages[i]? = some (.fetching key o resume) → o = outcome key

namespace Steady

/-- Walks that have not begun changed no answer. -/
theorem start (walks : List (Walk α)) (s : Session σ) (h : store.Constant outcome s.store) :
    (Floor.start walks s).Steady store outcome s.cache where
  orderly := .start walks s
  constant := h
  answer := rfl
  fetches _ key o resume hat := absurd ⟨o, resume, hat⟩ (not_fetches_start walks s key)

/-- A change of one stage makes no fetch with a wrong outcome, unless it begins one. -/
theorem fetches_put (h : f.Steady store outcome c) {desk : Desk} {state : σ} {stage : Stage α}
    (hnew : ∀ key o resume, stage = .fetching key o resume → o = outcome key) :
    ∀ (j : Nat) (key : Key) o resume, (Floor.put ⟨desk, state, f.stages⟩ i stage).stages[j]?
      = some (.fetching key o resume) → o = outcome key := by
  intro j key o resume hat
  rcases of_stage_put hat with ⟨-, hstage⟩ | ⟨-, hbefore⟩
  · exact hnew key o resume hstage.symm
  · exact h.fetches j key o resume hbefore

/-- **One step** changes no answer. -/
theorem of_go (h : f.Steady store outcome c) (hgo : Go (fun _ => store) i f g) :
    g.Steady store outcome c := by
  have ho : g.Orderly := h.orderly.of_go hgo
  cases hgo with
  | note | done | hit | miss | enter =>
    exact ⟨ho, h.constant, h.answer, h.fetches_put (by simp)⟩
  | join at_ turn found =>
    refine ⟨ho, h.constant, ?_, h.fetches_put (by simp)⟩
    rw [Desk.begin_fst_of_some found]
    exact h.answer
  | @start key resume at_ turn found =>
    refine ⟨ho, h.constant.next key, ?_, h.fetches_put ?_⟩
    · rw [Desk.begin_fst_of_none found]
      exact h.answer
    · intro k o resume' hstage
      cases hstage
      exact h.constant.outcome_eq key
  | @finish key o resume at_ =>
    refine ⟨ho, h.constant, ?_, h.fetches_put (by simp)⟩
    -- Who fetches a key does so where it has no usable secret, so no answer is replaced.
    obtain rfl : o = outcome key := h.fetches i key o resume at_
    rw [Desk.finish_eq]
    show (f.desk.cache.finish key (outcome key)).1.answer outcome = c.answer outcome
    rw [Cache.answer_finish (h.orderly.fetcher i key ⟨_, _, at_⟩).2, h.answer]

/-- **Any number of steps**, with walks that are dropped, change no answer. -/
theorem of_steps (h : f.Steady store outcome c) (hsteps : Steps (fun _ => store) f g) :
    g.Steady store outcome c := by
  induction hsteps with
  | refl => exact h
  | tail _ hstep ih =>
    have ho := ih.orderly.of_step hstep
    cases hstep with
    | go hgo => exact ih.of_go hgo
    | @drop i stage at_ isOpen =>
      refine ⟨ho, ih.constant, ?_, ih.fetches_put (by simp)⟩
      exact (congrArg (Cache.answer outcome) (cache_deskWithout _ i stage)).trans ih.answer

end Steady

end Floor

end SecretFill
