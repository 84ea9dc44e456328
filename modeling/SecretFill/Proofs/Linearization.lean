import Mathlib.Data.Set.List
import SecretFill.Proofs.Sequence

namespace SecretFill

/-!
# Side by side is one after the other

Over a constant store, what walks have done in any order of steps is what a row of visits does one
after the other.  When all are finished these are the visits of `Walk.runAll` in another order.

* `Stage.owed`, `Stage.flying`, `Stage.comesTo?` — the keys for which a walk will still ask, the key
  that it fetches, and its result, all settled from the start.
* `Floor.Linear` — a floor amounts to a row of visits; `Floor.Linear.of_go` — one step goes on so.
* `Floor.Linear.agree` — finished walks leave what they leave one after the other.
-/

variable {α σ : Type} {store : Store σ} {outcome : Key → Except Failure String}

/-! ### What is still to come -/

namespace Stage

variable {answer : Key → Except Failure String} {key : Key}
  {resume : Except Failure String → Walk α}

/-- The keys for which a walk will still ask when it gets settled answers, or that it asks for
    already. -/
def owed (answer : Key → Except Failure String) : Stage α → List Key
  | going walk => walk.asked answer
  | missed key resume | inLine key resume | fetching key _ resume =>
    key :: (resume (answer key)).asked answer
  | finished _ | dropped => []

/-- The key that a walk fetches. -/
def flying : Stage α → List Key
  | fetching key .. => [key]
  | _ => []

/-- The result of a walk that gets settled answers, unless it was dropped. -/
def comesTo? (answer : Key → Except Failure String) : Stage α → Option α
  | going walk => some (walk.eval answer)
  | missed key resume | inLine key resume | fetching key _ resume =>
    some ((resume (answer key)).eval answer)
  | finished result => some result
  | dropped => none

end Stage

/-! ### A floor as a row of visits -/

namespace Floor

variable {f g : Floor α (σ × List Key)} {walks : List (Walk α)} {s : Session (σ × List Key)}
  {keys keys' : List Key} {i : Nat} {old new : Stage α}

/-- How often a key occurs in what the walks on a floor have to do with. -/
def tally (f : Floor α (σ × List Key)) (of : Stage α → List Key) (key : Key) : Nat :=
  Stage.total (fun stage => (of stage).count key) f.stages

/-- A walk that gets to another stage counts with what is of that stage. -/
theorem tally_set (of : Stage α → List Key) (key : Key) (at_ : f.stages[i]? = some old)
    (hg : g.stages = f.stages.set i new) :
    g.tally of key + (of old).count key = f.tally of key + (of new).count key := by
  unfold tally
  rw [hg]
  exact Stage.total_set _ at_

theorem tally_eq_zero {of : Stage α → List Key} {key : Key}
    (h : ∀ stage ∈ f.stages, of stage = []) : f.tally of key = 0 :=
  Stage.total_eq_zero fun stage hmem => by rw [h stage hmem, List.count_nil]

/-- Walks that have not begun owe all keys for which they ask. -/
theorem tally_start (walks : List (Walk α)) (s : Session (σ × List Key))
    (answer : Key → Except Failure String) (key : Key) :
    (Floor.start walks s).tally (Stage.owed answer) key
      = (walks.flatMap (Walk.asked answer)).count key := by
  unfold tally Floor.start
  induction walks with
  | nil => rfl
  | cons w walks ih =>
    rw [List.map_cons, List.flatMap_cons, List.count_append, Stage.total, ih]
    rfl

/-- What happened on a floor is what the visits for some keys do, except for the fetches in flight,
    which have been counted and have called the store. -/
structure Linear (store : Store σ) (outcome : Key → Except Failure String) (walks : List (Walk α))
    (s : Session (σ × List Key)) (f : Floor α (σ × List Key)) (keys : List Key) : Prop where
  /-- No answer was changed. -/
  steady : f.Steady store.recorded outcome s.cache
  /-- Every walk will come to its result. -/
  results : f.stages.map (Stage.comesTo? (s.cache.answer outcome))
    = walks.map fun w => some (w.eval (s.cache.answer outcome))
  /-- The keys that were visited and those still to be visited are all for which the walks ask. -/
  asked : ∀ key, keys.count key + f.tally (Stage.owed (s.cache.answer outcome)) key
    = (walks.flatMap (Walk.asked (s.cache.answer outcome))).count key
  /-- The visits lead to the secrets of the cache. -/
  secrets : f.desk.cache.secrets = (Book.after outcome s keys).cache.secrets
  /-- The same secrets count as cached. -/
  keepEmpty : f.desk.cache.keepEmpty = s.cache.keepEmpty
  /-- The visits make the calls of the store, up to those in flight. -/
  calls : ∀ key, f.store.2.count key
    = f.tally Stage.flying key + (Book.after outcome s keys).fetched.count key
  /-- The fetches are counted. -/
  fetches : f.desk.cache.fetches + s.store.2.length = s.cache.fetches + f.store.2.length

namespace Linear

/-- Walks that have not begun amount to no visits. -/
theorem start (walks : List (Walk α)) (s : Session (σ × List Key))
    (h : store.recorded.Constant outcome s.store) :
    (Floor.start walks s).Linear store outcome walks s [] where
  steady := .start walks s h
  results := by
    unfold Floor.start
    rw [List.map_map]
    rfl
  asked key := by
    rw [List.count_nil, Nat.zero_add]
    exact tally_start walks s _ key
  secrets := rfl
  keepEmpty := rfl
  calls key := by
    have hnone : (Floor.start walks s).tally Stage.flying key = 0 := by
      refine tally_eq_zero fun stage hmem => ?_
      obtain ⟨w, -, rfl⟩ := List.mem_map.1 hmem
      rfl
    rw [hnone, Nat.zero_add]
    rfl
  fetches := rfl

/-- A walk that gets to another stage keeps a floor linear if what it has visited since and what it
    will still visit make up for what it would have visited. -/
theorem put (h : f.Linear store outcome walks s keys) (at_ : f.stages[i]? = some old)
    (hg : g.stages = f.stages.set i new) (hsteady : g.Steady store.recorded outcome s.cache)
    (hresult : new.comesTo? (s.cache.answer outcome) = old.comesTo? (s.cache.answer outcome))
    (howed : ∀ key, keys'.count key + (new.owed (s.cache.answer outcome)).count key
      = keys.count key + (old.owed (s.cache.answer outcome)).count key)
    (hsecrets : g.desk.cache.secrets = (Book.after outcome s keys').cache.secrets)
    (hkeep : g.desk.cache.keepEmpty = f.desk.cache.keepEmpty)
    (hcalls : ∀ key, g.store.2.count key + old.flying.count key
        + (Book.after outcome s keys).fetched.count key
      = f.store.2.count key + new.flying.count key
        + (Book.after outcome s keys').fetched.count key)
    (hfetches : g.desk.cache.fetches + f.store.2.length
      = f.desk.cache.fetches + g.store.2.length) :
    g.Linear store outcome walks s keys' where
  steady := hsteady
  results := by
    have hmap : (f.stages.map (Stage.comesTo? (s.cache.answer outcome)))[i]?
        = some (old.comesTo? (s.cache.answer outcome)) := by
      rw [List.getElem?_map, at_]
      rfl
    obtain ⟨hlt, hget⟩ := List.getElem?_eq_some_iff.1 hmap
    rw [hg, List.map_set, hresult, ← hget, List.set_getElem_self]
    exact h.results
  asked key := by
    -- Only the stage of this walk counts differently.
    have hsum := tally_set (Stage.owed (s.cache.answer outcome)) key at_ hg
    have hbefore := h.asked key
    have hkey := howed key
    omega
  secrets := hsecrets
  keepEmpty := hkeep.trans h.keepEmpty
  calls key := by
    have hsum := tally_set Stage.flying key at_ hg
    have hbefore := h.calls key
    have hkey := hcalls key
    omega
  fetches := by
    have hbefore := h.fetches
    omega

/-- What is usable on a floor is usable after the visits. -/
theorem usable? (h : f.Linear store outcome walks s keys) (key : Key) :
    (Book.after outcome s keys).cache.usable? key = f.desk.cache.usable? key :=
  Cache.usable?_congr h.secrets.symm
    ((Book.keepEmpty_after s keys).trans h.keepEmpty.symm)

/-- The answer for a key is settled. -/
theorem answer_of_some (h : f.Linear store outcome walks s keys) {key : Key} {secret : String}
    (hu : f.desk.cache.usable? key = some secret) :
    s.cache.answer outcome key = .ok secret := by
  rw [← h.steady.answer]
  exact Cache.answer_of_some hu

/-- A step outside the desk, by which a walk comes no closer to a visit, changes nothing. -/
theorem put_aside (h : f.Linear store outcome walks s keys) (at_ : f.stages[i]? = some old)
    (hg : g.stages = f.stages.set i new) (hsteady : g.Steady store.recorded outcome s.cache)
    (hcache : g.desk.cache = f.desk.cache) (hstore : g.store = f.store)
    (hresult : new.comesTo? (s.cache.answer outcome) = old.comesTo? (s.cache.answer outcome))
    (howed : new.owed (s.cache.answer outcome) = old.owed (s.cache.answer outcome))
    (hflying : new.flying = old.flying) : g.Linear store outcome walks s keys := by
  refine h.put at_ hg hsteady hresult (fun key => ?_) ?_ ?_ (fun key => ?_) ?_
  · rw [howed]
  · rw [hcache]
    exact h.secrets
  · rw [hcache]
  · rw [hstore, hflying]
  · rw [hcache, hstore]

/-- A walk that gets a usable secret has visited its key. -/
theorem put_hit (h : f.Linear store outcome walks s keys) (at_ : f.stages[i]? = some old)
    {key : Key} {secret : String} {resume : Except Failure String → Walk α}
    (hu : f.desk.cache.usable? key = some secret)
    (hg : g.stages = f.stages.set i (.going (resume (.ok secret))))
    (hsteady : g.Steady store.recorded outcome s.cache)
    (hcache : g.desk.cache = f.desk.cache) (hstore : g.store = f.store)
    (hresult : old.comesTo? (s.cache.answer outcome)
      = some ((resume (s.cache.answer outcome key)).eval (s.cache.answer outcome)))
    (howed : old.owed (s.cache.answer outcome)
      = key :: (resume (s.cache.answer outcome key)).asked (s.cache.answer outcome))
    (hflying : old.flying = []) : g.Linear store outcome walks s (keys ++ [key]) := by
  have hanswer := h.answer_of_some hu
  have hb : (Book.after outcome s keys).cache.usable? (Visit.ofKey outcome key).key
      = some secret := (h.usable? key).trans hu
  refine h.put at_ hg hsteady ?_ (fun k => ?_) ?_ ?_ (fun k => ?_) ?_
  · rw [hresult, hanswer]
    rfl
  · rw [howed, hanswer, Stage.owed]
    simp only [List.count_append, List.count_cons, List.count_nil]
    omega
  · rw [hcache, Book.after_append, Book.visit_hit hb]
    exact h.secrets
  · rw [hcache]
  · rw [hstore, hflying, Book.after_append, Book.visit_hit hb]
    rfl
  · rw [hcache, hstore]

/-- **One step.**  A floor that amounts to a row of visits amounts to one afterwards. -/
theorem of_go (h : f.Linear store outcome walks s keys)
    (hgo : Go (fun _ => store.recorded) i f g) :
    ∃ keys, g.Linear store outcome walks s keys := by
  have hsteady := h.steady.of_go hgo
  -- A walk makes the visit that it owes when it gets its answer: at a hit, when it joins, or
  -- when its own fetch is over.
  cases hgo with
  | note at_ => exact ⟨keys, h.put_aside at_ rfl hsteady rfl rfl rfl rfl rfl⟩
  | done at_ => exact ⟨keys, h.put_aside at_ rfl hsteady rfl rfl rfl rfl rfl⟩
  | miss at_ found => exact ⟨keys, h.put_aside at_ rfl hsteady rfl rfl rfl rfl rfl⟩
  | enter at_ => exact ⟨keys, h.put_aside at_ rfl hsteady rfl rfl rfl rfl rfl⟩
  | @hit key resume secret at_ found =>
    exact ⟨keys ++ [key], h.put_hit at_ found rfl hsteady rfl rfl rfl rfl rfl⟩
  | @join key resume secret at_ turn found =>
    rw [Desk.begin_fst_of_some found] at hsteady ⊢
    rw [Desk.begin_snd] at found
    exact ⟨keys ++ [key], h.put_hit at_ found rfl hsteady rfl rfl rfl rfl rfl⟩
  | @start key resume at_ turn found =>
    rw [Desk.begin_fst_of_none found] at hsteady ⊢
    refine ⟨keys, h.put at_ rfl hsteady rfl (fun _ => rfl) h.secrets rfl (fun k => ?_) ?_⟩
    · -- The call is made, and it is in flight.
      show (key :: f.store.2).count k + 0 + _ = f.store.2.count k + [key].count k + _
      simp only [List.count_cons, List.count_nil]
      omega
    · show f.desk.cache.fetches + 1 + f.store.2.length
        = f.desk.cache.fetches + (f.store.2.length + 1)
      omega
  | @finish key o resume at_ =>
    obtain rfl : o = outcome key := h.steady.fetches i key o resume at_
    have hnone : f.desk.cache.usable? key = none :=
      (h.steady.orderly.fetcher i key ⟨_, _, at_⟩).2
    have hanswer : s.cache.answer outcome key = trimmed (outcome key) := by
      rw [← h.steady.answer]
      exact Cache.answer_of_none hnone
    -- The visit would find nothing usable either, and fetch.
    have hb : (Book.after outcome s keys).cache.usable? (Visit.ofKey outcome key).key = none :=
      (h.usable? key).trans hnone
    rw [Desk.finish_eq] at hsteady ⊢
    refine ⟨keys ++ [key], h.put at_ rfl hsteady ?_ (fun k => ?_) ?_ ?_ (fun k => ?_) ?_⟩
    · simp only [Stage.comesTo?, hanswer]
    · simp only [Stage.owed, hanswer, List.count_append, List.count_cons, List.count_nil]
      omega
    · rw [Book.after_append, Book.visit_miss hb]
      exact Cache.secrets_finish_congr h.secrets
    · exact Cache.keepEmpty_finish
    · rw [Book.after_append, Book.visit_miss hb]
      show f.store.2.count k + [key].count k + _
        = f.store.2.count k + 0 + (key :: (Book.after outcome s keys).fetched).count k
      simp only [List.count_cons, List.count_nil]
      omega
    · show (f.desk.cache.finish key (outcome key)).1.fetches + f.store.2.length
        = f.desk.cache.fetches + f.store.2.length
      rw [Cache.fetches_finish]

/-- **Any number of steps.**  Every floor that walks reach amounts to a row of visits. -/
theorem of_runs (h : f.Linear store outcome walks s keys)
    (hruns : Runs (fun _ => store.recorded) f g) :
    ∃ keys, g.Linear store outcome walks s keys := by
  induction hruns with
  | refl => exact ⟨keys, h⟩
  | tail _ hstep ih =>
    obtain ⟨keys, hlinear⟩ := ih
    obtain ⟨i, hgo⟩ := hstep
    exact hlinear.of_go hgo

/-- A walk that is finished has the result that it has on its own. -/
theorem result_eq (h : f.Linear store outcome walks s keys) {result : α}
    (at_ : f.stages[i]? = some (.finished result)) :
    ∃ w, walks[i]? = some w ∧ result = w.eval (s.cache.answer outcome) := by
  have hmap : (f.stages.map (Stage.comesTo? (s.cache.answer outcome)))[i]?
      = some (some result) := by
    rw [List.getElem?_map, at_]
    rfl
  rw [h.results, List.getElem?_map] at hmap
  obtain ⟨w, hw, hresult⟩ := Option.map_eq_some_iff.1 hmap
  exact ⟨w, hw, (Option.some.inj hresult).symm⟩

/-- No walk is dropped. -/
theorem not_dropped (h : f.Linear store outcome walks s keys) : Stage.dropped ∉ f.stages := by
  intro hmem
  have hnone : none ∈ f.stages.map (Stage.comesTo? (s.cache.answer outcome)) :=
    List.mem_map.2 ⟨_, hmem, rfl⟩
  rw [h.results] at hnone
  obtain ⟨w, -, hw⟩ := List.mem_map.1 hnone
  exact absurd hw (by simp)

/-- **Finished walks** have the results that they have one after the other, and leave what they
    leave then. -/
theorem agree (h : f.Linear store outcome walks s keys) (hdone : f.IsDone)
    (hconstant : store.recorded.Constant outcome s.store) :
    f.stages = (Walk.runAll store.recorded walks s).1.map .finished ∧
      f.session.Agree (Walk.runAll store.recorded walks s).2 := by
  obtain ⟨results, hstages⟩ : ∃ results : List α, results.map .finished = f.stages := by
    refine (Set.ext_iff.1 (Set.range_list_map Stage.finished) f.stages).2 fun stage hmem => ?_
    obtain ⟨result, rfl⟩ := hdone stage hmem
    exact ⟨result, rfl⟩
  obtain ⟨hresults, hkeeps⟩ := Walk.runAll_recorded walks s (.ofSession s) hconstant rfl rfl
  have hsome : results.map some = (walks.map (Walk.eval (s.cache.answer outcome))).map some := by
    have hmap := h.results
    rw [← hstages, List.map_map] at hmap
    rw [List.map_map]
    exact hmap
  have heval : results = walks.map (Walk.eval (s.cache.answer outcome)) :=
    List.map_inj_right (fun _ _ h => Option.some.inj h) |>.1 hsome
  -- Nothing is owed and nothing is in flight, so the visits are all for which the walks ask.
  have hnothing : ∀ {of : Stage α → List Key}, (∀ result, of (.finished result) = []) →
      ∀ key, f.tally of key = 0 := by
    intro of hof key
    refine tally_eq_zero fun stage hmem => ?_
    obtain ⟨result, rfl⟩ := hdone stage hmem
    exact hof result
  have hcalls : ∀ key, f.store.2.count key = (Book.after outcome s keys).fetched.count key := by
    intro key
    rw [h.calls, hnothing fun _ => rfl, Nat.zero_add]
  refine ⟨by rw [← hstages, hresults, heval], Book.Keeps.agree (b := Book.after outcome s keys)
    ⟨h.secrets, ?_, ?_, hcalls⟩ hkeeps (Book.after_alike s fun key => ?_)⟩
  · exact h.keepEmpty.trans (Book.keepEmpty_after s keys).symm
  · have hlength := (List.perm_iff_count.2 hcalls).length_eq
    have hbook : (Book.after outcome s keys).cache.fetches + s.store.2.length
        = s.cache.fetches + (Book.after outcome s keys).fetched.length :=
      Book.fetches_visits (.ofSession s) (keys.map (.ofKey outcome))
    have hfloor := h.fetches
    show f.desk.cache.fetches = _
    omega
  · have hasked := h.asked key
    rw [hnothing fun _ => rfl, Nat.add_zero] at hasked
    exact hasked

end Linear

end Floor

end SecretFill
