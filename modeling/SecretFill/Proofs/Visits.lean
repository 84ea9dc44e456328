import SecretFill.Proofs.Cache

namespace SecretFill

/-!
# Visits to a cache, one after the other

A visit looks for a usable secret and fetches where there is none.  Visits for different keys may be
made in either order, so of the order of many visits only that among the visits for each key counts.

* `Visit`, `Book` — a visit, and the cache together with what was fetched and answered so far.
* `Book.visit_comm` — visits for different keys commute.
* `Book.visits_alike` — rows of visits that agree key by key leave books that cannot be told apart.
-/

/-- A visit for a key, with the outcome that a fetch would have. -/
structure Visit (τ : Type) where
  /-- Who or what the visit is for. -/
  tag : τ
  /-- The key. -/
  key : Key
  /-- The outcome of a fetch. -/
  outcome : Except Failure String

/-- A cache and what was done at it, the latest first. -/
structure Book (τ : Type) where
  /-- The cache. -/
  cache : Cache
  /-- The tags of the visits that fetched. -/
  fetched : List τ
  /-- The answers to all visits. -/
  answers : List (τ × Except Failure String)

namespace Book

variable {τ : Type} {b d : Book τ} {v w : Visit τ} {key : Key}

/-- Makes a visit. -/
def visit (b : Book τ) (v : Visit τ) : Book τ :=
  match b.cache.usable? v.key with
  | some secret => { b with answers := (v.tag, .ok secret) :: b.answers }
  | none =>
    ⟨(b.cache.countFetch.finish v.key v.outcome).1, v.tag :: b.fetched,
      (v.tag, trimmed v.outcome) :: b.answers⟩

/-- Makes visits one after the other. -/
def visits (b : Book τ) (vs : List (Visit τ)) : Book τ := vs.foldl visit b

@[simp] theorem visits_cons (vs : List (Visit τ)) :
    b.visits (v :: vs) = (b.visit v).visits vs := rfl

theorem visits_append (vs ws : List (Visit τ)) : b.visits (vs ++ ws) = (b.visits vs).visits ws :=
  List.foldl_append

theorem visit_hit {secret : String} (h : b.cache.usable? v.key = some secret) :
    b.visit v = { b with answers := (v.tag, .ok secret) :: b.answers } := by
  simp only [visit, h]

theorem visit_miss (h : b.cache.usable? v.key = none) :
    b.visit v = ⟨(b.cache.countFetch.finish v.key v.outcome).1, v.tag :: b.fetched,
      (v.tag, trimmed v.outcome) :: b.answers⟩ := by
  simp only [visit, h]

/-! ### What a visit keeps -/

@[simp] theorem keepEmpty_visit : (b.visit v).cache.keepEmpty = b.cache.keepEmpty := by
  cases h : b.cache.usable? v.key with
  | none => simp [visit_miss h]
  | some secret => simp [visit_hit h]

@[simp] theorem keepEmpty_visits (vs : List (Visit τ)) :
    (b.visits vs).cache.keepEmpty = b.cache.keepEmpty := by
  induction vs generalizing b with
  | nil => rfl
  | cons v vs ih => rw [visits_cons, ih, keepEmpty_visit]

/-- A visit is of no concern to the other keys. -/
theorem usable?_visit_of_ne (h : key ≠ v.key) :
    (b.visit v).cache.usable? key = b.cache.usable? key := by
  cases hu : b.cache.usable? v.key with
  | none => rw [visit_miss hu, Cache.usable?_finish_of_ne h, Cache.usable?_countFetch]
  | some secret => rw [visit_hit hu]

/-- Fetches are counted as they are noted. -/
theorem fetches_visits (b : Book τ) (vs : List (Visit τ)) :
    (b.visits vs).cache.fetches + b.fetched.length
      = b.cache.fetches + (b.visits vs).fetched.length := by
  induction vs generalizing b with
  | nil => rfl
  | cons v vs ih =>
    have hrest := ih (b.visit v)
    rw [visits_cons]
    -- Only a visit that finds nothing usable fetches, and then it is noted.
    cases hu : b.cache.usable? v.key with
    | none =>
      have hcount : (b.visit v).cache.fetches = b.cache.fetches + 1 := by
        rw [visit_miss hu, Cache.fetches_finish, Cache.fetches_countFetch]
      have hnote : (b.visit v).fetched.length = b.fetched.length + 1 := by
        rw [visit_miss hu, List.length_cons]
      omega
    | some secret =>
      have hcache : (b.visit v).cache = b.cache := by rw [visit_hit hu]
      have hnote : (b.visit v).fetched = b.fetched := by rw [visit_hit hu]
      rw [hcache, hnote] at hrest
      exact hrest

theorem answers_subset_visits (vs : List (Visit τ)) : b.answers ⊆ (b.visits vs).answers := by
  induction vs generalizing b with
  | nil => exact List.Subset.refl _
  | cons v vs ih =>
    have hvisit : b.answers ⊆ (b.visit v).answers := by
      cases hu : b.cache.usable? v.key with
      | none =>
        rw [visit_miss hu]
        exact List.subset_cons_self _ _
      | some secret =>
        rw [visit_hit hu]
        exact List.subset_cons_self _ _
    exact List.Subset.trans hvisit ih

/-- Every visit gets one answer, and the notes are in their order. -/
theorem tags_visits (vs : List (Visit τ)) :
    (b.visits vs).answers.map (·.1) = (vs.map (·.tag)).reverse ++ b.answers.map (·.1) := by
  induction vs generalizing b with
  | nil => rfl
  | cons v vs ih =>
    have hvisit : (b.visit v).answers.map (·.1) = v.tag :: b.answers.map (·.1) := by
      cases hu : b.cache.usable? v.key with
      | none => rw [visit_miss hu, List.map_cons]
      | some secret => rw [visit_hit hu, List.map_cons]
    rw [visits_cons, ih, hvisit, List.map_cons, List.reverse_cons, List.append_assoc]
    rfl

/-- Other visits have no part in whether one fetched. -/
theorem mem_fetched_visits {tag : τ} {vs : List (Visit τ)} (h : ∀ v ∈ vs, v.tag ≠ tag) :
    tag ∈ (b.visits vs).fetched ↔ tag ∈ b.fetched := by
  induction vs generalizing b with
  | nil => exact Iff.rfl
  | cons v vs ih =>
    have hne : v.tag ≠ tag := h v List.mem_cons_self
    rw [visits_cons, ih fun w hw => h w (List.mem_cons_of_mem v hw)]
    cases hu : b.cache.usable? v.key with
    | none => simp [visit_miss hu, Ne.symm hne]
    | some secret => rw [visit_hit hu]

/-! ### Books that cannot be told apart -/

/-- Two books with caches that cannot be told apart and the same notes, in any order. -/
structure Alike (b d : Book τ) : Prop where
  /-- The caches cannot be told apart. -/
  cache : b.cache.Alike d.cache
  /-- The same visits fetched. -/
  fetched : b.fetched.Perm d.fetched
  /-- The same answers were given. -/
  answers : b.answers.Perm d.answers

theorem Alike.refl (b : Book τ) : b.Alike b := ⟨.refl _, .refl _, .refl _⟩

theorem Alike.trans {e : Book τ} (h : b.Alike d) (h' : d.Alike e) : b.Alike e :=
  ⟨h.cache.trans h'.cache, h.fetched.trans h'.fetched, h.answers.trans h'.answers⟩

theorem Alike.visit (h : b.Alike d) (v : Visit τ) : (b.visit v).Alike (d.visit v) := by
  have hsame := h.cache.usable? v.key
  cases hu : d.cache.usable? v.key with
  | none =>
    rw [visit_miss hu, visit_miss (hsame.trans hu)]
    exact ⟨h.cache.countFetch.finish _ _, h.fetched.cons _, h.answers.cons _⟩
  | some secret =>
    rw [visit_hit hu, visit_hit (hsame.trans hu)]
    exact ⟨h.cache, h.fetched, h.answers.cons _⟩

theorem Alike.visits (h : b.Alike d) (vs : List (Visit τ)) : (b.visits vs).Alike (d.visits vs) := by
  induction vs generalizing b d with
  | nil => exact h
  | cons v vs ih => exact ih (h.visit v)

/-- **Different keys commute.**  Two visits for different keys may be made in either order. -/
theorem visit_comm (h : v.key ≠ w.key) : ((b.visit v).visit w).Alike ((b.visit w).visit v) := by
  have hv : (b.visit w).cache.usable? v.key = b.cache.usable? v.key := usable?_visit_of_ne h
  have hw : (b.visit v).cache.usable? w.key = b.cache.usable? w.key :=
    usable?_visit_of_ne (Ne.symm h)
  -- Neither visit changes whether the other one finds a secret.
  cases hbv : b.cache.usable? v.key with
  | none =>
    rw [hbv] at hv
    cases hbw : b.cache.usable? w.key with
    | none =>
      rw [hbw] at hw
      rw [visit_miss hw, visit_miss hv, visit_miss hbv, visit_miss hbw]
      exact ⟨Cache.finish_comm h _ _, .swap _ _ _, .swap _ _ _⟩
    | some secret =>
      rw [hbw] at hw
      rw [visit_hit hw, visit_miss hv, visit_miss hbv, visit_hit hbw]
      exact ⟨.refl _, .refl _, .swap _ _ _⟩
  | some text =>
    rw [hbv] at hv
    cases hbw : b.cache.usable? w.key with
    | none =>
      rw [hbw] at hw
      rw [visit_miss hw, visit_hit hv, visit_hit hbv, visit_miss hbw]
      exact ⟨.refl _, .refl _, .swap _ _ _⟩
    | some secret =>
      rw [hbw] at hw
      rw [visit_hit hw, visit_hit hv, visit_hit hbv, visit_hit hbw]
      exact ⟨.refl _, .refl _, .swap _ _ _⟩

/-- A visit may be made before all those for other keys. -/
theorem visits_front (before after : List (Visit τ)) (h : ∀ w ∈ before, w.key ≠ v.key) :
    (b.visits (before ++ v :: after)).Alike (b.visits (v :: (before ++ after))) := by
  induction before generalizing b with
  | nil => exact .refl _
  | cons w before ih =>
    have hne : w.key ≠ v.key := h w List.mem_cons_self
    have hrest := ih (fun u hu => h u (List.mem_cons_of_mem w hu)) (b := b.visit w)
    -- The visit gets past the first of the others, and by induction past the rest.
    have hswap : ((b.visit w).visit v).Alike ((b.visit v).visit w) := visit_comm hne
    exact hrest.trans (hswap.visits (before ++ after))

/-- **Key by key.**  Two rows of visits in which each key has the same visits in the same order
    leave books that cannot be told apart. -/
theorem visits_alike {vs ws : List (Visit τ)}
    (h : ∀ key, vs.filter (·.key = key) = ws.filter (·.key = key)) :
    (b.visits vs).Alike (b.visits ws) := by
  induction ws generalizing b vs with
  | nil =>
    have hnil : vs = [] := by
      refine List.eq_nil_iff_forall_not_mem.2 fun v hv => ?_
      -- A visit that is left over would be one for its key.
      have hmem : v ∈ vs.filter (·.key = v.key) := List.mem_filter.2 ⟨hv, by simp⟩
      rw [h v.key] at hmem
      exact absurd hmem (by simp)
    rw [hnil]
    exact .refl _
  | cons v ws ih =>
    -- In the other row the same visit is the first one for its key.
    have hv := h v.key
    rw [List.filter_cons_of_pos (by simp)] at hv
    obtain ⟨before, after, rfl, hbefore, -, hafter⟩ := List.filter_eq_cons_iff.1 hv
    have hne : ∀ w ∈ before, w.key ≠ v.key := fun w hw hk => hbefore w hw (by simpa using hk)
    -- Without it the two rows still agree key by key.
    have hrest : ∀ key, (before ++ after).filter (·.key = key) = ws.filter (·.key = key) := by
      intro key
      by_cases hk : v.key = key
      · subst hk
        rw [List.filter_append, hafter,
          List.filter_eq_nil_iff.2 fun w hw => by simpa using hne w hw]
        rfl
      · have hkey := h key
        rw [List.filter_append, List.filter_cons_of_neg (by simpa using hk),
          List.filter_cons_of_neg (by simpa using hk), ← List.filter_append] at hkey
        exact hkey
    have hfront := visits_front before after hne (b := b)
    exact hfront.trans (ih hrest)

end Book

end SecretFill
