import SecretFill.Proofs.Interleaving

namespace SecretFill

/-!
# Order in the lines

Whatever the walks on a floor do, and whenever one of them is dropped, the lines before the desk
stay in order.  No key is left locked, and no usable secret is lost.

* `Floor.Orderly` — the lines hold exactly the walks that wait or fetch, each once, and a walk that
  fetches is first in line for a key without a usable secret.
* `Floor.Orderly.of_go`, `Floor.Orderly.of_steps` — one step keeps the order, so all do.
* `Floor.Orderly.exists_go` — unless all walks are over, one of them can go on.
* `Floor.Orderly.usable?_of_steps` — a usable secret stays.
-/

variable {α σ : Type}

namespace Floor

variable {f g : Floor α σ} {i j : Nat} {key : Key} {stage old : Stage α} {source : Source σ}

/-- The lines hold the walks that wait or fetch, and who fetches has the turn. -/
structure Orderly (f : Floor α σ) : Prop where
  /-- In the line for a key stand those that wait for the key or fetch it. -/
  stands : ∀ key i, i ∈ f.desk.line key ↔ f.place? i = some key
  /-- Nobody stands twice in a line. -/
  nodup : ∀ key, (f.desk.line key).Nodup
  /-- Who fetches a key is first in line for it, and no usable secret is there. -/
  fetcher : ∀ i key, f.Fetches i key →
    f.desk.isTurn i key = true ∧ f.desk.cache.usable? key = none

namespace Orderly

/-- Walks that have not begun leave the lines empty. -/
theorem start (walks : List (Walk α)) (s : Session σ) : (Floor.start walks s).Orderly where
  stands key i := by
    have hplace : (Floor.start walks s).place? i = none := by
      show ((walks.map Stage.going)[i]?.bind Stage.place?) = none
      rw [List.getElem?_map]
      cases walks[i]? <;> rfl
    rw [hplace]
    simp [Floor.start, Desk.idle]
  nodup key := List.nodup_nil
  fetcher i key h := absurd h (not_fetches_start walks s key)

/-- The order does not depend on the state of the store. -/
theorem of_store (h : f.Orderly) (store : σ) : ({ f with store } : Floor α σ).Orderly :=
  ⟨h.stands, h.nodup, h.fetcher⟩

/-- A walk that changes its stage outside the lines leaves them in order. -/
theorem put_outside (h : f.Orderly) (at_ : f.stages[i]? = some old) (hold : old.place? = none)
    (hnew : stage.place? = none) : (f.put i stage).Orderly where
  stands key j := by
    by_cases hj : j = i
    · subst hj
      rw [place?_put_self at_, hnew, ← hold, ← place?_of_at at_]
      exact h.stands key j
    · rw [place?_put_of_ne hj]
      exact h.stands key j
  nodup := h.nodup
  fetcher j key hf := by
    obtain ⟨outcome, resume, hat⟩ := hf
    rcases of_stage_put hat with ⟨-, rfl⟩ | ⟨-, hbefore⟩
    · exact absurd hnew (by simp [Stage.place?])
    · exact h.fetcher j key ⟨outcome, resume, hbefore⟩

/-- A walk that stands in line anew stands behind the others. -/
theorem put_enter (h : f.Orderly) {resume : Except Failure String → Walk α}
    (at_ : f.stages[i]? = some old) (hold : old.place? = none) :
    ((f.withDesk (f.desk.enter i key)).put i (.inLine key resume)).Orderly := by
  have at' : (f.withDesk (f.desk.enter i key)).stages[i]? = some old := at_
  -- The walk does not stand in any line yet.
  have hout : ∀ k, i ∉ f.desk.line k := by
    intro k hk
    rw [h.stands, place?_of_at at_, hold] at hk
    exact absurd hk (by simp)
  refine { stands := fun k j => ?_, nodup := fun k => ?_, fetcher := fun j k hf => ?_ }
  · show j ∈ (f.desk.enter i key).line k ↔ _
    rw [Desk.line_enter]
    by_cases hj : j = i
    · subst hj
      rw [place?_put_self at']
      by_cases hk : k = key
      · simp [hk, Stage.place?]
      · rw [if_neg hk]
        simp [hout k, Stage.place?, Ne.symm hk]
    · have hplace : (f.withDesk (f.desk.enter i key)).place? j = f.place? j := rfl
      rw [place?_put_of_ne hj, hplace, ← h.stands]
      by_cases hk : k = key
      · rw [if_pos hk, hk, List.mem_append, List.mem_singleton]
        exact ⟨fun hm => hm.resolve_right hj, .inl⟩
      · rw [if_neg hk]
  · show ((f.desk.enter i key).line k).Nodup
    rw [Desk.line_enter]
    split
    · rename_i hk
      subst hk
      refine List.nodup_append.2 ⟨h.nodup k, by simp, fun a ha b hb hab => ?_⟩
      rw [List.mem_singleton.1 hb] at hab
      exact hout k (hab ▸ ha)
    · exact h.nodup k
  · obtain ⟨outcome, resume', hat⟩ := hf
    rcases of_stage_put hat with ⟨-, hnew⟩ | ⟨-, hbefore⟩
    · cases hnew
    · obtain ⟨hturn, hnone⟩ := h.fetcher j k ⟨outcome, resume', hbefore⟩
      exact ⟨Desk.isTurn_enter hturn, hnone⟩

/-- A walk that leaves the line in which it stands takes the turn from nobody else.  The cache may
    change, unless somebody else fetches a key that becomes usable. -/
theorem put_leave (h : f.Orderly) (cache : Cache) (at_ : f.stages[i]? = some old)
    (hold : old.place? = some key) (hnew : stage.place? = none)
    (hcache : ∀ j k, j ≠ i → f.Fetches j k → cache.usable? k = none) :
    ((f.withDesk ({ f.desk with cache }.leave i key)).put i stage).Orderly := by
  have at' : (f.withDesk ({ f.desk with cache }.leave i key)).stages[i]? = some old := at_
  have hline : ∀ k, ({ f.desk with cache }.leave i key).line k
      = if k = key then (f.desk.line key).erase i else f.desk.line k := fun k => rfl
  refine { stands := fun k j => ?_, nodup := fun k => ?_, fetcher := fun j k hf => ?_ }
  · -- Only the walk that leaves is taken out of the line, and only out of its own.
    show j ∈ ({ f.desk with cache }.leave i key).line k ↔ _
    rw [hline]
    by_cases hj : j = i
    · subst hj
      rw [place?_put_self at', hnew]
      by_cases hk : k = key
      · rw [if_pos hk]
        simp [(h.nodup key).mem_erase_iff]
      · rw [if_neg hk, h.stands, place?_of_at at_, hold]
        simp [Ne.symm hk]
    · have hplace : (f.withDesk ({ f.desk with cache }.leave i key)).place? j = f.place? j := rfl
      rw [place?_put_of_ne hj, hplace, ← h.stands]
      by_cases hk : k = key
      · rw [if_pos hk, hk, List.mem_erase_of_ne hj]
      · rw [if_neg hk]
  · show (({ f.desk with cache }.leave i key).line k).Nodup
    rw [hline]
    split
    · exact (h.nodup key).erase i
    · exact h.nodup k
  · obtain ⟨outcome, resume, hat⟩ := hf
    rcases of_stage_put hat with ⟨-, rfl⟩ | ⟨hj, hbefore⟩
    · exact absurd hnew (by simp [Stage.place?])
    · have hf' : f.Fetches j k := ⟨outcome, resume, hbefore⟩
      exact ⟨Desk.isTurn_leave (h.fetcher j k hf').1 hj, hcache j k hj hf'⟩

/-- A walk that has the turn begins to fetch. -/
theorem put_start (h : f.Orderly) {outcome : Except Failure String}
    {resume resume' : Except Failure String → Walk α}
    (at_ : f.stages[i]? = some (.inLine key resume)) (turn : f.desk.isTurn i key = true)
    (hnone : f.desk.cache.usable? key = none) :
    ((f.withDesk { f.desk with cache := f.desk.cache.countFetch }).put i
      (.fetching key outcome resume')).Orderly := by
  have at' : (f.withDesk { f.desk with cache := f.desk.cache.countFetch }).stages[i]?
      = some (.inLine key resume) := at_
  refine { stands := fun k j => ?_, nodup := h.nodup, fetcher := fun j k hf => ?_ }
  · show j ∈ f.desk.line k ↔ _
    rw [h.stands]
    by_cases hj : j = i
    · subst hj
      rw [place?_put_self at', place?_of_at at_]
      rfl
    · rw [place?_put_of_ne hj]
      rfl
  · -- The walk itself has the turn; the turns and the usable secrets are as before.
    obtain ⟨outcome', resume'', hat⟩ := hf
    rcases of_stage_put hat with ⟨rfl, hnew⟩ | ⟨-, hbefore⟩
    · cases hnew
      exact ⟨turn, hnone⟩
    · exact h.fetcher j k ⟨outcome', resume'', hbefore⟩

/-- The end of a fetch makes no key usable that somebody else fetches. -/
theorem finish_cache (h : f.Orderly) {outcome : Except Failure String}
    (hf : f.Fetches i key) (j : Nat) (k : Key) (hj : j ≠ i) (hfj : f.Fetches j k) :
    (f.desk.cache.finish key outcome).1.usable? k = none := by
  obtain ⟨hturn, hnone⟩ := h.fetcher j k hfj
  -- Two walks that fetch one key would both have the turn.
  have hk : k ≠ key := by
    rintro rfl
    exact hj (Desk.isTurn_unique hturn (h.fetcher i k hf).1)
  rw [Cache.usable?_finish_of_ne hk, hnone]

/-- **One step.**  Whatever a walk does, the lines stay in order. -/
theorem of_go (h : f.Orderly) (hgo : Go source i f g) : g.Orderly := by
  -- Only those steps count by which a walk stands in line, leaves it or begins to fetch.
  cases hgo with
  | note at_ => exact h.put_outside at_ rfl rfl
  | done at_ => exact h.put_outside at_ rfl rfl
  | hit at_ found => exact h.put_outside at_ rfl rfl
  | miss at_ found => exact h.put_outside at_ rfl rfl
  | enter at_ => exact h.put_enter at_ rfl
  | join at_ turn found =>
    rw [Desk.begin_fst_of_some found]
    exact h.put_leave f.desk.cache at_ rfl rfl fun j k _ hf => (h.fetcher j k hf).2
  | start at_ turn found =>
    rw [Desk.begin_fst_of_none found]
    exact (h.put_start at_ turn (Desk.begin_snd.symm.trans found)).of_store _
  | finish at_ =>
    rw [Desk.finish_eq]
    exact h.put_leave _ at_ rfl rfl (h.finish_cache ⟨_, _, at_⟩)

/-- **One step, or a walk that is dropped.**  The lines stay in order. -/
theorem of_step (h : f.Orderly) (hstep : Step source f g) : g.Orderly := by
  cases hstep with
  | go hgo => exact h.of_go hgo
  | @drop i stage at_ isOpen =>
    unfold deskWithout
    split
    · rename_i key hplace
      exact h.put_leave f.desk.cache at_ hplace rfl fun j k _ hf => (h.fetcher j k hf).2
    · rename_i hplace
      exact h.put_outside at_ hplace rfl

/-- **Any number of steps.**  The lines stay in order. -/
theorem of_steps (h : f.Orderly) (hsteps : Steps source f g) : g.Orderly := by
  induction hsteps with
  | refl => exact h
  | tail _ hstep ih => exact ih.of_step hstep

/-! ### Progress -/

/-- Who has the turn for a key can go on: it looks into the cache, or its fetch comes to its end. -/
theorem exists_go_of_isTurn (h : f.Orderly) (source : Source σ)
    (turn : f.desk.isTurn i key = true) : ∃ g, Go source i f g := by
  have hplace : f.place? i = some key := (h.stands key i).1 (Desk.mem_line_of_isTurn turn)
  obtain ⟨stage, hat, hstage⟩ := Option.bind_eq_some_iff.1 hplace
  cases stage with
  | inLine k resume =>
    obtain rfl : k = key := Option.some.inj hstage
    cases hb : (f.desk.begin i k).2 with
    | none => exact ⟨_, .start hat turn hb⟩
    | some secret => exact ⟨_, .join hat turn hb⟩
  | fetching k outcome resume => exact ⟨_, .finish hat⟩
  | going | missed | finished | dropped => exact absurd hstage (by simp [Stage.place?])

/-- Somebody has the turn for a key that somebody waits for. -/
theorem exists_isTurn (h : f.Orderly) (hplace : f.place? i = some key) :
    ∃ j, f.desk.isTurn j key = true := by
  have hmem := (h.stands key i).2 hplace
  cases hl : f.desk.line key with
  | nil => rw [hl] at hmem; exact absurd hmem (by simp)
  | cons first rest => exact ⟨first, Desk.isTurn_iff.2 (by rw [hl]; rfl)⟩

/-- **Progress.**  As long as a walk is open, some walk can go on. -/
theorem exists_go (h : f.Orderly) (source : Source σ) (at_ : f.stages[i]? = some stage)
    (isOpen : stage.IsOpen) : ∃ j g, Go source j f g := by
  cases stage with
  | going walk =>
    cases walk with
    | done result => exact ⟨i, _, .done at_⟩
    | note notice next => exact ⟨i, _, .note at_⟩
    | ask key resume =>
      cases hc : f.desk.cache.usable? key with
      | none => exact ⟨i, _, .miss at_ hc⟩
      | some secret => exact ⟨i, _, .hit at_ hc⟩
  | missed key resume => exact ⟨i, _, .enter at_⟩
  | inLine key resume =>
    -- The walk itself may have to wait, but the first in its line can go on.
    obtain ⟨j, hturn⟩ := h.exists_isTurn (place?_of_at at_)
    obtain ⟨g, hgo⟩ := h.exists_go_of_isTurn source hturn
    exact ⟨j, g, hgo⟩
  | fetching key outcome resume => exact ⟨i, _, .finish at_⟩
  | finished | dropped => exact absurd isOpen (by simp [Stage.IsOpen])

/-! ### Secrets that stay -/

/-- A usable secret is not replaced: nobody fetches its key. -/
theorem usable?_of_step (h : f.Orderly) (hstep : Step source f g) {secret : String}
    (hu : f.desk.cache.usable? key = some secret) : g.desk.cache.usable? key = some secret := by
  rcases hstep.cache_cases with hsame | hbegun | ⟨i, k, outcome, resume, at_, hended⟩
  · rw [hsame, hu]
  · rw [hbegun, Cache.usable?_countFetch, hu]
  · -- What was fetched had no usable secret, so it is another key.
    have hne : key ≠ k := by
      rintro rfl
      rw [(h.fetcher i key ⟨_, _, at_⟩).2] at hu
      exact absurd hu (by simp)
    rw [hended, Cache.usable?_finish_of_ne hne, hu]

/-- A usable secret stays as it is in all that follows. -/
theorem usable?_of_steps (h : f.Orderly) (hsteps : Steps source f g) {secret : String}
    (hu : f.desk.cache.usable? key = some secret) : g.desk.cache.usable? key = some secret := by
  induction hsteps with
  | refl => exact hu
  | tail hbefore hstep ih => exact (h.of_steps hbefore).usable?_of_step hstep ih

end Orderly

end Floor

end SecretFill
