import SecretFill.Batch
import SecretFill.Proofs.Lines

namespace SecretFill

open Batch (requestSource)

/-!
# One fetch at a time for each key

Requests for secrets come to one cache in any order, each with an outcome of its own, and each may
be dropped while it waits or fetches.

* `Calls` — how the stage of each request fits what was fetched and what the cache holds;
  `Calls.of_go`, `Calls.of_steps` — it does so in every floor that can be reached.
* `requests_single_flight` — at most one fetch for a key is in flight; a key that is waited for is
  held by somebody who can go on; what was fetched with success is not fetched again; an answer is
  what the request fetched itself, or else what the cache holds.
-/

variable {f g : Floor (Except Failure String) (List Nat)} {requests : List Batch.Request}
  {i j : Nat} {key : Key}

/-! ### What a request may have got -/

/-- Where the answer to a request comes from: from its own fetch, or from the cache. -/
def IsAnswer (r : Batch.Request) (cache : Cache) (fetched : Prop) (answer : Except Failure String) :
    Prop :=
  (fetched ∧ answer = trimmed r.outcome) ∨
    (¬ fetched ∧ ∃ secret, answer = .ok secret ∧ cache.usable? r.key = some secret)

/-- How the stage of a request fits its key, its outcome, and whether it was fetched. -/
def Fits (r : Batch.Request) (cache : Cache) (fetched : Prop) : Stage (Except Failure String) → Prop
  | .going walk =>
    (walk = credential r.key ∧ ¬ fetched) ∨ ∃ answer, walk = .done answer ∧
      IsAnswer r cache fetched answer
  | .missed key resume | .inLine key resume => key = r.key ∧ resume = .done ∧ ¬ fetched
  | .fetching key outcome resume => key = r.key ∧ outcome = r.outcome ∧ resume = .done ∧ fetched
  | .finished answer => IsAnswer r cache fetched answer
  | .dropped => True

/-- The stages of all requests fit. -/
structure Calls (requests : List Batch.Request) (f : Floor (Except Failure String) (List Nat)) :
    Prop where
  /-- There is a stage for each request. -/
  length : f.stages.length = requests.length
  /-- It fits the request. -/
  fits : ∀ i r stage, requests[i]? = some r → f.stages[i]? = some stage →
    Fits r f.desk.cache (i ∈ f.store) stage

/-- An answer stays one as long as usable secrets stay. -/
theorem IsAnswer.mono {r : Batch.Request} {c d : Cache} {fetched : Prop}
    {answer : Except Failure String} (h : IsAnswer r c fetched answer)
    (hcache : ∀ secret, c.usable? r.key = some secret → d.usable? r.key = some secret) :
    IsAnswer r d fetched answer := by
  rcases h with h | ⟨hnot, secret, hok, hu⟩
  · exact .inl h
  · exact .inr ⟨hnot, secret, hok, hcache secret hu⟩

/-- A stage goes on to fit as long as usable secrets stay. -/
theorem Fits.mono {r : Batch.Request} {c d : Cache} {fetched : Prop}
    {stage : Stage (Except Failure String)} (h : Fits r c fetched stage)
    (hcache : ∀ secret, c.usable? r.key = some secret → d.usable? r.key = some secret) :
    Fits r d fetched stage := by
  cases stage with
  | going walk =>
    rcases h with h | ⟨answer, hwalk, hanswer⟩
    · exact .inl h
    · exact .inr ⟨answer, hwalk, hanswer.mono hcache⟩
  | missed | inLine | fetching => exact h
  | finished answer => exact IsAnswer.mono h hcache
  | dropped => trivial

/-- A fetch for a request gets its outcome, and is noted. -/
theorem requestSource_eq {r : Batch.Request} (h : requests[i]? = some r) (fetched : List Nat) :
    requestSource requests i key fetched = (⟨r.outcome, r.delay, []⟩, i :: fetched) := by
  simp only [requestSource, h]

namespace Calls

/-- Requests that have not begun fit. -/
theorem start (requests : List Batch.Request) (cache : Cache) :
    Calls requests (Floor.start (requests.map fun r => credential r.key) ⟨cache, []⟩) where
  length := by simp [Floor.start]
  fits i r stage hr hat := by
    have hstage : stage = .going (credential r.key) := by
      simp only [Floor.start, List.getElem?_map, hr, Option.map_some, Option.some.injEq] at hat
      exact hat.symm
    rw [hstage]
    exact .inl ⟨rfl, List.not_mem_nil⟩

/-- When one request changes its stage and usable secrets stay, only its own stage has to be looked
    at. -/
theorem put (h : Calls requests f) {desk : Desk} {store : List Nat}
    {stage : Stage (Except Failure String)} {r : Batch.Request} (hr : requests[i]? = some r)
    (hcache : ∀ k secret, f.desk.cache.usable? k = some secret →
      desk.cache.usable? k = some secret)
    (hstore : ∀ j, j ≠ i → (j ∈ store ↔ j ∈ f.store))
    (hfits : Fits r desk.cache (i ∈ store) stage) :
    Calls requests (Floor.put ⟨desk, store, f.stages⟩ i stage) where
  length := by
    show (f.stages.set i stage).length = requests.length
    rw [List.length_set, h.length]
  fits j r' stage' hr' hat := by
    rcases Floor.of_stage_put hat with ⟨rfl, rfl⟩ | ⟨hj, hbefore⟩
    · obtain rfl : r = r' := Option.some.inj (hr.symm.trans hr')
      exact hfits
    · show Fits r' desk.cache (j ∈ store) stage'
      rw [hstore j hj]
      exact (h.fits j r' stage' hr' hbefore).mono (hcache r'.key)

/-- A stage belongs to a request. -/
theorem exists_request (h : Calls requests f) {stage : Stage (Except Failure String)}
    (at_ : f.stages[i]? = some stage) : ∃ r, requests[i]? = some r := by
  obtain ⟨hlt, -⟩ := List.getElem?_eq_some_iff.1 at_
  exact ⟨_, List.getElem?_eq_getElem (h.length ▸ hlt)⟩

/-- **One step.**  The stages of all requests go on to fit. -/
theorem of_go (h : Calls requests f) (ho : f.Orderly) (hgo : Go (requestSource requests) i f g) :
    Calls requests g := by
  have hkeep : ∀ k secret, f.desk.cache.usable? k = some secret →
      g.desk.cache.usable? k = some secret := fun _ _ => ho.usable?_of_step (.go hgo)
  -- A request asks once and then has its answer, so most stages tell which step it was.
  cases hgo with
  | note at_ =>
    obtain ⟨r, hr⟩ := h.exists_request at_
    rcases h.fits i r _ hr at_ with ⟨hwalk, -⟩ | ⟨answer, hwalk, -⟩ <;> cases hwalk
  | done at_ =>
    obtain ⟨r, hr⟩ := h.exists_request at_
    rcases h.fits i r _ hr at_ with ⟨hwalk, -⟩ | ⟨answer, hwalk, hanswer⟩ <;> cases hwalk
    exact h.put hr hkeep (fun _ _ => Iff.rfl) hanswer
  | hit at_ found =>
    obtain ⟨r, hr⟩ := h.exists_request at_
    rcases h.fits i r _ hr at_ with ⟨hwalk, hnot⟩ | ⟨answer, hwalk, -⟩ <;> cases hwalk
    exact h.put hr hkeep (fun _ _ => Iff.rfl) (.inr ⟨_, rfl, .inr ⟨hnot, _, rfl, found⟩⟩)
  | miss at_ found =>
    obtain ⟨r, hr⟩ := h.exists_request at_
    rcases h.fits i r _ hr at_ with ⟨hwalk, hnot⟩ | ⟨answer, hwalk, -⟩ <;> cases hwalk
    exact h.put hr hkeep (fun _ _ => Iff.rfl) ⟨rfl, rfl, hnot⟩
  | enter at_ =>
    obtain ⟨r, hr⟩ := h.exists_request at_
    have hfits := h.fits i r _ hr at_
    exact h.put hr hkeep (fun _ _ => Iff.rfl) hfits
  | join at_ turn found =>
    obtain ⟨r, hr⟩ := h.exists_request at_
    obtain ⟨rfl, rfl, hnot⟩ := h.fits i r _ hr at_
    rw [Desk.begin_snd] at found
    exact h.put hr hkeep (fun _ _ => Iff.rfl)
      (.inr ⟨_, rfl, .inr ⟨hnot, _, rfl, hkeep _ _ found⟩⟩)
  | start at_ turn found =>
    obtain ⟨r, hr⟩ := h.exists_request at_
    obtain ⟨rfl, rfl, hnot⟩ := h.fits i r _ hr at_
    rw [requestSource_eq hr]
    exact h.put hr hkeep (fun j hj => by simp [hj]) ⟨rfl, rfl, rfl, List.mem_cons_self⟩
  | finish at_ =>
    obtain ⟨r, hr⟩ := h.exists_request at_
    obtain ⟨rfl, rfl, rfl, hfetched⟩ := h.fits i r _ hr at_
    refine h.put hr hkeep (fun _ _ => Iff.rfl) (.inr ⟨_, rfl, .inl ⟨hfetched, ?_⟩⟩)
    rw [Desk.finish_eq]

/-- **Any number of steps.**  The stages of all requests go on to fit. -/
theorem of_steps (h : Calls requests f) (ho : f.Orderly)
    (hsteps : Steps (requestSource requests) f g) : Calls requests g := by
  induction hsteps with
  | refl => exact h
  | @tail f' g' hbefore hstep ih =>
    have ho' : f'.Orderly := ho.of_steps hbefore
    have hkeep : ∀ k secret, f'.desk.cache.usable? k = some secret →
        g'.desk.cache.usable? k = some secret := fun _ _ => ho'.usable?_of_step hstep
    cases hstep with
    | go hgo => exact ih.of_go ho' hgo
    | drop at_ isOpen =>
      obtain ⟨r, hr⟩ := ih.exists_request at_
      exact ih.put hr hkeep (fun _ _ => Iff.rfl) trivial

end Calls

/-! ### The holder of a key -/

namespace Floor

variable {α σ : Type} {f : Floor α σ} {i j : Nat} {key : Key}

/-- A walk has the barrier of a key: it fetches the key, or the barrier was just handed to it. -/
def Holds (f : Floor α σ) (i : Nat) (key : Key) : Prop :=
  f.desk.isTurn i key = true ∧
    (f.Fetches i key ∨ ∃ resume, f.stages[i]? = some (.inLine key resume))

/-- Who has the turn has the barrier, and nobody else has it. -/
theorem Orderly.holds (h : f.Orderly) (turn : f.desk.isTurn i key = true) : f.Holds i key := by
  have hplace := (h.stands key i).1 (Desk.mem_line_of_isTurn turn)
  obtain ⟨stage, hat, hstage⟩ := Option.bind_eq_some_iff.1 hplace
  cases stage with
  | inLine k resume => cases hstage; exact ⟨turn, .inr ⟨resume, hat⟩⟩
  | fetching k outcome resume => cases hstage; exact ⟨turn, .inl ⟨outcome, resume, hat⟩⟩
  | going | missed | finished | dropped => exact absurd hstage (by simp [Stage.place?])

/-- **Somebody else has the barrier** of a key that is waited for, and nobody besides. -/
theorem Orderly.exists_holder (h : f.Orderly) (waits : f.Waits i key) :
    ∃! j, j ≠ i ∧ f.Holds j key := by
  obtain ⟨⟨resume, hat⟩, hturn⟩ := waits
  obtain ⟨j, hj⟩ := h.exists_isTurn (place?_of_at hat)
  refine ⟨j, ⟨?_, h.holds hj⟩, fun k hk => Desk.isTurn_unique hk.2.1 hj⟩
  -- Who waits does not have the turn, so it is somebody else.
  rintro rfl
  rw [hj] at hturn
  exact absurd hturn (by simp)

/-- **One fetch at a time** for each key. -/
theorem Orderly.fetches_unique (h : f.Orderly) (hi : f.Fetches i key) (hj : f.Fetches j key) :
    i = j :=
  Desk.isTurn_unique (h.fetcher i key hi).1 (h.fetcher j key hj).1

/-- A key with a usable secret is not fetched, now or later. -/
theorem Orderly.not_fetches_of_steps {g : Floor α σ} {source : Source σ} (h : f.Orderly)
    {secret : String} (hu : f.desk.cache.usable? key = some secret) (hsteps : Steps source f g) :
    ¬ g.Fetches j key := by
  intro hf
  have hnone := ((h.of_steps hsteps).fetcher j key hf).2
  rw [h.usable?_of_steps hsteps hu] at hnone
  exact absurd hnone (by simp)

/-- After a fetch that gave a usable secret, the secret is usable. -/
theorem usable?_of_finish {g : Floor α σ} {source : Source σ} {text : String}
    {resume : Except Failure String → Walk α}
    (at_ : f.stages[i]? = some (.fetching key (.ok text) resume))
    (husable : f.desk.cache.isUsable (Text.trim text) = true) (hgo : Go source i f g) :
    g.desk.cache.usable? key = some (Text.trim text) := by
  cases hgo with
  | @finish k outcome resume' at' =>
    cases Option.some.inj (at_.symm.trans at')
    rw [Desk.finish_eq]
    exact Cache.usable?_finish_ok husable
  | note at' | done at' | hit at' | miss at' | enter at' | join at' | start at' =>
    exact absurd (at_.symm.trans at') (by simp)

end Floor

/-! ### Single flight -/

/-- The requests before a cache, when none has begun. -/
def Batch.floor (requests : List Batch.Request) (cache : Cache) :
    Floor (Except Failure String) (List Nat) :=
  .start (requests.map fun r => credential r.key) ⟨cache, []⟩

/-- **Single flight.**  In every floor that requests can reach, in any order of steps and whichever
    of them are dropped: one fetch at a time for each key; whoever waits, waits for one other that
    can go on, and no line is without such a one; a secret that was fetched and may be given out is
    not fetched again; and a request gets the trimmed text of its own fetch, or else, without a
    fetch, what the cache holds for its key. -/
theorem requests_single_flight (requests : List Batch.Request) (cache : Cache)
    (hf : Steps (requestSource requests) (Batch.floor requests cache) f) :
    (∀ key i j, f.Fetches i key → f.Fetches j key → i = j) ∧
    (∀ key i, f.Waits i key → ∃! j, j ≠ i ∧ f.Holds j key) ∧
    (∀ key, f.desk.line key ≠ [] → ∃ j, f.Holds j key) ∧
    (∀ key j, f.Holds j key → ∃ g, Go (requestSource requests) j f g) ∧
    (∀ key i text resume f', f.stages[i]? = some (.fetching key (.ok text) resume) →
      (cache.keepEmpty = true ∨ Text.trim text ≠ "") → Go (requestSource requests) i f f' →
      ∀ g, Steps (requestSource requests) f' g → ∀ j, ¬ g.Fetches j key) ∧
    (∀ i r secret, requests[i]? = some r → f.stages[i]? = some (.finished (.ok secret)) →
      (i ∈ f.store ∧ ∃ text, r.outcome = .ok text ∧ secret = Text.trim text) ∨
      (i ∉ f.store ∧ f.desk.cache.usable? r.key = some secret)) := by
  have hstart : (Batch.floor requests cache).Orderly := .start _ _
  have ho : f.Orderly := hstart.of_steps hf
  have hcalls : Calls requests f := (Calls.start requests cache).of_steps hstart hf
  have hkeep : f.desk.cache.keepEmpty = cache.keepEmpty := keepEmpty_of_steps hf
  refine ⟨fun key i j => ho.fetches_unique, fun key i => ho.exists_holder, ?_, ?_, ?_, ?_⟩
  · intro key hline
    obtain ⟨first, rest, hl⟩ := List.exists_cons_of_ne_nil hline
    exact ⟨first, ho.holds (Desk.isTurn_iff.2 (by rw [hl]; rfl))⟩
  · intro key j hholds
    exact ho.exists_go_of_isTurn _ hholds.1
  · intro key i text resume f' hat husable hgo g hsteps j
    -- Whether the text may be given out was settled at the start.
    have hmay : f.desk.cache.isUsable (Text.trim text) = true := by
      unfold Cache.isUsable
      rw [hkeep]
      rcases husable with h | h <;> simp [h]
    exact (ho.of_go hgo).not_fetches_of_steps (Floor.usable?_of_finish hat hmay hgo) hsteps
  · intro i r secret hr hat
    rcases hcalls.fits i r _ hr hat with ⟨hfetched, hanswer⟩ | ⟨hnot, secret', hok, hu⟩
    · exact .inl ⟨hfetched, trimmed_eq_ok hanswer.symm⟩
    · cases hok
      exact .inr ⟨hnot, hu⟩

/-- Three requests for one key: the fetch of the first is dropped, so the second has the barrier and
    the third waits for it. -/
theorem requests_single_flight_after_drop :
    let key : Key := ⟨"db", "Password"⟩
    let requests : List Batch.Request :=
      [⟨key, .error (.storeMissing "lpass"), 20⟩, ⟨key, .ok " pw ", 5⟩, ⟨key, .ok "x", 0⟩]
    ∃ f, Steps (requestSource requests) (Batch.floor requests (.empty true)) f ∧
      f.store = [0] ∧ f.Waits 2 key ∧ f.Holds 1 key ∧ ∃! j, j ≠ 2 ∧ f.Holds j key := by
  intro key requests
  have hsteps : ∃ f, Steps (requestSource requests) (Batch.floor requests (.empty true)) f ∧
      f.store = [0] ∧ f.Waits 2 key ∧ f.Holds 1 key := by
    refine ⟨_, (((((((Relation.ReflTransGen.refl.tail (.go (.miss (i := 0) rfl rfl))).tail
      (.go (.enter (i := 0) rfl))).tail (.go (.start (i := 0) rfl rfl rfl))).tail
      (.go (.miss (i := 1) rfl rfl))).tail (.go (.enter (i := 1) rfl))).tail
      (.go (.miss (i := 2) rfl rfl))).tail (.go (.enter (i := 2) rfl))).tail
      (.drop (i := 0) rfl (by exact trivial)), rfl, ⟨⟨_, rfl⟩, rfl⟩, rfl, .inr ⟨_, rfl⟩⟩
  obtain ⟨f, hf, hstore, hwaits, hholds⟩ := hsteps
  exact ⟨f, hf, hstore, hwaits, hholds, (requests_single_flight requests _ hf).2.1 key 2 hwaits⟩

end SecretFill
