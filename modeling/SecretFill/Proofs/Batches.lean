import SecretFill.Proofs.Completion
import SecretFill.Proofs.Sequence
import SecretFill.Proofs.Transparency

namespace SecretFill

/-!
# What becomes of the documents of a batch

Both policies look at the same report of a document; a batch collects the reports or a failure, and
if no fetch takes time it fills its documents in order.

* `Batch.oneByOne` — documents one after the other.
* `report_asksAtMost`, `Batch.budget` — a document asks for one secret for each placeholder.
* `report_conclude` — the policies conclude from the same report of a document.
* `Batch.collect_filled`, `Batch.collect_failed` — what is collected from finished documents.
* `Schedule.pass_prompt` — documents whose fetches take no time are filled in order.
-/

variable {σ : Type} {store : Store σ} {outcome : Key → Except Failure String}

/-- Fills documents one after the other. -/
def Batch.oneByOne (store : Store σ) (policy : Policy) (documents : List String) (s : Session σ) :
    List (Except Failure Report) × Session σ :=
  Walk.runAll store (documents.map (report policy)) s

/-! ### How often a document asks -/

/-- A handle asks for one secret, or for none if it is malformed. -/
theorem resolve_asksAtMost (raw : String) : (resolve raw).AsksAtMost 1 := by
  unfold resolve
  cases Handle.parse raw with
  | error e => trivial
  | ok handle =>
    refine ⟨0, rfl, fun answer => ?_⟩
    cases answer with
    | error e => trivial
    | ok secret => cases h : render handle secret <;> simp [h, Walk.AsksAtMost]

/-- A row of segments asks for one secret for each placeholder. -/
theorem fill_asksAtMost (policy : Policy) (segments : List Segment) (r : Report) :
    (fill policy segments r).AsksAtMost (countPlaceholders segments) := by
  induction segments generalizing r with
  | nil => trivial
  | cons segment rest ih =>
    cases segment with
    | literal c => exact ih (r.keep c)
    | placeholder raw =>
      have hcount : countPlaceholders (.placeholder raw :: rest) = 1 + countPlaceholders rest := by
        unfold countPlaceholders
        rw [List.countP_cons_of_pos (by rfl), Nat.add_comm]
      rw [hcount, fill]
      refine (resolve_asksAtMost _).bind fun result => ?_
      -- Whatever the handle comes to, the rest of the row asks for no more than its placeholders.
      cases result with
      | ok text => exact ih _
      | error e =>
        cases policy with
        | abort => trivial
        | marker => exact ih _

/-- A document asks for one secret for each placeholder. -/
theorem report_asksAtMost (policy : Policy) (document : String) :
    (report policy document).AsksAtMost (countPlaceholders (segments document.toList)) :=
  fill_asksAtMost policy (segments document.toList) .empty

/-- The fuel for a batch covers its documents. -/
theorem Batch.budget (policy : Policy) (documents : List String) :
    Schedule.Budget ((documents.map (report policy)).map .ready)
      (3 * asks documents + (documents.map (report policy)).length) := by
  induction documents with
  | nil => trivial
  | cons d rest ih => exact .ready_cons (report_asksAtMost policy d) ih

/-! ### One report for both policies -/

/-- Given settled answers, some segments have one report behind what is there, and a policy
    concludes from the failures that are new. -/
theorem fill_conclude (answer : Key → Except Failure String) (segments : List Segment)
    (r : Report) : ∃ r' new, r'.failures = r.failures ++ new ∧
      (fill .marker segments r).eval answer = .ok r' ∧
      (fill .abort segments r).eval answer
        = match new with
          | [] => .ok r'
          | (_, e) :: _ => .error e := by
  induction segments generalizing r with
  | nil => exact ⟨r, [], (List.append_nil _).symm, rfl, rfl⟩
  | cons segment rest ih =>
    cases segment with
    | literal c => exact ih (r.keep c)
    | placeholder raw =>
      simp only [fill, Walk.eval_bind]
      cases (resolve (String.ofList raw)).eval answer with
      | ok text => exact ih (r.value text)
      | error e =>
        -- With markers the failure is the first new one; who gives up looks no further.
        obtain ⟨r', new, hnew, hmarker, -⟩ := ih (r.failure (String.ofList raw) e)
        refine ⟨r', (String.ofList raw, e) :: new, ?_, hmarker, rfl⟩
        rw [hnew, Report.failure, List.append_assoc]
        rfl

/-- **One report.**  Given settled answers, a document has one report, from which its policy
    concludes. -/
theorem report_conclude (answer : Key → Except Failure String) (document : String) :
    ∃ r, ∀ policy, (report policy document).eval answer = Reference.conclude policy r := by
  obtain ⟨r, new, hnew, hmarker, habort⟩ := fill_conclude answer (segments document.toList) .empty
  have hfailures : r.failures = new := hnew
  refine ⟨r, fun policy => ?_⟩
  cases policy with
  | marker => exact hmarker
  | abort =>
    show (fill .abort _ _).eval answer = Reference.conclude .abort r
    rw [habort]
    cases new with
    | nil => simp only [Reference.conclude, hfailures]
    | cons failure rest => simp only [Reference.conclude, hfailures]

/-! ### What is collected -/

namespace Batch

variable {statuses : List (Status (Except Failure Report))}

/-- If a document failed, a failure is collected. -/
theorem collect_failed (h : statuses.any failed = true) : ∃ e, collect statuses = .error e := by
  induction statuses with
  | nil => exact absurd h (by simp)
  | cons s rest ih =>
    have hrest : failed s = false → ∃ e, collect rest = .error e := by
      intro hs
      rw [List.any_cons, hs, Bool.false_or] at h
      exact ih h
    cases s with
    | ready | inLine | fetching => exact hrest rfl
    | finished result =>
      cases result with
      | error e => exact ⟨e, rfl⟩
      | ok r =>
        obtain ⟨e, hcollect⟩ := hrest rfl
        exact ⟨e, by rw [collect, hcollect]; rfl⟩

/-- Only the failure of a document is collected. -/
theorem mem_of_collect_error {e : Failure} (h : collect statuses = .error e) :
    .finished (.error e) ∈ statuses := by
  induction statuses with
  | nil => exact absurd h (by simp [collect])
  | cons s rest ih =>
    cases s with
    | ready | inLine | fetching => exact List.mem_cons_of_mem _ (ih h)
    | finished result =>
      cases result with
      | error e' =>
        cases h
        exact List.mem_cons_self
      | ok r =>
        refine List.mem_cons_of_mem _ (ih ?_)
        rw [collect] at h
        -- A document that is filled adds its report, and no failure.
        cases hrest : collect rest with
        | error e' =>
          rw [hrest] at h
          cases h
          rfl
        | ok reports =>
          rw [hrest] at h
          cases h

/-- If all documents are filled, their reports are collected. -/
theorem collect_filled (reports : List Report) :
    collect ((reports.map .ok).map .finished) = .ok reports := by
  induction reports with
  | nil => rfl
  | cons r rest ih =>
    rw [List.map_cons, List.map_cons, collect, ih]
    rfl

/-- The failure behind documents that are filled is collected. -/
theorem collect_append_error (reports : List Report) (e : Failure)
    (rest : List (Status (Except Failure Report))) :
    collect ((reports.map fun r => .finished (.ok r)) ++ .finished (.error e) :: rest)
      = .error e := by
  induction reports with
  | nil => rfl
  | cons r reports ih =>
    rw [List.map_cons, List.cons_append, collect, ih]
    rfl

/-- Only a failure halts. -/
theorem any_failed_of_halts (h : halts statuses = true) : statuses.any failed = true := by
  unfold halts at h
  split at h
  · exact h
  · obtain ⟨s, hs, hfailed⟩ := (Option.any_eq_true _ _).1 h
    have hmem : s ∈ statuses := (List.dropWhile_sublist _).subset (List.mem_of_head? hs)
    exact List.any_eq_true.2 ⟨s, hmem, hfailed⟩

/-- Documents that are filled, one that failed, and others that have not begun: this halts, however
    many they are. -/
theorem halts_eq (reports : List Report) (e : Failure)
    (rest : List (Status (Except Failure Report))) :
    halts ((reports.map fun r => .finished (.ok r)) ++ .finished (.error e) :: rest) = true := by
  unfold halts
  split
  · rw [List.any_append, List.any_cons]
    simp [failed]
  · rw [List.dropWhile_append_of_pos fun s hs => ?_]
    · rfl
    · obtain ⟨r, -, rfl⟩ := List.mem_map.1 hs
      rfl

/-- Documents that are filled and others that have not begun do not halt. -/
theorem not_halts (reports : List Report) (walks : List (Walk (Except Failure Report))) :
    halts ((reports.map fun r => .finished (.ok r)) ++ walks.map .ready) = false := by
  refine Bool.eq_false_iff.2 fun h => ?_
  obtain ⟨s, hs, hfailed⟩ := List.any_eq_true.1 (any_failed_of_halts h)
  rcases List.mem_append.1 hs with hmem | hmem <;>
    obtain ⟨x, -, rfl⟩ := List.mem_map.1 hmem <;> exact absurd hfailed (by simp [failed])

end Batch

/-! ### Fetches that take no time -/

/-- Who stands alone in line and leaves it leaves the desk idle. -/
theorem Desk.leave_enter_idle (cache cache' : Cache) (caller : Nat) (key : Key) :
    { (Desk.idle cache).enter caller key with cache := cache' }.leave caller key
      = .idle cache' := by
  unfold Desk.leave Desk.withLine Desk.idle
  congr 1
  funext k
  show (if k = key then _ else if k = key then _ else []) = []
  split <;> simp [Desk.enter, Desk.withLine]

/-- **A walk whose fetches take no time**, before an idle desk, is run to its end at once, and
    leaves what it leaves on its own. -/
theorem Walk.advance_prompt {α : Type} (walk : Walk α) (caller clock : Nat) (s : Session σ)
    (h : store.Prompt s.store) :
    walk.advance (fun _ => store) caller ⟨.idle s.cache, s.store, clock⟩
        = (.finished (walk.run store s).result,
          ⟨.idle (walk.run store s).session.cache, (walk.run store s).session.store, clock⟩) ∧
      store.Prompt (walk.run store s).session.store := by
  induction walk generalizing s with
  | done result => exact ⟨rfl, h⟩
  | note notice next ih => exact ih s h
  | ask key resume ih =>
    rw [Walk.advance_ask]
    cases hu : s.cache.usable? key with
    | some secret =>
      have hidle : (Desk.idle s.cache).cache.usable? key = some secret := hu
      simp only [run, hu, hidle]
      exact ih (.ok secret) s h
    | none =>
      have hidle : (Desk.idle s.cache).cache.usable? key = none := hu
      have hempty : ((Desk.idle s.cache).line key).isEmpty = true := rfl
      -- Nobody else is in line, so the turn comes and is over at once, and the desk is idle again.
      have hturn : World.turn (fun _ => store) caller key resume
          (fun answer => (resume answer).advance (fun _ => store) caller)
          ⟨(Desk.idle s.cache).enter caller key, s.store, clock⟩ = _ :=
        World.turn_prompt hu (h.delay_eq key)
      have hdesk : ((World.counted ⟨(Desk.idle s.cache).enter caller key, s.store, clock⟩).finish
          caller key (store key s.store).1.outcome).1
          = .idle (s.cache.countFetch.finish key (store key s.store).1.outcome).1 := by
        rw [Desk.finish_eq]
        exact Desk.leave_enter_idle _ _ caller key
      rw [hdesk] at hturn
      simp only [run, hu, hidle, hempty, if_true, hturn, Cache.finish_snd]
      exact ih (trimmed (store key s.store).1.outcome)
        ⟨(s.cache.countFetch.finish key (store key s.store).1.outcome).1, (store key s.store).2⟩
        (h.next key)

/-- A walk that has not begun is polled to its end, if its fetches take no time. -/
theorem Status.poll_prompt {α : Type} (walk : Walk α) (caller clock : Nat) (s : Session σ)
    (h : store.Prompt s.store) :
    (Status.ready walk).poll (fun _ => store) caller ⟨.idle s.cache, s.store, clock⟩
      = (.finished (walk.run store s).result,
        ⟨.idle (walk.run store s).session.cache, (walk.run store s).session.store, clock⟩) :=
  (walk.advance_prompt caller clock s h).1

/-- **Documents whose fetches take no time** are filled in order, and the first that fails is the
    last that is begun. -/
theorem Schedule.pass_prompt (before after : List String) (document : String) (e : Failure)
    (reports : List Report) (s : Session σ) (clock : Nat) (h : store.Prompt s.store)
    (hconstant : store.Constant outcome s.store)
    (hfilled : ∀ d ∈ before, ∃ r, (report .abort d).eval (s.cache.answer outcome) = .ok r)
    (hfailed : (report .abort document).eval (s.cache.answer outcome) = .error e) :
    ∃ reports' : List Report, pass (fun _ => store) Batch.halts
        (reports.map fun r => .finished (.ok r))
        (((before ++ document :: after).map (report .abort)).map .ready)
        ⟨.idle s.cache, s.store, clock⟩
      = ((reports'.map fun r => .finished (.ok r)) ++
          .finished (.error e) :: (after.map (report .abort)).map .ready,
        ⟨.idle (Batch.oneByOne store .abort (before ++ [document]) s).2.cache,
          (Batch.oneByOne store .abort (before ++ [document]) s).2.store, clock⟩, true) := by
  induction before generalizing reports s with
  | nil =>
    obtain ⟨hresult, -, -⟩ := (report .abort document).run_eval s hconstant
    rw [hfailed] at hresult
    refine ⟨reports, ?_⟩
    simp only [List.nil_append, List.map_cons, pass, Status.poll_prompt _ _ _ _ h, hresult,
      Batch.halts_eq, if_true]
    rfl
  | cons first before ih =>
    obtain ⟨hresult, hanswer, hconstant'⟩ := (report .abort first).run_eval s hconstant
    obtain ⟨r, hr⟩ := hfilled first List.mem_cons_self
    rw [hr] at hresult
    obtain ⟨-, hprompt⟩ := (report .abort first).advance_prompt 0 clock s h
    obtain ⟨reports', hrest⟩ := ih (reports ++ [r]) ((report .abort first).run store s).session
      hprompt hconstant'
      (fun d hd => hanswer ▸ hfilled d (List.mem_cons_of_mem _ hd)) (hanswer ▸ hfailed)
    -- A document that is filled does not halt the pass.
    have hgoes := Batch.not_halts (reports ++ [r])
      ((before ++ document :: after).map (report .abort))
    rw [List.map_append, List.append_assoc] at hgoes
    refine ⟨reports', ?_⟩
    rw [List.map_append] at hrest
    simp only [List.cons_append, List.map_cons, pass, Status.poll_prompt _ _ _ _ h, hresult]
    rw [if_neg (by rw [Bool.not_eq_true]; exact hgoes)]
    exact hrest

end SecretFill
