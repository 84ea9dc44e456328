import SecretFill.Proofs.Batches
import SecretFill.Proofs.Completion
import SecretFill.Proofs.Linearization
import SecretFill.Proofs.Termination

namespace SecretFill

/-!
# Documents side by side

Over a constant store, documents that are filled side by side come to what they come to one after
the other, in whatever order their fetches end.

* `report_alone` — a document that is filled has the result that it has on its own.
* `Batch.run_settled` — a batch ends as one after the other, or with the failure of a document.
* `Batch.run_marker`, `Batch.run_abort_ok_iff`, `Batch.run_abort_prompt` — what this means for each
  policy.
* `documents_schedule_independent` — the reports, the cached values and the counts do not depend on
  the schedule, and a failure is one that a document has on its own.
-/

variable {σ : Type} {store : Store σ} {outcome : Key → Except Failure String}

/-! ### Any schedule -/

section Settled

variable {documents : List String} {policy : Policy} {s : Session (σ × List Key)}

/-- Whatever happened so far, a document that is filled side by side has the result that it has on
    its own. -/
theorem Floor.Linear.report_eq {f : Floor (Except Failure Report) (σ × List Key)} {keys : List Key}
    (h : f.Linear store outcome (documents.map (report policy)) s keys) {i : Nat}
    {result : Except Failure Report} (at_ : f.stages[i]? = some (.finished result)) :
    ∃ d, documents[i]? = some d ∧ result = (report policy d).eval (s.cache.answer outcome) := by
  obtain ⟨w, hw, hresult⟩ := h.result_eq at_
  rw [List.getElem?_map] at hw
  obtain ⟨d, hd, rfl⟩ := Option.map_eq_some_iff.1 hw
  exact ⟨d, hd, hresult⟩

/-- **Side by side** documents either are all filled, and then as they are one after the other, or
    stop with the failure of one of them. -/
theorem Batch.run_settled (h : store.recorded.Constant outcome s.store) (documents : List String)
    (policy : Policy) :
    (∃ d ∈ documents, ∃ e, (report policy d).eval (s.cache.answer outcome) = .error e ∧
      (Batch.run store.recorded policy documents s).1 = .error e) ∨
    ((Batch.run store.recorded policy documents s).1 = Batch.collect
        ((Batch.oneByOne store.recorded policy documents s).1.map .finished) ∧
      (Batch.run store.recorded policy documents s).2.Agree
        (Batch.oneByOne store.recorded policy documents s).2) := by
  obtain ⟨f, hruns, hsession, hstages⟩ := Schedule.run_runs (fun _ => store.recorded) Batch.halts
    (Batch.asks documents) (documents.map (report policy)) s
  obtain ⟨keys, hlinear⟩ := (Floor.Linear.start _ _ h).of_runs hruns
  rcases Schedule.run_ends Batch.halts (Batch.asks documents) (documents.map (report policy))
    s (Batch.budget policy documents) with hhalts | ⟨results, hresults⟩
  · left
    -- The failure that is collected is that of a document that is finished.
    obtain ⟨e, hcollect⟩ := Batch.collect_failed (Batch.any_failed_of_halts hhalts)
    have hmem := Batch.mem_of_collect_error hcollect
    have hfinished : Stage.finished (.error e) ∈ f.stages := by
      rw [hstages]
      exact List.mem_map.2 ⟨_, hmem, rfl⟩
    obtain ⟨i, hat⟩ := List.mem_iff_getElem?.1 hfinished
    obtain ⟨d, hd, hresult⟩ := hlinear.report_eq hat
    exact ⟨d, List.mem_of_getElem? hd, e, hresult.symm, hcollect⟩
  · right
    have hfinished : f.stages = results.map .finished := by
      rw [hstages, ← hresults, List.map_map]
      rfl
    obtain ⟨hall, hagree⟩ := hlinear.agree (Floor.isDone_of_stages hfinished) h
    -- What the documents have come to is what they come to one after the other.
    have hsame : results = (Batch.oneByOne store.recorded policy documents s).1 := by
      rw [hfinished] at hall
      exact List.map_inj_right (fun _ _ h => Stage.finished.inj h) |>.1 hall
    rw [hsession] at hagree
    refine ⟨?_, hagree⟩
    rw [← hsame, hresults]
    rfl

end Settled

section Recording

variable {documents : List String} {policy : Policy} {s : Session σ}

/-- The result of a document does not depend on when its calls began to be noted. -/
theorem report_alone (h : store.Constant outcome s.store)
    {f : Floor (Except Failure Report) (σ × List Key)}
    (hruns : Runs (fun _ => store.recorded)
      (.start (documents.map (report policy)) s.recording) f)
    {i : Nat} {result : Except Failure Report} (at_ : f.stages[i]? = some (.finished result)) :
    ∃ d, documents[i]? = some d ∧ result = (report policy d).eval (s.cache.answer outcome) := by
  have hconstant : store.recorded.Constant outcome s.recording.store := h.recorded
  obtain ⟨keys, hlinear⟩ := (Floor.Linear.start _ _ hconstant).of_runs hruns
  exact hlinear.report_eq at_

/-- Documents side by side, their calls being noted from now on. -/
theorem Batch.run_recorded (h : store.Constant outcome s.store) (documents : List String)
    (policy : Policy) :
    (∃ d ∈ documents, ∃ e, (report policy d).eval (s.cache.answer outcome) = .error e ∧
      (Batch.run store.recorded policy documents s.recording).1 = .error e) ∨
    ((Batch.run store.recorded policy documents s.recording).1 = Batch.collect
        ((Batch.oneByOne store.recorded policy documents s.recording).1.map .finished) ∧
      (Batch.run store.recorded policy documents s.recording).2.Agree
        (Batch.oneByOne store.recorded policy documents s.recording).2) :=
  run_settled (s := s.recording) h.recorded documents policy

/-- What a document comes to on its own, its calls being noted. -/
theorem report_run_eval (h : store.Constant outcome s.store) (policy : Policy) (d : String) :
    ((report policy d).run store.recorded s.recording).result
      = (report policy d).eval (s.cache.answer outcome) := by
  have hconstant : store.recorded.Constant outcome s.recording.store := h.recorded
  exact ((report policy d).run_eval s.recording hconstant).1

namespace Batch

/-- One after the other documents come to what each of them comes to. -/
theorem oneByOne_eval (h : store.Constant outcome s.store) (policy : Policy) :
    (oneByOne store.recorded policy documents s.recording).1
      = documents.map fun d => (report policy d).eval (s.cache.answer outcome) := by
  have hconstant : store.recorded.Constant outcome s.recording.store := h.recorded
  have hresults := (Walk.runAll_recorded (documents.map (report policy)) s.recording
    (.ofSession s.recording) hconstant rfl rfl).1
  rw [List.map_map] at hresults
  exact hresults

variable {r : String → Report}

/-- With markers documents come to their reports one after the other. -/
theorem oneByOne_marker (h : store.Constant outcome s.store)
    (hr : ∀ d policy, (report policy d).eval (s.cache.answer outcome)
      = Reference.conclude policy (r d)) :
    (oneByOne store.recorded .marker documents s.recording).1 = (documents.map r).map .ok := by
  rw [oneByOne_eval h, List.map_map]
  exact List.map_congr_left fun d _ => hr d .marker

/-- **With markers** all documents are filled, side by side as one after the other. -/
theorem run_marker (h : store.Constant outcome s.store)
    (hr : ∀ d policy, (report policy d).eval (s.cache.answer outcome)
      = Reference.conclude policy (r d)) :
    (run store.recorded .marker documents s.recording).1 = .ok (documents.map r) ∧
      (run store.recorded .marker documents s.recording).2.Agree
        (oneByOne store.recorded .marker documents s.recording).2 := by
  rcases run_recorded h documents .marker with ⟨d, -, e, he, -⟩ | ⟨hcollect, hagree⟩
  · rw [hr] at he
    exact absurd he (by simp [Reference.conclude])
  · refine ⟨?_, hagree⟩
    rw [hcollect, oneByOne_marker h hr, collect_filled]

/-- A failure that stops the documents is one that a document has on its own. -/
theorem run_abort_error (h : store.Constant outcome s.store) {e : Failure}
    (he : (run store.recorded .abort documents s.recording).1 = .error e) :
    ∃ d ∈ documents, (report .abort d).eval (s.cache.answer outcome) = .error e := by
  rcases run_recorded h documents .abort with ⟨d, hd, e', he', herror⟩ | ⟨hcollect, -⟩
  · rw [herror] at he
    cases he
    exact ⟨d, hd, he'⟩
  · rw [hcollect, oneByOne_eval h] at he
    obtain ⟨result, hmem, hresult⟩ := List.mem_map.1 (mem_of_collect_error he)
    obtain ⟨d, hd, rfl⟩ := List.mem_map.1 hmem
    exact ⟨d, hd, Status.finished.inj hresult⟩

/-- If all reports are complete, who would give up gets them. -/
theorem run_abort_complete (h : store.Constant outcome s.store)
    (hr : ∀ d policy, (report policy d).eval (s.cache.answer outcome)
      = Reference.conclude policy (r d))
    (hcomplete : ∀ d ∈ documents, (r d).isComplete = true) :
    (run store.recorded .abort documents s.recording).1 = .ok (documents.map r) := by
  have hok : ∀ d ∈ documents, (report .abort d).eval (s.cache.answer outcome) = .ok (r d) :=
    fun d hd => (hr d .abort).trans (Reference.conclude_abort_ok.2 ⟨rfl, hcomplete d hd⟩)
  rcases run_recorded h documents .abort with ⟨d, hd, e, he, -⟩ | ⟨hcollect, -⟩
  · rw [hok d hd] at he
    cases he
  · have hmap : documents.map (fun d => (.ok (r d) : Except Failure Report))
        = (documents.map r).map .ok := by
      rw [List.map_map]
      rfl
    rw [hcollect, oneByOne_eval h, List.map_congr_left hok, hmap, collect_filled]

/-- **Who gives up** gets the reports iff all of them are complete. -/
theorem run_abort_ok_iff (h : store.Constant outcome s.store)
    (hr : ∀ d policy, (report policy d).eval (s.cache.answer outcome)
      = Reference.conclude policy (r d)) {reports : List Report} :
    (run store.recorded .abort documents s.recording).1 = .ok reports ↔
      reports = documents.map r ∧ ∀ r' ∈ documents.map r, r'.isComplete = true := by
  constructor
  · intro hok
    have hcomplete : ∀ d ∈ documents, (r d).isComplete = true := by
      intro d hd
      rcases run_recorded h documents .abort with ⟨_, -, e, -, herror⟩ | ⟨hcollect, -⟩
      · rw [hok] at herror
        cases herror
      · cases hd' : Reference.conclude .abort (r d) with
        | ok r' => exact (Reference.conclude_abort_ok.1 hd').2
        | error e =>
          -- This document would have failed, and some failure would have been collected.
          have hmem : .error e ∈ (oneByOne store.recorded .abort documents s.recording).1 := by
            rw [oneByOne_eval h, ← hd', ← hr d .abort]
            exact List.mem_map.2 ⟨d, hd, rfl⟩
          obtain ⟨e', he'⟩ := collect_failed
            (List.any_eq_true.2 ⟨.finished (.error e), List.mem_map_of_mem hmem, rfl⟩)
          rw [hok, he'] at hcollect
          cases hcollect
    have hreports := run_abort_complete h hr hcomplete
    rw [hok] at hreports
    refine ⟨Except.ok.inj hreports, fun r' hr' => ?_⟩
    obtain ⟨d, hd, rfl⟩ := List.mem_map.1 hr'
    exact hcomplete d hd
  · rintro ⟨rfl, hcomplete⟩
    exact run_abort_complete h hr fun d hd => hcomplete (r d) (List.mem_map_of_mem hd)

/-- **If no fetch takes time**, the first document that fails stops the others before they begin. -/
theorem run_abort_prompt (h : store.Constant outcome s.store) (hprompt : store.Prompt s.store)
    (before after : List String) (document : String) (e : Failure)
    (hbefore : ∀ d ∈ before, ∃ r, (report .abort d).eval (s.cache.answer outcome) = .ok r)
    (hfailed : (report .abort document).eval (s.cache.answer outcome) = .error e) :
    run store.recorded .abort (before ++ document :: after) s.recording
      = (.error e, (oneByOne store.recorded .abort (before ++ [document]) s.recording).2) := by
  have hconstant : store.recorded.Constant outcome s.recording.store := h.recorded
  have hprompt' : store.recorded.Prompt s.recording.store := hprompt.recorded
  obtain ⟨reports, hpass⟩ := Schedule.pass_prompt before after document e [] s.recording 0
    hprompt' hconstant hbefore hfailed
  rw [List.map_nil] at hpass
  simp only [run, Schedule.run, Schedule.loop, hpass, collect_append_error]
  rfl

end Batch

end Recording

/-- **Schedule independence.**  Over a constant store, for documents that are filled side by side:

    every order of steps comes to an end; a document that is filled has the result that it has on
    its own; and once nobody can go on, the results, the cached values, the count of fetches and the
    calls for each key are those of filling the documents one after the other;

    with markers there is a report for each document, the same ones as one after the other; who
    gives up gets these reports if all of them are complete, and otherwise the failure that one of
    the documents has on its own; if no fetch takes time, this is the first document that fails, and
    the ones behind it call the store for nothing. -/
theorem documents_schedule_independent (store : Store σ) (outcome : Key → Except Failure String)
    (documents : List String) (s : Session σ) (h : store.Constant outcome s.store) :
    (∀ policy,
      Acc (fun g f => ∃ i, Go (fun _ => store.recorded) i f g)
        (Floor.start (documents.map (report policy)) s.recording) ∧
      ∀ f, Runs (fun _ => store.recorded)
          (Floor.start (documents.map (report policy)) s.recording) f →
        (∀ (i : Nat) result, f.stages[i]? = some (.finished result) →
          ∃ d, documents[i]? = some d ∧
            result = ((report policy d).run store.recorded s.recording).result) ∧
        ((¬ ∃ i g, Go (fun _ => store.recorded) i f g) →
          f.stages
            = (Batch.oneByOne store.recorded policy documents s.recording).1.map Stage.finished ∧
          f.session.Agree (Batch.oneByOne store.recorded policy documents s.recording).2)) ∧
    ∃ reports : List Report,
      (Batch.oneByOne store.recorded .marker documents s.recording).1 = reports.map .ok ∧
      (Batch.run store.recorded .marker documents s.recording).1 = .ok reports ∧
      (Batch.run store.recorded .marker documents s.recording).2.Agree
        (Batch.oneByOne store.recorded .marker documents s.recording).2 ∧
      (∀ reports', (Batch.run store.recorded .abort documents s.recording).1 = .ok reports' ↔
        reports' = reports ∧ ∀ r ∈ reports, r.isComplete = true) ∧
      (∀ e, (Batch.run store.recorded .abort documents s.recording).1 = .error e →
        ∃ d ∈ documents,
          ((report .abort d).run store.recorded s.recording).result = .error e) ∧
      (store.Prompt s.store → ∀ before d after e, documents = before ++ d :: after →
        (∀ b ∈ before, ∃ r, ((report .abort b).run store.recorded s.recording).result = .ok r) →
        ((report .abort d).run store.recorded s.recording).result = .error e →
        Batch.run store.recorded .abort documents s.recording
          = (.error e,
            (Batch.oneByOne store.recorded .abort (before ++ [d]) s.recording).2)) := by
  have hconstant : store.recorded.Constant outcome s.recording.store := h.recorded
  -- What each document comes to over the settled answers decides the rest.
  choose r hr using report_conclude (s.cache.answer outcome)
  refine ⟨fun policy => ⟨(Floor.Steady.start _ _ hconstant).acc, fun f hruns => ⟨?_, ?_⟩⟩,
    documents.map r, Batch.oneByOne_marker h hr, (Batch.run_marker h hr).1,
    (Batch.run_marker h hr).2, fun reports => Batch.run_abort_ok_iff h hr, ?_, ?_⟩
  · intro i result hat
    obtain ⟨d, hd, hresult⟩ := report_alone h hruns hat
    exact ⟨d, hd, hresult.trans (report_run_eval h policy d).symm⟩
  · intro hstuck
    obtain ⟨keys, hlinear⟩ := (Floor.Linear.start _ _ hconstant).of_runs hruns
    have hdone : f.IsDone :=
      hlinear.steady.orderly.isDone (fun _ => store.recorded) hlinear.not_dropped hstuck
    exact hlinear.agree hdone hconstant
  · intro e he
    obtain ⟨d, hd, hresult⟩ := Batch.run_abort_error h he
    exact ⟨d, hd, (report_run_eval h .abort d).trans hresult⟩
  · intro hprompt before d after e hdocuments hbefore hfailed
    rw [report_run_eval h] at hfailed
    rw [hdocuments]
    refine Batch.run_abort_prompt h hprompt before after d e (fun b hb => ?_) hfailed
    obtain ⟨r', hr'⟩ := hbefore b hb
    exact ⟨r', (report_run_eval h .abort b).symm.trans hr'⟩

/-- A malformed handle in the second of three documents: the first one is filled, and nothing is
    fetched for the third. -/
theorem documents_schedule_independent_malformed :
    let m : MemoryStore := {
      secrets := [(⟨"db", "Password"⟩, " pw\n"), (⟨"db", "URL"⟩, "local")]
      failures := []
      delay := 0
      history := [] }
    let s : Session MemoryStore := ⟨.empty true, m⟩
    let documents := ["a: ((db/Password))", "((x))", "((db/URL))"]
    (∃ reports, (Batch.run MemoryStore.fetch.recorded .marker documents s.recording).1
      = .ok reports) ∧
    (Batch.run MemoryStore.fetch.recorded .abort documents s.recording).1
      = .error (.malformedHandle "x" HandleFault.tooFew.message) ∧
    (Batch.run MemoryStore.fetch.recorded .abort documents s.recording).2.store.2
      = [⟨"db", "Password"⟩] := by
  intro m s documents
  obtain ⟨-, reports, -, hmarker, -, -, -, hprompt⟩ :=
    documents_schedule_independent MemoryStore.fetch m.outcome documents s m.constant
  have hfirst : segments "a: ((db/Password))".toList = [.literal 'a', .literal ':', .literal ' ',
      .placeholder ['d', 'b', '/', 'P', 'a', 's', 's', 'w', 'o', 'r', 'd']] := by cbv
  have hsecond : segments "((x))".toList = [.placeholder ['x']] := by cbv
  have hfilled : ((report .abort "a: ((db/Password))").run MemoryStore.fetch.recorded
      s.recording).result = .ok ⟨"a: \"pw\"", 1, []⟩ := by
    rw [report, hfirst]
    rfl
  have hfailed : ((report .abort "((x))").run MemoryStore.fetch.recorded s.recording).result
      = .error (.malformedHandle "x" HandleFault.tooFew.message) := by
    rw [report, hsecond]
    rfl
  have hrun := hprompt (m.prompt rfl) ["a: ((db/Password))"] "((x))" ["((db/URL))"] _ rfl
    (fun b hb => ⟨_, List.mem_singleton.1 hb ▸ hfilled⟩) hfailed
  rw [hrun]
  refine ⟨⟨reports, hmarker⟩, rfl, ?_⟩
  unfold Batch.oneByOne
  rw [List.singleton_append, List.map_cons, List.map_singleton, report, report, hfirst, hsecond]
  rfl

end SecretFill
