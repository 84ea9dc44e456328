import Mathlib
import SecretFill.Proofs.Fetches
import SecretFill.Store.Memory

namespace SecretFill

/-!
# To give up is to stop early

Under both policies the same is done up to the first failure, where who gives up stops.

* `abort_agrees_with_marker` — who gives up has the same report, or the first failure of it; the
  calls are the first ones of those that are made with markers, and what is usable afterwards is
  usable there too.
-/

variable {σ : Type}

/-- **To give up is to stop early.**  Let a document be filled with markers, and from the same cache
    and store under the policy to give up.  If the report has no failures, giving up leads to the
    same report, the same calls and the same cache.  Otherwise it leads to the first failure; its
    calls are the first ones of the others, and every secret that is usable then is usable with the
    same text after filling with markers. -/
theorem abort_agrees_with_marker (store : Store σ) (document : String) (s : Session σ) :
    let marked := (report .marker document).run store.recorded s.recording
    let aborted := (report .abort document).run store.recorded s.recording
    ∃ r, marked.result = .ok r ∧
      (r.failures = [] → aborted.result = .ok r ∧ aborted.session = marked.session) ∧
      ∀ handle e rest, r.failures = (handle, e) :: rest →
        aborted.result = .error e ∧
        aborted.session.calls <+: marked.session.calls ∧
        ∀ key secret, aborted.session.cache.usable? key = some secret →
          marked.session.cache.usable? key = some secret := by
  intro marked aborted
  obtain ⟨hmarked, hmarkedEnd⟩ := report_run store.recorded .marker document s.recording
  obtain ⟨haborted, habortedEnd⟩ := report_run store.recorded .abort document s.recording
  rw [← handlesOf_segments] at hmarked hmarkedEnd haborted habortedEnd
  -- Both come from the same outcomes, and differ in the handles that are visited.
  generalize houtcomes : (Walk.runAll store.recorded
    ((handlesOf (segments document.toList)).map resolve) s.recording).1 = outcomes at *
  have hlength : outcomes.length = (handlesOf (segments document.toList)).length := by
    rw [← houtcomes, Walk.length_runAll, List.length_map]
  have hfailures := failures_assemble (segments document.toList) outcomes .empty
  refine ⟨_, hmarked, fun hnone => ⟨?_, ?_⟩, fun handle e rest hfirst => ⟨?_, ?_⟩⟩
  · rw [haborted]
    simp only [Reference.conclude, hnone]
  · have hall : throughFailure (handlesOf (segments document.toList)) outcomes
        = handlesOf (segments document.toList) :=
      throughFailure_eq_self hlength (hfailures.symm.trans hnone)
    rw [habortedEnd, hmarkedEnd, Policy.visited, hall]
    rfl
  · rw [haborted]
    simp only [Reference.conclude, hfirst]
  · obtain ⟨others, hothers⟩ :=
      throughFailure_prefix (handlesOf (segments document.toList)) outcomes
    have hgoesOn : marked.session
        = (Walk.runAll store.recorded (others.map resolve) aborted.session).2 := by
      rw [hmarkedEnd, habortedEnd, ← Walk.runAll_append, ← List.map_append]
      exact congrArg (fun raws => (Walk.runAll store.recorded (List.map resolve raws) _).2)
        hothers.symm
    rw [hgoesOn]
    exact ⟨Walk.calls_runAll _ _, fun key secret => Walk.usable?_runAll _ _⟩

/-- The second of three placeholders has no value: who gives up fetches nothing for the third. -/
theorem abort_agrees_with_marker_second :
    let m : MemoryStore := {
      secrets := [(⟨"db", "Password"⟩, " pw\n"), (⟨"db", "URL"⟩, "local")]
      failures := [(⟨"locked", "Password"⟩, .timedOut "locked" "Password" 1)]
      delay := 0
      history := [] }
    let s : Session MemoryStore := ⟨.empty true, m⟩
    let document := "((db/Password))((locked/Password))((db/URL))"
    let aborted := (report .abort document).run MemoryStore.fetch.recorded s.recording
    aborted.result = .error (.timedOut "locked" "Password" 1) ∧
      aborted.session.calls
        <+: ((report .marker document).run MemoryStore.fetch.recorded s.recording).session.calls ∧
      aborted.session.calls = [⟨"db", "Password"⟩, ⟨"locked", "Password"⟩] := by
  intro m s document aborted
  obtain ⟨r, hmarked, -, hfailed⟩ := abort_agrees_with_marker MemoryStore.fetch document s
  have hsegments : segments document.toList
      = [.placeholder "db/Password".toList, .placeholder "locked/Password".toList,
        .placeholder "db/URL".toList] := by cbv
  have hreport : ((report .marker document).run MemoryStore.fetch.recorded s.recording).result
      = .ok ⟨"\"pw\"((!unresolved locked/Password))\"local\"", 2,
        [("locked/Password", .timedOut "locked" "Password" 1)]⟩ := by
    rw [report, hsegments]
    rfl
  have hfailures : r.failures = [("locked/Password", .timedOut "locked" "Password" 1)] := by
    rw [hreport] at hmarked
    exact congrArg Report.failures (Except.ok.inj hmarked).symm
  obtain ⟨herror, hcalls, -⟩ := hfailed _ _ _ hfailures
  refine ⟨herror, hcalls, ?_⟩
  show Session.calls ((report .abort document).run MemoryStore.fetch.recorded _).session = _
  rw [report, hsegments]
  rfl

end SecretFill
