import SecretFill.Proofs.Decoding
import SecretFill.Proofs.Templates

namespace SecretFill

/-!
# Filling a JSON document

A JSON document that has placeholders in place of some values is filled.  If all of them have
values, the result is the JSON document in which each placeholder is replaced by what its handle
means.

* `report_template` — the report on the text of a document with holes.
-/

open Json (Datum decode?)

variable {σ : Type} {store : Store σ}

/-- If no handle failed, each came to something. -/
theorem exists_values {raws : List String} {outcomes : List (Except Failure Datum)}
    (hlength : outcomes.length = raws.length)
    (h : failing raws (outcomes.map (Except.map Datum.text)) = []) :
    ∃ values : List Datum, outcomes = values.map .ok := by
  induction raws generalizing outcomes with
  | nil =>
    obtain rfl := List.length_eq_zero_iff.1 hlength
    exact ⟨[], rfl⟩
  | cons raw raws ih =>
    match outcomes with
    | .ok d :: outcomes =>
      obtain ⟨values, rfl⟩ := ih (Nat.succ.inj hlength) h
      exact ⟨d :: values, rfl⟩
    | .error e :: outcomes => exact absurd h (List.cons_ne_nil _ _)

/-- **To fill a JSON document is to fill its holes.**  Let a document with handles in its holes be
    such that no string in it has an opening delimiter, and that the handles can stand between
    delimiters.  If its text is filled, over any store and from any cache that is reached, and the
    report has no failures, then every handle came to a document; the output is the text of the
    document in which these fill the holes, and this document is decoded from it. -/
theorem report_template (store : Store σ) (s : Session σ) (policy : Policy) (t : Template)
    (r : Report) (hcache : s.cache.Reached) (hplain : IsPlain t.texts t.holes)
    (hresult : ((report policy t.text).run store s).result = .ok r) (hcomplete : r.failures = []) :
    ∃ values : List Datum,
      (Walk.runAll store (t.holes.map resolveDatum) s).1 = values.map .ok ∧
      r.output = (t.filled values).text ∧ decode? r.output = some (t.filled values) := by
  obtain ⟨hreport, -⟩ := report_run store policy t.text s
  rw [hresult, Template.find_text hplain, runAll_resolve t.holes hcache.isTrimmed] at hreport
  generalize houtcomes : (Walk.runAll store (t.holes.map resolveDatum) s).1 = outcomes at hreport
  have hlength : outcomes.length = t.holes.length := by
    rw [← houtcomes, Walk.length_runAll, List.length_map]
  -- A report without failures is put together of the values, one for each placeholder.
  have hassemble := Reference.eq_of_conclude hreport.symm
  obtain ⟨values, rfl⟩ : ∃ values : List Datum, outcomes = values.map .ok := by
    refine exists_values hlength ?_
    rw [← hcomplete, ← hassemble, failures_assemble, handlesOf_segments, Template.find_text hplain]
    rfl
  rw [List.length_map] at hlength
  have houtput : r.output = (t.filled values).text := by
    rw [← hassemble, output_assemble, Datum.text, ← (Template.segments_text hplain hlength).2,
      List.map_map]
    exact String.empty_append
  refine ⟨values, rfl, houtput, ?_⟩
  rw [houtput, Json.decode?_text]

/-- A document with a whole secret and a fragment of it, next to a parenthesis and a quote. -/
theorem report_template_fragment :
    let m : MemoryStore := {
      secrets := [(⟨"db", "Notes"⟩, " port: 80\n")]
      failures := []
      delay := 0
      history := [] }
    let s : Session MemoryStore := ⟨.empty true, m⟩
    let t : Template := .object [("(\"", .array [.hole "db/Notes", .hole "db/Notes/port"])]
    s.cache.Reached ∧ IsPlain t.texts t.holes ∧
      ∃ r, ((report .abort t.text).run MemoryStore.fetch s).result = .ok r ∧ r.failures = [] ∧
        r.output = "\x7b\"(\\\"\":[\"port: 80\",80]\x7d" ∧
        ∃ values, r.output = (t.filled values).text ∧
          decode? r.output = some (t.filled values) := by
  intro m s t
  have hsegments : segments t.text.toList = "\x7b\"(\\\"\":[".toList.map .literal
      ++ .placeholder "db/Notes".toList :: .literal ',' :: .placeholder "db/Notes/port".toList
      :: "]\x7d".toList.map .literal := by
    cbv
  have hcache : s.cache.Reached := .empty true
  have hplain : IsPlain t.texts t.holes := by
    refine ⟨fun text htext => ?_, fun raw hraw => ?_⟩
    · obtain rfl := List.mem_singleton.1 htext
      simp [List.infix_cons_iff]
    · have hnames : raw ∈ ["db/Notes", "db/Notes/port"] := hraw
      simp only [List.mem_cons, List.not_mem_nil, or_false] at hnames
      rcases hnames with rfl | rfl <;> exact .of_forall (by simp)
  have hreport : ((report .abort t.text).run MemoryStore.fetch s).result
      = .ok ⟨"\x7b\"(\\\"\":[\"port: 80\",80]\x7d", 2, []⟩ := by
    rw [report, hsegments]
    rfl
  obtain ⟨values, -, houtput, hdecode⟩ :=
    report_template MemoryStore.fetch s .abort t _ hcache hplain hreport rfl
  exact ⟨hcache, hplain, _, hreport, rfl, rfl, values, houtput, hdecode⟩

end SecretFill
