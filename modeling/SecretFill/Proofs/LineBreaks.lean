import SecretFill.Proofs.Splicing
import SecretFill.Store.Memory

namespace SecretFill

/-!
# Documents of several lines

No placeholder goes over the end of a line, and nothing that replaces one has a line feed in it.  So
the lines of a document are filled one by one.

* `segments_lines` — two lines are scanned one by one.
* `Reference.report_joinLines` — so they are filled one by one.
* `count_newline_remainder` — what is left of a row has the line feeds of the row.
* `report_lines` — filling two lines, and the number of lines of what is filled.
-/

variable {σ : Type}

/-! ### Scanning lines -/

/-- The search for the end of a handle stops at the end of a line. -/
theorem handleEnd?_line (cs ds : List Char) : handleEnd? (cs ++ '\n' :: ds)
    = (handleEnd? cs).map fun (handle, rest) => (handle, rest ++ '\n' :: ds) := by
  fun_induction handleEnd? cs with
  | case1 => rfl
  | case2 rest => rfl
  | case3 rest => rfl
  | case4 c rest hnext hline ih =>
    have hclose : c = ')' → (rest ++ '\n' :: ds).head? ≠ some ')' := by
      intro hc
      cases rest with
      | nil => exact fun hd => absurd (Option.some.inj hd) (by decide)
      | cons d rest => exact fun hd => hnext rest hc (by rw [Option.some.inj hd])
    rw [List.cons_append, handleEnd?_cons hline hclose, ih, Option.map_map, Option.map_map]
    rfl

/-- **Two lines are scanned one by one**, whatever delimiters are left open in the first or
    closed in the second. -/
theorem segments_lines (cs ds : List Char) :
    segments (cs ++ '\n' :: ds) = segments cs ++ .literal '\n' :: segments ds := by
  -- The induction is on the scan of the first line; the line feed ends every search for a handle in
  -- it.
  fun_induction segments cs with
  | case1 => exact segments_literal fun hc => absurd hc (by decide)
  | case2 cs handle after hfound ih =>
    have hline : handleEnd? (cs ++ '\n' :: ds) = some (handle, after ++ '\n' :: ds) := by
      rw [handleEnd?_line, hfound]
      rfl
    rw [List.cons_append, List.cons_append, segments_placeholder hline, ih]
    rfl
  | case3 cs hnone ih =>
    have hline : handleEnd? (cs ++ '\n' :: ds) = none := by
      rw [handleEnd?_line, hnone]
      rfl
    rw [List.cons_append, segments_literal, ih]
    · rfl
    · rintro - tail htail
      obtain rfl : cs ++ '\n' :: ds = tail := (List.cons.inj htail).2
      exact hline
  | case4 c cs hopen ih =>
    rw [List.cons_append, segments_literal, ih]
    · rfl
    · rintro hc tail htail
      cases cs with
      | nil => exact absurd (List.cons.inj htail).1 (by decide)
      | cons d cs =>
        obtain rfl : d = '(' := (List.cons.inj htail).1
        exact (hopen cs hc rfl).elim

/-! ### Filling lines -/

/-- The report on two lines, given the reports on each. -/
def Report.joinLines (r s : Report) : Report where
  output := r.output ++ "\n" ++ s.output
  resolved := r.resolved + s.resolved
  failures := r.failures ++ s.failures

namespace Reference

variable {outcome : Key → Except Failure String}

/-- The report on two lines consists of the reports on each. -/
theorem fill_lines (row row' : List Segment) : fill outcome (row ++ .literal '\n' :: row')
    = (fill outcome row).joinLines (fill outcome row') := by
  have hline : text outcome (.literal '\n') = "\n" := rfl
  have hjoin : String.join ((row ++ .literal '\n' :: row').map (text outcome))
      = String.join (row.map (text outcome)) ++ "\n" ++ String.join (row'.map (text outcome)) := by
    apply String.ext
    simp [String.toList_join, hline]
  have hcount : (row ++ .literal '\n' :: row').countP (isResolved outcome)
      = row.countP (isResolved outcome) + row'.countP (isResolved outcome) := by
    rw [List.countP_append, List.countP_cons_of_neg (by simp [isResolved])]
  have hfailures : (row ++ .literal '\n' :: row').filterMap (failure? outcome)
      = row.filterMap (failure? outcome) ++ row'.filterMap (failure? outcome) := by
    rw [List.filterMap_append, List.filterMap_cons_none rfl]
  rw [fill, hjoin, hcount, hfailures]
  rfl

/-- Who gives up on two lines gives up on one of them, on the first one if it can. -/
theorem conclude_joinLines (policy : Policy) (r s : Report) :
    conclude policy (r.joinLines s) = (do
      let r' ← conclude policy r
      let s' ← conclude policy s
      return r'.joinLines s') := by
  cases policy with
  | marker => rfl
  | abort =>
    cases hr : r.failures with
    | cons failure rest => simp [conclude, Report.joinLines, hr, bind, Except.bind]
    | nil =>
      cases hs : s.failures <;>
        simp [conclude, Report.joinLines, hr, hs, bind, Except.bind, pure, Except.pure]

/-- **Two lines are filled one by one.** -/
theorem report_joinLines (policy : Policy) (a b : String) :
    report outcome policy (a ++ "\n" ++ b) = (do
      let r ← report outcome policy a
      let s ← report outcome policy b
      return r.joinLines s) := by
  have htext : (a ++ "\n" ++ b).toList = a.toList ++ '\n' :: b.toList := by simp
  rw [report, htext, segments_lines, fill_lines, conclude_joinLines]
  rfl

end Reference

/-! ### Line feeds -/

/-- A marker adds no line feed to its handle. -/
theorem newline_not_mem_marker {handle : String} (h : '\n' ∉ handle.toList) :
    '\n' ∉ (marker handle).toList := by
  rw [toList_marker]
  simp [h]

/-- What a handle comes to has no line feed, whatever its secret has. -/
theorem newline_not_mem_of_resolve {store : Store σ} {s : Session σ} {raw text : String}
    (h : ((resolve raw).run store s).result = .ok text) : '\n' ∉ text.toList := by
  obtain ⟨d, rfl⟩ := exists_datum_of_resolve h
  rw [Json.Datum.text, String.toList_ofList]
  exact d.isUncontrolled.newline_not_mem

/-- **What is left of a row has its line feeds**: they stand at literals only. -/
theorem count_newline_remainder {row : List Segment} {outcomes : List (Except Failure String)}
    (hrow : Readable row) (hlength : outcomes.length = (handlesOf row).length)
    (hvalues : ∀ text : String, .ok text ∈ outcomes → '\n' ∉ text.toList) :
    (source (remainder row outcomes)).count '\n' = (source row).count '\n' := by
  induction row generalizing outcomes with
  | nil => rfl
  | cons segment rest ih =>
    cases segment with
    | literal c =>
      rw [remainder, source_literal, source_literal, List.count_cons, List.count_cons,
        ih hrow.2 hlength hvalues]
    | placeholder raw =>
      cases outcomes with
      | nil => exact absurd hlength (Nat.zero_ne_add_one _)
      | cons outcome outcomes =>
        have hrest := ih hrow.2 (Nat.succ.inj hlength) fun text htext =>
          hvalues text (List.mem_cons_of_mem outcome htext)
        have hraw : '\n' ∉ (String.ofList raw).toList := by
          rw [String.toList_ofList]
          exact hrow.1.oneLine
        -- Neither the value nor the marker has a line feed, as little as the placeholder has.
        have hreplacement : '\n' ∉ (replacement (String.ofList raw) outcome).toList := by
          cases outcome with
          | ok text => exact hvalues text List.mem_cons_self
          | error e => exact newline_not_mem_marker hraw
        rw [source_remainder_placeholder, List.count_append, hrest,
          List.count_eq_zero_of_not_mem hreplacement, source_placeholder]
        have hplaceholder : raw.count '\n' = 0 := List.count_eq_zero_of_not_mem hrow.1.oneLine
        simp [List.count_append, hplaceholder]

/-- **A filled document has as many lines** as the document, whatever the secrets are. -/
theorem count_newline_output {store : Store σ} {s : Session σ} {policy : Policy} {document : String}
    {r : Report} (h : ((report policy document).run store s).result = .ok r) :
    r.output.toList.count '\n' = document.toList.count '\n' := by
  obtain ⟨hresult, -⟩ := report_run store policy document s
  rw [h] at hresult
  rw [← handlesOf_segments] at hresult
  obtain ⟨hsource, hreadable⟩ := source_segments document.toList
  rw [← Reference.eq_of_conclude hresult.symm, output_assemble]
  simp only [Report.empty, String.empty_append, String.toList_ofList]
  rw [count_newline_remainder hreadable, hsource]
  · rw [Walk.length_runAll, List.length_map]
  · intro text htext
    obtain ⟨w, hw, t, hrun⟩ := Walk.exists_of_mem_runAll htext
    obtain ⟨raw, -, rfl⟩ := List.mem_map.1 hw
    exact newline_not_mem_of_resolve hrun

/-- The handle of a placeholder is on one line. -/
theorem newline_not_mem_handle {document : String} {p : Placeholder}
    (h : p ∈ Placeholder.find document) : '\n' ∉ p.handle.toList := by
  have hmem : p.handle ∈ handlesOf (segments document.toList) := by
    rw [handlesOf_segments]
    exact List.mem_map_of_mem h
  have hrow : ∀ row : List Segment, Readable row → ∀ raw ∈ handlesOf row, '\n' ∉ raw.toList := by
    intro row hrow
    induction row with
    | nil => exact fun _ hraw => absurd hraw List.not_mem_nil
    | cons segment rest ih =>
      cases segment with
      | literal c => exact ih hrow.2
      | placeholder raw =>
        refine List.forall_mem_cons.2 ⟨?_, ih hrow.2⟩
        rw [String.toList_ofList]
        exact hrow.1.oneLine
  exact hrow _ (source_segments document.toList).2 _ hmem

/-! ### Documents line by line -/

/-- **A document is filled line by line.**  Over a constant store, whatever was done since the cache
    was empty, to fill two lines is to fill the first, then the second, and to put the reports
    behind one another; who gives up gives up on the first line, or else on the second.  With
    markers both lines have a report.  Therefore, over any store, what is filled has as many line
    feeds as its document: no placeholder has one between its delimiters, no marker has one, and no
    value has one, whatever the secrets are. -/
theorem report_lines (store : Store σ) (outcome : Key → Except Failure String) (keepEmpty : Bool)
    (initial : σ) (s t u : Session σ) (policy : Policy) (a b : String)
    (hconstant : store.Constant outcome initial)
    (hs : Operations store ⟨.empty keepEmpty, initial⟩ s)
    (ht : Operations store ⟨.empty keepEmpty, initial⟩ t)
    (hu : Operations store ⟨.empty keepEmpty, initial⟩ u) :
    ((report policy (a ++ "\n" ++ b)).run store s).result = (do
      let r ← ((report policy a).run store t).result
      let r' ← ((report policy b).run store u).result
      return r.joinLines r') ∧
    (policy = .marker → ∃ r r', ((report policy a).run store t).result = .ok r ∧
      ((report policy b).run store u).result = .ok r') ∧
    (∀ {τ : Type} (store' : Store τ) (s' : Session τ) (policy' : Policy) (document : String)
      (r : Report), ((report policy' document).run store' s').result = .ok r →
        r.output.toList.count '\n' = document.toList.count '\n') ∧
    (∀ (document : String), ∀ p ∈ Placeholder.find document,
      '\n' ∉ p.handle.toList ∧ '\n' ∉ (marker p.handle).toList) ∧
    (∀ {τ : Type} (store' : Store τ) (s' : Session τ) (raw text : String),
      ((resolve raw).run store' s').result = .ok text → '\n' ∉ text.toList) := by
  -- Whatever was done before, the report is that of the reference.
  have hresult : ∀ {v : Session σ} (document : String),
      Operations store ⟨.empty keepEmpty, initial⟩ v →
      ((report policy document).run store v).result = Reference.report outcome policy document :=
    fun document hv => (Session.Honest.of_empty hconstant hv).report_result policy document
  refine ⟨?_, ?_, fun store' s' policy' document r => count_newline_output, fun document p hp => ?_,
    fun store' s' raw text => newline_not_mem_of_resolve⟩
  · rw [hresult _ hs, hresult _ ht, hresult _ hu, Reference.report_joinLines]
  · rintro rfl
    exact ⟨_, _, hresult a ht, hresult b hu⟩
  · exact ⟨newline_not_mem_handle hp, newline_not_mem_marker (newline_not_mem_handle hp)⟩

/-- A delimiter that is left open on the first line and closed on the second, a secret of two lines,
    and a placeholder without a value; the second line was filled before. -/
theorem report_lines_open :
    let m : MemoryStore := {
      secrets := [(⟨"db", "Notes"⟩, "one\ntwo")]
      failures := [(⟨"x", "y"⟩, .timedOut "x" "y" 1)]
      delay := 0
      history := [] }
    let first : Session MemoryStore := ⟨.empty true, m⟩
    let a := "((db/Notes)) ((db"
    let b := "/Notes)) ((x/y))"
    let next := ((report .marker b).run MemoryStore.fetch first).session
    let r : Report := ⟨"\"one\\ntwo\" ((db\n/Notes)) ((!unresolved x/y))", 1,
      [("x/y", .timedOut "x" "y" 1)]⟩
    ((report .marker (a ++ "\n" ++ b)).run MemoryStore.fetch next).result = .ok r ∧
      r.output.toList.count '\n' = (a ++ "\n" ++ b).toList.count '\n' := by
  intro m first a b next r
  have hsegmentsa : segments a.toList = .placeholder "db/Notes".toList
      :: " ((db".toList.map .literal := by cbv
  have hsegmentsb : segments b.toList = "/Notes)) ".toList.map .literal
      ++ [.placeholder "x/y".toList] := by cbv
  have ha : ((report .marker a).run MemoryStore.fetch first).result
      = .ok ⟨"\"one\\ntwo\" ((db", 1, []⟩ := by
    rw [report, hsegmentsa]
    rfl
  have hb : ((report .marker b).run MemoryStore.fetch first).result
      = .ok ⟨"/Notes)) ((!unresolved x/y))", 0, [("x/y", .timedOut "x" "y" 1)]⟩ := by
    rw [report, hsegmentsb]
    rfl
  obtain ⟨hjoin, -, hcount, -, -⟩ := report_lines MemoryStore.fetch m.outcome true m next first
    first .marker a b m.constant (.single (.document .marker b)) .refl .refl
  rw [ha, hb] at hjoin
  exact ⟨hjoin, hcount MemoryStore.fetch next .marker (a ++ "\n" ++ b) r hjoin⟩

end SecretFill
