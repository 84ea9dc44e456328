import Mathlib
import SecretFill.Proofs.Meanings
import SecretFill.Proofs.Scanning

namespace SecretFill

/-!
# Scanning what was filled

A filled document is scanned again.  Between kept text, values and markers new delimiters might
arise, but as long as no value has an opening delimiter in it, all that is found are the markers.

* `remainder` — the row that is left of a row of segments: values become plain text, and what has no
  value becomes a marker.
* `output_assemble` — the output of a report is the text of this row.
* `readable_remainder` — the scanner reads this row from it.
* `find_output` — so it finds the placeholders that are left, and in a complete report none.
-/

variable {σ : Type} {store : Store σ}

/-! ### What is left of a row -/

/-- The row that is left of another one, given what its handles came to. -/
def remainder : List Segment → List (Except Failure String) → List Segment
  | .literal c :: rest, outcomes => .literal c :: remainder rest outcomes
  | .placeholder _ :: rest, .ok text :: outcomes =>
    text.toList.map .literal ++ remainder rest outcomes
  | .placeholder raw :: rest, .error _ :: outcomes =>
    .placeholder ("!unresolved ".toList ++ raw) :: remainder rest outcomes
  | _, _ => []

/-- The text of plain characters. -/
@[simp] theorem source_literals (cs : List Char) : source (cs.map .literal) = cs := by
  induction cs with
  | nil => rfl
  | cons c cs ih => rw [List.map_cons, source_literal, ih]

/-- Plain characters are left as they are. -/
@[simp] theorem remainder_literals (cs : List Char) (outcomes : List (Except Failure String)) :
    remainder (cs.map .literal) outcomes = cs.map .literal := by
  induction cs with
  | nil => rfl
  | cons c cs ih => exact congrArg (Segment.literal c :: ·) ih

/-- Rows behind one another are left one by one. -/
theorem remainder_append {row : List Segment} {outcomes : List (Except Failure String)}
    (h : outcomes.length = (handlesOf row).length) (row' : List Segment)
    (outcomes' : List (Except Failure String)) :
    remainder (row ++ row') (outcomes ++ outcomes')
      = remainder row outcomes ++ remainder row' outcomes' := by
  induction row generalizing outcomes with
  | nil =>
    obtain rfl := List.length_eq_zero_iff.1 h
    rfl
  | cons segment rest ih =>
    cases segment with
    | literal c => exact congrArg (Segment.literal c :: ·) (ih h)
    | placeholder raw =>
      match outcomes with
      | .ok text :: outcomes =>
        simp only [List.cons_append, remainder, List.append_assoc, ih (Nat.succ.inj h)]
      | .error e :: outcomes =>
        simp only [List.cons_append, remainder, ih (Nat.succ.inj h)]

theorem toList_marker (handle : String) : (marker handle).toList
    = '(' :: '(' :: ("!unresolved ".toList ++ (handle.toList ++ [')', ')'])) := by
  show ("((!unresolved " ++ handle ++ "))").toList = _
  simp

/-- The output of a report is the text of what is left. -/
theorem output_assemble (row : List Segment) (outcomes : List (Except Failure String))
    (r : Report) : (assemble row outcomes r).output
      = r.output ++ String.ofList (source (remainder row outcomes)) := by
  induction row generalizing outcomes r with
  | nil => simp [assemble, remainder]
  | cons segment rest ih =>
    cases segment with
    | literal c =>
      apply String.ext
      simp [assemble, ih, Report.keep, remainder]
    | placeholder raw =>
      cases outcomes with
      | nil => simp [assemble, remainder]
      | cons outcome outcomes =>
        apply String.ext
        cases outcome with
        | ok text => simp [assemble, ih, Report.value, remainder, source_append]
        | error e => simp [assemble, ih, Report.failure, remainder, toList_marker]

/-- The handles of what is left are those that have no value. -/
theorem handlesOf_remainder (row : List Segment) (outcomes : List (Except Failure String)) :
    handlesOf (remainder row outcomes)
      = (failing (handlesOf row) outcomes).map fun failure => "!unresolved " ++ failure.1 := by
  induction row generalizing outcomes with
  | nil => rfl
  | cons segment rest ih =>
    cases segment with
    | literal c => exact ih outcomes
    | placeholder raw =>
      match outcomes with
      | [] => rfl
      | .ok text :: outcomes =>
        rw [remainder, handlesOf_append, handlesOf_literals, ih]
        rfl
      | .error e :: outcomes =>
        rw [remainder, handlesOf, ih, String.ofList_append, String.ofList_toList]
        rfl

/-! ### What is left is read back -/

/-- A handle ends at the latest behind that of a placeholder. -/
theorem handleEnd?_placeholder {handle : List Char} (h : IsHandle handle) (rest : List Segment) :
    handleEnd? (source (.placeholder handle :: rest)) ≠ none := by
  have hopen : IsHandle ('(' :: '(' :: handle) := h.append ['(', '('] (by simp)
  rw [source_placeholder]
  show handleEnd? (('(' :: '(' :: handle) ++ ')' :: ')' :: source rest) ≠ none
  rw [hopen.handleEnd?_eq]
  simp

/-- What is left of a row begins as the row does, unless a placeholder is first. -/
theorem head?_remainder {row : List Segment} (h : ∀ handle rest, row ≠ .placeholder handle :: rest)
    (outcomes : List (Except Failure String)) :
    (source (remainder row outcomes)).head? = (source row).head? := by
  cases row with
  | nil => rfl
  | cons segment rest =>
    cases segment with
    | literal c => rfl
    | placeholder handle => exact absurd rfl (h handle rest)

/-- **Where no handle ends**, none ends in what is left: there are no placeholders before the end of
    the line. -/
theorem handleEnd?_remainder {row : List Segment} (h : Readable row)
    (hnone : handleEnd? (source row) = none) (outcomes : List (Except Failure String)) :
    handleEnd? (source (remainder row outcomes)) = none := by
  induction row with
  | nil => rfl
  | cons segment rest ih =>
    cases segment with
    | placeholder handle => exact absurd hnone (handleEnd?_placeholder h.1 rest)
    | literal c =>
      rw [source_literal] at hnone
      rw [remainder, source_literal]
      -- A line feed ends the search; any other character stays where it is.
      by_cases hline : c = '\n'
      · subst hline
        rfl
      · have hclose : c = ')' → (source rest).head? ≠ some ')' := by
          rintro rfl hhead
          obtain ⟨cs, hcs⟩ := List.head?_eq_some_iff.1 hhead
          rw [hcs] at hnone
          exact absurd hnone (by simp [handleEnd?])
        rw [handleEnd?_cons hline hclose, Option.map_eq_none_iff] at hnone
        -- The next character of the line is literal, since a placeholder would end in a handle.
        have hplain : ∀ handle rest', rest ≠ .placeholder handle :: rest' := by
          rintro handle rest' rfl
          exact handleEnd?_placeholder h.2.1 rest' hnone
        rw [handleEnd?_cons hline (by rwa [head?_remainder hplain]), ih h.2 hnone]
        rfl

/-- **What is left is read back** where no value has an opening delimiter in it or at its end. -/
theorem readable_remainder {row : List Segment} (h : Readable row)
    {outcomes : List (Except Failure String)}
    (hvalues : ∀ text : String, .ok text ∈ outcomes →
      ¬ ['(', '('] <:+: text.toList ∧ text.toList.getLast? ≠ some '(') :
    Readable (remainder row outcomes) := by
  induction row generalizing outcomes with
  | nil => trivial
  | cons segment rest ih =>
    cases segment with
    | literal c =>
      refine ⟨fun hc tail htail => ?_, ih h.2 hvalues⟩
      subst hc
      match rest, h with
      | [], _ => exact absurd htail (by simp [remainder])
      | .literal d :: rest, h =>
        -- Both parentheses were there before, and no handle ended behind them.
        obtain ⟨rfl, rfl⟩ := List.cons.inj htail
        exact handleEnd?_remainder h.2.2 (h.1 rfl _ rfl) outcomes
      | .placeholder handle :: rest, h =>
        -- The placeholder would have begun at the literal.
        have hopen : IsHandle ('(' :: handle) := h.2.1.append ['('] (by simp)
        have hnone := h.1 rfl _ (source_placeholder handle rest)
        rw [← List.cons_append, hopen.handleEnd?_eq] at hnone
        exact absurd hnone (by simp)
    | placeholder raw =>
      match outcomes with
      | [] => trivial
      | .ok text :: outcomes =>
        obtain ⟨hwithin, hlast⟩ := hvalues text List.mem_cons_self
        exact (Closed.literals hwithin hlast).readable_append
          (ih h.2 fun text htext => hvalues text (List.mem_cons_of_mem _ htext))
      | .error e :: outcomes =>
        exact ⟨h.1.append _ (by simp),
          ih h.2 fun text htext => hvalues text (List.mem_cons_of_mem _ htext)⟩

/-! ### Documents without placeholders -/

/-- The report on plain characters has these characters. -/
theorem assemble_plain {row : List Segment} (h : handlesOf row = [])
    (outcomes : List (Except Failure String)) (r : Report) :
    assemble row outcomes r = { r with output := r.output ++ String.ofList (source row) } := by
  induction row generalizing r with
  | nil => simp [assemble]
  | cons segment rest ih =>
    cases segment with
    | literal c =>
      rw [assemble, ih h, source_literal]
      congr 1
      apply String.ext
      simp [Report.keep]
    | placeholder raw => exact absurd h (List.cons_ne_nil _ _)

/-- **A document without placeholders** stays as it is, and nothing is asked for. -/
theorem report_plain {document : String} (h : Placeholder.find document = []) (policy : Policy)
    (store : Store σ) (s : Session σ) :
    ((report policy document).run store s).result = .ok ⟨document, 0, []⟩ ∧
      ((report policy document).run store s).session = s := by
  obtain ⟨hresult, hsession⟩ := report_run store policy document s
  have hhandles : handlesOf (segments document.toList) = [] := by rw [handlesOf_segments, h]; rfl
  have hassemble : assemble (segments document.toList) [] .empty = ⟨document, 0, []⟩ := by
    rw [assemble_plain hhandles, (source_segments document.toList).1, String.ofList_toList]
    simp [Report.empty]
  rw [hresult, hsession, h]
  show Reference.conclude policy (assemble (segments document.toList) [] .empty) = _ ∧ _
  rw [hassemble]
  cases policy <;> exact ⟨rfl, rfl⟩

/-! ### Scanning again -/

/-- The texts with which a document is filled. -/
def substituted (store : Store σ) (document : String) (s : Session σ) : List String :=
  let handles := (Placeholder.find document).map (·.handle)
  (Walk.runAll store (handles.map resolve) s).1.filterMap Except.toOption

/-- What walks come to one after the other, each of them comes to from some cache and store. -/
theorem Walk.exists_of_mem_runAll {α : Type} {ws : List (Walk α)} {s : Session σ} {result : α}
    (h : result ∈ (runAll store ws s).1) : ∃ w ∈ ws, ∃ t, (w.run store t).result = result := by
  induction ws generalizing s with
  | nil => exact absurd h (by simp [runAll])
  | cons w ws ih =>
    rcases List.mem_cons.1 h with rfl | h
    · exact ⟨w, List.mem_cons_self, s, rfl⟩
    · obtain ⟨w', hmem, t, hresult⟩ := ih h
      exact ⟨w', List.mem_cons_of_mem w hmem, t, hresult⟩

/-- **What was filled is scanned again.**  Let a document be filled with markers and with texts that
    have no opening delimiter in them.  Then the placeholders of the output are the markers, in the
    order of the failures.  If the report is complete there is none, so to fill the output again,
    over any store, gives the output and asks for nothing. -/
theorem find_output (store : Store σ) (document : String) (s : Session σ)
    (hvalues : ∀ text ∈ substituted store document s, ¬ ['(', '('] <:+: text.toList) :
    ∃ r, ((report .marker document).run store s).result = .ok r ∧
      (Placeholder.find r.output).map (·.handle)
        = r.failures.map (fun failure => "!unresolved " ++ failure.1) ∧
      (r.isComplete = true → Placeholder.find r.output = [] ∧
        ∀ {τ : Type} (policy : Policy) (store' : Store τ) (t : Session τ),
          ((report policy r.output).run store' t).result = .ok ⟨r.output, 0, []⟩ ∧
          ((report policy r.output).run store' t).session = t) := by
  obtain ⟨hresult, -⟩ := report_run store .marker document s
  unfold substituted at hvalues
  simp only [← handlesOf_segments] at hresult hvalues
  generalize houtcomes : (Walk.runAll store
    ((handlesOf (segments document.toList)).map resolve) s).1 = outcomes at hresult hvalues
  have hreadable : Readable (remainder (segments document.toList) outcomes) := by
    refine readable_remainder (source_segments document.toList).2 fun text htext => ⟨?_, ?_⟩
    · exact hvalues text (List.mem_filterMap.2 ⟨_, htext, rfl⟩)
    · -- What a handle comes to is a document, which does not end with a parenthesis.
      rw [← houtcomes] at htext
      obtain ⟨w, hw, t, hrun⟩ := Walk.exists_of_mem_runAll htext
      obtain ⟨raw, -, rfl⟩ := List.mem_map.1 hw
      obtain ⟨d, rfl⟩ := exists_datum_of_resolve hrun
      rw [Json.Datum.text, String.toList_ofList]
      exact d.getLast?_chars
  have hfind : (Placeholder.find (assemble (segments document.toList) outcomes .empty).output).map
      (·.handle) = (assemble (segments document.toList) outcomes .empty).failures.map
        (fun failure => "!unresolved " ++ failure.1) := by
    rw [← handlesOf_segments, output_assemble, failures_assemble]
    simp only [Report.empty, String.empty_append, String.toList_ofList, segments_source hreadable,
      handlesOf_remainder, List.nil_append]
  refine ⟨_, hresult, hfind, fun hcomplete => ?_⟩
  rw [Report.isComplete, List.isEmpty_iff] at hcomplete
  rw [hcomplete, List.map_nil, List.map_eq_nil_iff] at hfind
  exact ⟨hfind, report_plain hfind⟩

/-- A value with a closing delimiter between an opening one that is kept and a marker: only the
    marker is found. -/
theorem find_output_marker :
    let m : MemoryStore := {
      secrets := [(⟨"db", "Password"⟩, "a)) (")]
      failures := [(⟨"x", "y"⟩, .timedOut "x" "y" 1)]
      delay := 0
      history := [] }
    let s : Session MemoryStore := ⟨.empty true, m⟩
    let document := "((\n((db/Password))((x/y))))"
    (∀ text ∈ substituted MemoryStore.fetch document s, ¬ ['(', '('] <:+: text.toList) ∧
      ∃ r, ((report .marker document).run MemoryStore.fetch s).result = .ok r ∧
        r.output = "((\n\"a)) (\"((!unresolved x/y))))" ∧
        (Placeholder.find r.output).map (·.handle) = ["!unresolved x/y"] := by
  intro m s document
  have hsegments : segments document.toList = [.literal '(', .literal '(', .literal '\n',
      .placeholder "db/Password".toList, .placeholder "x/y".toList, .literal ')',
      .literal ')'] := by
    cbv
  have hvalues : ∀ text ∈ substituted MemoryStore.fetch document s,
      ¬ ['(', '('] <:+: text.toList := by
    have htexts : substituted MemoryStore.fetch document s = ["\"a)) (\""] := by
      rw [substituted, ← handlesOf_segments, hsegments]
      rfl
    rw [htexts]
    rintro text htext
    obtain rfl := List.mem_singleton.1 htext
    simp [List.infix_cons_iff]
  obtain ⟨r, hresult, hfind, -⟩ := find_output MemoryStore.fetch document s hvalues
  have hreport : ((report .marker document).run MemoryStore.fetch s).result
      = .ok ⟨"((\n\"a)) (\"((!unresolved x/y))))", 1, [("x/y", .timedOut "x" "y" 1)]⟩ := by
    rw [report, hsegments]
    rfl
  obtain rfl : r = _ := Except.ok.inj (hresult.symm.trans hreport)
  exact ⟨hvalues, _, hresult, rfl, hfind⟩

end SecretFill
