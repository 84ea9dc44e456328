import SecretFill.Proofs.Rescanning
import SecretFill.Store.Memory

namespace SecretFill

/-!
# A report is a document with pieces replaced

The placeholders of a document are given by byte offsets.  The output of a report is what one gets
by cutting the document at these offsets and putting a text in the place of each placeholder.

* `slice?` — the text between two byte offsets, which must lie between characters.
* `splice?` — the text with a row of placeholders replaced, the gaps between them being copied.
* `splice?_locate` — on a row of segments the cuts lie between characters, and the result is the
  text of what is left of the row.
* `report_splices` — so the output of a report is the document with each placeholder replaced by its
  value or its marker; the count and the failures are those of the placeholders.
-/

variable {σ : Type}

/-! ### Cuts at byte offsets -/

/-- The characters behind the first `n` bytes, unless these end inside a character or the row is
    shorter. -/
def dropBytes? : Nat → List Char → Option (List Char)
  | 0, cs => some cs
  | _ + 1, [] => none
  | n + 1, c :: cs => if c.utf8Size ≤ n + 1 then dropBytes? (n + 1 - c.utf8Size) cs else none

/-- The characters of the first `n` bytes, unless these end inside a character or the row is
    shorter. -/
def takeBytes? : Nat → List Char → Option (List Char)
  | 0, _ => some []
  | _ + 1, [] => none
  | n + 1, c :: cs =>
    if c.utf8Size ≤ n + 1 then (takeBytes? (n + 1 - c.utf8Size) cs).map (c :: ·) else none

/-- The part of a text between two byte offsets.  There is none if they are not in order, or if one
    of them lies inside a character or behind the end. -/
def slice? (text : String) (start stop : Nat) : Option String :=
  if start ≤ stop then do
    let rest ← dropBytes? start text.toList
    let cs ← takeBytes? (stop - start) rest
    return String.ofList cs
  else none

/-- A text from a byte offset on, with each of the placeholders that are left replaced by a text of
    its own.  There is none if a slice cannot be cut, or if there are too few or too many texts. -/
def splice? (document : String) (offset : Nat) : List Placeholder → List String → Option String
  | [], [] => slice? document offset (byteSize document.toList)
  | p :: ps, text :: texts => do
    let gap ← slice? document offset p.start
    let rest ← splice? document p.stop ps texts
    return gap ++ (text ++ rest)
  | _, _ => none

@[simp] theorem byteSize_nil : byteSize [] = 0 := rfl

@[simp] theorem byteSize_cons (c : Char) (cs : List Char) :
    byteSize (c :: cs) = c.utf8Size + byteSize cs := rfl

@[simp] theorem byteSize_append (cs ds : List Char) :
    byteSize (cs ++ ds) = byteSize cs + byteSize ds := by
  induction cs with
  | nil => simp
  | cons c cs ih => simp only [List.cons_append, byteSize_cons, ih, Nat.add_assoc]

/-- A first character takes at least one byte. -/
theorem exists_byteSize_cons (c : Char) (cs : List Char) :
    ∃ n, byteSize (c :: cs) = n + 1 ∧ c.utf8Size ≤ n + 1 ∧ n + 1 - c.utf8Size = byteSize cs := by
  have hpos := c.utf8Size_pos
  rw [byteSize_cons]
  exact ⟨c.utf8Size + byteSize cs - 1, by omega, by omega, by omega⟩

theorem dropBytes?_byteSize (cs rest : List Char) :
    dropBytes? (byteSize cs) (cs ++ rest) = some rest := by
  induction cs with
  | nil => exact dropBytes?.eq_1 rest
  | cons c cs ih =>
    obtain ⟨n, hn, hle, hrest⟩ := exists_byteSize_cons c cs
    rw [hn, List.cons_append, dropBytes?, if_pos hle, hrest, ih]

theorem takeBytes?_byteSize (cs rest : List Char) :
    takeBytes? (byteSize cs) (cs ++ rest) = some cs := by
  induction cs with
  | nil => exact takeBytes?.eq_1 rest
  | cons c cs ih =>
    obtain ⟨n, hn, hle, hrest⟩ := exists_byteSize_cons c cs
    rw [hn, List.cons_append, takeBytes?, if_pos hle, hrest, ih]
    rfl

/-- **A slice between characters** is what stands there. -/
theorem slice?_between {text : String} {before cs after : List Char}
    (h : text.toList = before ++ (cs ++ after)) :
    slice? text (byteSize before) (byteSize before + byteSize cs) = some (String.ofList cs) := by
  rw [slice?, if_pos (Nat.le_add_right _ _), Nat.add_sub_cancel_left, h, dropBytes?_byteSize]
  show (takeBytes? (byteSize cs) (cs ++ after)).bind _ = _
  rw [takeBytes?_byteSize]
  rfl

/-! ### Rows of segments -/

/-- What replaces a placeholder: its value, or else its marker. -/
def replacement (handle : String) : Except Failure String → String
  | .ok text => text
  | .error _ => marker handle

/-- What is left of a row begins with what replaces its first placeholder. -/
theorem source_remainder_placeholder (raw : List Char) (rest : List Segment)
    (outcome : Except Failure String) (outcomes : List (Except Failure String)) :
    source (remainder (.placeholder raw :: rest) (outcome :: outcomes))
      = (replacement (String.ofList raw) outcome).toList ++ source (remainder rest outcomes) := by
  cases outcome with
  | ok text => rw [remainder, source_append, source_literals, replacement]
  | error e => simp [remainder, replacement, toList_marker]

/-- **The cuts of a row.**  Let a text consist of what was copied, a gap that was not, and a row of
    segments.  If it is spliced from the gap on, the gap is copied, and what is left of the row
    follows. -/
theorem splice?_locate {document : String} (row : List Segment) (before gap : List Char)
    (outcomes : List (Except Failure String)) (hlength : outcomes.length = (handlesOf row).length)
    (h : document.toList = before ++ (gap ++ source row)) :
    splice? document (byteSize before) (Placeholder.locate (byteSize before + byteSize gap) row)
        (List.zipWith replacement (handlesOf row) outcomes)
      = some (String.ofList (gap ++ source (remainder row outcomes))) := by
  induction row generalizing before gap outcomes with
  | nil =>
    have hsize : byteSize document.toList = byteSize before + byteSize gap := by
      simp [h, byteSize_append]
    show slice? document _ (byteSize document.toList) = _
    rw [hsize, slice?_between h]
    simp [remainder]
  | cons segment rest ih =>
    cases segment with
    | literal c =>
      -- The character belongs to the gap.
      have hrest := ih before (gap ++ [c]) outcomes hlength (by simp [h])
      rw [byteSize_append, ← Nat.add_assoc] at hrest
      simpa [Placeholder.locate, handlesOf, remainder, Segment.source] using hrest
    | placeholder raw =>
      cases outcomes with
      | nil => exact absurd hlength (Nat.zero_ne_add_one _)
      | cons outcome outcomes =>
        have hsource : source (.placeholder raw :: rest)
            = (Segment.placeholder raw).source ++ source rest := rfl
        rw [hsource] at h
        -- Behind the placeholder nothing is copied so far.
        have hrest := ih (before ++ (gap ++ (Segment.placeholder raw).source)) [] outcomes
          (Nat.succ.inj hlength) (by simp [h])
        rw [byteSize_append, byteSize_append, byteSize_nil, Nat.add_zero, ← Nat.add_assoc] at hrest
        rw [source_remainder_placeholder]
        simp only [Placeholder.locate, handlesOf, List.zipWith_cons_cons, splice?,
          slice?_between h, hrest]
        simp

/-- The span of a placeholder holds its handle between the delimiters. -/
theorem slice?_of_mem_locate {document : String} (row : List Segment) (before : List Char)
    (h : document.toList = before ++ source row) {p : Placeholder}
    (hp : p ∈ Placeholder.locate (byteSize before) row) :
    slice? document p.start p.stop = some ("((" ++ p.handle ++ "))") := by
  -- The induction is on the row; the text before it grows by what each segment takes of the source.
  induction row generalizing before with
  | nil => exact absurd hp List.not_mem_nil
  | cons segment rest ih =>
    have hrest : document.toList = (before ++ segment.source) ++ source rest := by
      rw [h, List.append_assoc]
      rfl
    have hbehind := ih (before ++ segment.source) hrest
    rw [byteSize_append] at hbehind
    cases segment with
    | literal c => exact hbehind hp
    | placeholder raw =>
      rcases List.mem_cons.1 hp with rfl | hp
      · rw [List.append_assoc] at hrest
        refine (slice?_between hrest).trans (congrArg some (String.ext ?_))
        simp [Segment.source]
      · exact hbehind hp

/-! ### Counts -/

/-- The values that a report counts are those of the placeholders. -/
theorem resolved_assemble {row : List Segment} {outcomes : List (Except Failure String)}
    (hlength : outcomes.length = (handlesOf row).length) (r : Report) :
    (assemble row outcomes r).resolved = r.resolved + outcomes.countP (·.isOk) := by
  induction row generalizing outcomes r with
  | nil =>
    obtain rfl := List.length_eq_zero_iff.1 hlength
    rfl
  | cons segment rest ih =>
    cases segment with
    | literal c => exact ih hlength (r.keep c)
    | placeholder raw =>
      match outcomes with
      | .ok text :: outcomes =>
        have hrest := ih (Nat.succ.inj hlength) (r.value text)
        have hvalue : (r.value text).resolved = r.resolved + 1 := rfl
        rw [assemble, List.countP_cons_of_pos (by rfl)]
        omega
      | .error e :: outcomes =>
        rw [assemble, ih (Nat.succ.inj hlength), List.countP_cons_of_neg (by simp [Except.isOk,
          Except.toBool])]
        rfl

/-- Every handle has a value or a failure. -/
theorem countP_add_failing {raws : List String} {outcomes : List (Except Failure String)}
    (hlength : outcomes.length = raws.length) :
    outcomes.countP (·.isOk) + (failing raws outcomes).length = raws.length := by
  induction raws generalizing outcomes with
  | nil =>
    obtain rfl := List.length_eq_zero_iff.1 hlength
    rfl
  | cons raw raws ih =>
    match outcomes with
    | .ok text :: outcomes =>
      have hrest := ih (Nat.succ.inj hlength)
      rw [List.countP_cons_of_pos (by rfl), failing, List.length_cons]
      omega
    | .error e :: outcomes =>
      have hrest := ih (Nat.succ.inj hlength)
      rw [List.countP_cons_of_neg (by simp [Except.isOk, Except.toBool]), failing,
        List.length_cons, List.length_cons]
      omega

/-! ### The report -/

/-- **A report is its document with pieces replaced.**  Let a document be filled, over any store and
    from any cache, and let there be a report.  Each placeholder has an outcome, which it got after
    the ones before it.  The output is the document with the span of each placeholder replaced by
    its value, or by its marker if it has none; all cuts lie between characters, and each span holds
    a handle between the delimiters.  The report counts the values and lists the other placeholders
    in order, with their handles and failures; who gives up has no failures.  Only the placeholders
    of the document were resolved, whatever was put in their places. -/
theorem report_splices (store : Store σ) (policy : Policy) (document : String) (s : Session σ)
    (r : Report) (hresult : ((report policy document).run store s).result = .ok r) :
    let found := Placeholder.find document
    let handles := found.map (·.handle)
    let outcomes := (Walk.runAll store (handles.map resolve) s).1
    outcomes.length = found.length ∧
    splice? document 0 found (List.zipWith replacement handles outcomes) = some r.output ∧
    (∀ p ∈ found, slice? document p.start p.stop = some ("((" ++ p.handle ++ "))")) ∧
    r.resolved = outcomes.countP (·.isOk) ∧
    r.failures = failing handles outcomes ∧
    r.resolved + r.failures.length = found.length ∧
    (policy = .abort → r.failures = []) ∧
    ((report policy document).run store s).session
      = (Walk.runAll store (handles.map resolve) s).2 := by
  intro found handles outcomes
  obtain ⟨hconclude, hsession⟩ := report_run store policy document s
  rw [hresult] at hconclude
  have hr : r = assemble (segments document.toList) outcomes .empty :=
    (Reference.eq_of_conclude hconclude.symm).symm
  have hhandles : handles = handlesOf (segments document.toList) :=
    (handlesOf_segments document).symm
  have hlength : outcomes.length = handles.length := by
    rw [Walk.length_runAll, List.length_map]
  have hfound : handles.length = found.length := List.length_map _
  have hrow : document.toList = [] ++ ([] ++ source (segments document.toList)) :=
    (source_segments document.toList).1.symm
  have hfailures : r.failures = failing handles outcomes := by
    rw [hr, failures_assemble, hhandles]
    rfl
  have hresolved : r.resolved = outcomes.countP (·.isOk) := by
    rw [hr, resolved_assemble (hhandles ▸ hlength)]
    exact Nat.zero_add _
  have habort : policy = .abort → r.failures = [] := by
    rintro rfl
    obtain ⟨rfl, hcomplete⟩ := Reference.conclude_abort_ok.1 hconclude.symm
    exact List.isEmpty_iff.1 hcomplete
  refine ⟨hlength.trans hfound, ?_, fun p hp => ?_, hresolved, hfailures, ?_, habort, ?_⟩
  · have hsplice := splice?_locate (segments document.toList) [] [] outcomes (hhandles ▸ hlength)
      hrow
    rw [← hhandles] at hsplice
    refine hsplice.trans (congrArg some ?_)
    rw [hr, output_assemble]
    simp [Report.empty]
  · exact slice?_of_mem_locate (segments document.toList) [] hrow hp
  · rw [hresolved, hfailures, countP_add_failing hlength, hfound]
  · rw [hsession]
    cases policy with
    | marker => rfl
    | abort =>
      -- There was no failure, so all handles were visited.
      have hall : throughFailure handles outcomes = handles :=
        throughFailure_eq_self hlength (hfailures.symm.trans (habort rfl))
      rw [Policy.visited, hall]

/-- A value that looks like a placeholder between characters of several bytes, and next to it a
    placeholder without a value: what was put in is not resolved. -/
theorem report_splices_lookalike :
    let m : MemoryStore := {
      secrets := [(⟨"db", "Password"⟩, " ((db/URL))\n"), (⟨"db", "URL"⟩, "local")]
      failures := []
      delay := 0
      history := [] }
    let s : Session MemoryStore := ⟨.empty true, m⟩
    let document := "é((db/Password))((x))ü"
    ∃ r, ((report .marker document).run MemoryStore.fetch s).result = .ok r ∧
      r.output = "é\"((db/URL))\"((!unresolved x))ü" ∧
      splice? document 0 [⟨2, 17, "db/Password"⟩, ⟨17, 22, "x"⟩]
        ["\"((db/URL))\"", "((!unresolved x))"] = some r.output ∧
      r.resolved + r.failures.length = 2 ∧
      ((report .marker document).run MemoryStore.fetch s).session.store.history
        = [(⟨"db", "Password"⟩, 1)] := by
  intro m s document
  have hsegments : segments document.toList = [.literal 'é', .placeholder "db/Password".toList,
      .placeholder "x".toList, .literal 'ü'] := by cbv
  have hfind : Placeholder.find document = [⟨2, 17, "db/Password"⟩, ⟨17, 22, "x"⟩] := by
    rw [Placeholder.find, hsegments]
    rfl
  have hreport : ((report .marker document).run MemoryStore.fetch s).result
      = .ok ⟨"é\"((db/URL))\"((!unresolved x))ü", 1,
        [("x", .malformedHandle "x" HandleFault.tooFew.message)]⟩ := by
    rw [report, hsegments]
    rfl
  obtain ⟨-, hsplice, -, -, -, hcount, -, hsession⟩ :=
    report_splices MemoryStore.fetch .marker document s _ hreport
  rw [hfind] at hsplice hcount hsession
  exact ⟨_, hreport, rfl, hsplice, hcount, congrArg (·.store.history) hsession⟩

end SecretFill
