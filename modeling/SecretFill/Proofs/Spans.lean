import SecretFill.Proofs.Splicing

namespace SecretFill

/-!
# Where placeholders are

A placeholder could begin wherever two opening parentheses stand and two closing ones follow on the
same line.  The scanner leaves out no such place unless it lies in a placeholder that it has found,
and by this its result is determined.

* `Encloses` — delimiters stand around a text on one line.
* `IsScan` — the placeholders of a document from an offset on: in order, and none is left out.
* `IsScan.locate`, `IsScan.eq_locate` — those of a readable row are such a scan, and the only one.
* `find_exact` — so the scanner finds the only scan of a document; it finds something iff delimiters
  stand around a text anywhere.
-/

variable {document : String}

/-! ### Cuts -/

theorem dropBytes?_eq_some {n : Nat} {cs rest : List Char} (h : dropBytes? n cs = some rest) :
    ∃ before, cs = before ++ rest ∧ byteSize before = n := by
  fun_induction dropBytes? n cs with
  | case1 cs =>
    obtain rfl := Option.some.inj h
    exact ⟨[], rfl, rfl⟩
  | case2 => exact absurd h (by simp)
  | case3 n c cs hle ih =>
    obtain ⟨before, rfl, hsize⟩ := ih h
    refine ⟨c :: before, rfl, ?_⟩
    rw [byteSize_cons, hsize]
    omega
  | case4 => exact absurd h (by simp)

theorem takeBytes?_eq_some {n : Nat} {cs ds : List Char} (h : takeBytes? n cs = some ds) :
    ∃ after, cs = ds ++ after ∧ byteSize ds = n := by
  fun_induction takeBytes? n cs generalizing ds with
  | case1 cs =>
    obtain rfl := Option.some.inj h
    exact ⟨cs, rfl, rfl⟩
  | case2 => exact absurd h (by simp)
  | case3 n c cs hle ih =>
    obtain ⟨ds', htaken, rfl⟩ := Option.map_eq_some_iff.1 h
    obtain ⟨after, rfl, hsize⟩ := ih htaken
    refine ⟨after, rfl, ?_⟩
    rw [byteSize_cons, hsize]
    omega
  | case4 => exact absurd h (by simp)

/-- **A slice lies between characters**: the text is made of what stands before it, the slice and
    what stands behind it. -/
theorem slice?_eq_some {text cs : String} {start stop : Nat} (h : slice? text start stop = some cs) :
    ∃ before after, text.toList = before ++ (cs.toList ++ after) ∧ start = byteSize before ∧
      stop = byteSize before + byteSize cs.toList := by
  unfold slice? at h
  split at h
  · rename_i hle
    obtain ⟨rest, hrest, h⟩ := Option.bind_eq_some_iff.1 h
    obtain ⟨ds, hds, h⟩ := Option.bind_eq_some_iff.1 h
    obtain rfl := Option.some.inj h
    obtain ⟨before, hbefore, hstart⟩ := dropBytes?_eq_some hrest
    obtain ⟨after, rfl, hsize⟩ := takeBytes?_eq_some hds
    refine ⟨before, after, ?_, hstart.symm, ?_⟩
    · rw [hbefore, String.toList_ofList]
    · rw [String.toList_ofList, hsize]
      omega
  · exact absurd h (by simp)

theorem byteSize_pos {cs : List Char} (h : cs ≠ []) : 0 < byteSize cs := by
  cases cs with
  | nil => exact absurd rfl h
  | cons c cs =>
    have hpos := c.utf8Size_pos
    rw [byteSize_cons]
    omega

/-- Of two cuts of a text the later one leaves less behind it. -/
theorem exists_between {before rest before' rest' : List Char}
    (h : before ++ rest = before' ++ rest') (hle : byteSize before ≤ byteSize before') :
    ∃ between, before' = before ++ between ∧ rest = between ++ rest' := by
  rcases List.append_eq_append_iff.1 h with ⟨between, hbefore, hrest⟩ | ⟨between, hbefore, hrest⟩
  · exact ⟨between, hbefore, hrest⟩
  · -- The first cut is not the later one, so both are the same.
    have hnil : between = [] := by
      by_contra hne
      have hpos := byteSize_pos hne
      rw [hbefore, byteSize_append] at hle
      omega
    subst hnil
    exact ⟨[], by simpa using hbefore.symm, by simpa using hrest.symm⟩

/-- A slice that begins at a cut is what stands behind the cut. -/
theorem slice?_at {before rest : List Char} {cs : String} {stop : Nat}
    (h : document.toList = before ++ rest)
    (hslice : slice? document (byteSize before) stop = some cs) :
    ∃ after, rest = cs.toList ++ after ∧ stop = byteSize before + byteSize cs.toList := by
  obtain ⟨before', after, hsplit, hstart, rfl⟩ := slice?_eq_some hslice
  obtain ⟨between, rfl, hrest⟩ := exists_between (h.symm.trans hsplit) hstart.le
  have hnil : between = [] := by
    by_contra hne
    have hpos := byteSize_pos hne
    rw [byteSize_append] at hstart
    omega
  subst hnil
  exact ⟨after, hrest, by rw [hstart]⟩

/-- A slice that begins behind a cut, but not at it, leaves a character between. -/
theorem slice?_behind {before rest : List Char} {c : Char} {cs : String} {start stop : Nat}
    (h : document.toList = before ++ c :: rest) (hslice : slice? document start stop = some cs)
    (hlt : byteSize before < start) : byteSize (before ++ [c]) ≤ start := by
  obtain ⟨before', after, hsplit, rfl, -⟩ := slice?_eq_some hslice
  obtain ⟨between, rfl, hrest⟩ := exists_between (h.symm.trans hsplit) hlt.le
  cases between with
  | nil => exact absurd hlt (by simp)
  | cons d between =>
    obtain ⟨rfl, -⟩ := List.cons.inj hrest
    simp only [byteSize_append, byteSize_cons, byteSize_nil]
    omega

/-- No slice with something in it begins at the end. -/
theorem start_lt_of_slice? {cs : String} {start stop : Nat}
    (hslice : slice? document start stop = some cs) (hne : cs.toList ≠ []) :
    start < byteSize document.toList := by
  obtain ⟨before, after, hsplit, rfl, -⟩ := slice?_eq_some hslice
  have hpos := byteSize_pos hne
  rw [hsplit]
  simp only [byteSize_append]
  omega

/-- A slice with something in it ends behind its beginning. -/
theorem start_lt_stop_of_slice? {cs : String} {start stop : Nat}
    (hslice : slice? document start stop = some cs) (hne : cs.toList ≠ []) : start < stop := by
  obtain ⟨before, after, -, rfl, rfl⟩ := slice?_eq_some hslice
  have hpos := byteSize_pos hne
  omega

/-! ### Places where a placeholder could begin -/

/-- Delimiters stand around a text on one line: two opening parentheses at the first of two byte
    offsets, and two closing ones at the second. -/
structure Encloses (document : String) (start stop : Nat) : Prop where
  /-- The opening delimiter. -/
  opens : slice? document start (start + 2) = some "(("
  /-- The closing delimiter. -/
  closes : slice? document stop (stop + 2) = some "))"
  /-- It stands behind the opening one. -/
  behind : start + 2 ≤ stop
  /-- Between them the line does not end. -/
  oneLine : ∃ text, slice? document (start + 2) stop = some text ∧ '\n' ∉ text.toList

/-- A handle ends where a closing delimiter is on the line, at the latest. -/
theorem handleEnd?_ne_none {text : List Char} (h : '\n' ∉ text) (after : List Char) :
    handleEnd? (text ++ ')' :: ')' :: after) ≠ none := by
  induction text with
  | nil => simp [handleEnd?]
  | cons c text ih =>
    have hline : c ≠ '\n' := fun hc => h (hc ▸ List.mem_cons_self)
    have hrest : '\n' ∉ text := fun hmem => h (List.mem_cons_of_mem c hmem)
    by_cases hdelimiter : c = ')' ∧ (text ++ ')' :: ')' :: after).head? = some ')'
    · obtain ⟨rfl, hhead⟩ := hdelimiter
      obtain ⟨cs, hcs⟩ := List.head?_eq_some_iff.1 hhead
      rw [List.cons_append, hcs]
      simp [handleEnd?]
    · rw [List.cons_append, handleEnd?_cons hline fun hc hhead => hdelimiter ⟨hc, hhead⟩]
      simpa using ih hrest

/-- A placeholder could begin at a cut only if two opening parentheses stand behind it and a handle
    ends behind these. -/
theorem Encloses.exists_handle {before cs : List Char} {stop : Nat}
    (h : Encloses document (byteSize before) stop) (hdocument : document.toList = before ++ cs) :
    ∃ tail, cs = '(' :: '(' :: tail ∧ handleEnd? tail ≠ none := by
  -- The cut is moved behind the opening delimiter, then behind the text.
  obtain ⟨text, htext, hline⟩ := h.oneLine
  obtain ⟨tail, rfl, -⟩ := slice?_at hdocument h.opens
  replace hdocument : document.toList = (before ++ ['(', '(']) ++ tail := by simpa using hdocument
  have hsize : byteSize (before ++ ['(', '(']) = byteSize before + 2 := byteSize_append _ _
  rw [← hsize] at htext
  obtain ⟨rest, rfl, hstop⟩ := slice?_at hdocument htext
  replace hdocument : document.toList = (before ++ ['(', '('] ++ text.toList) ++ rest := by
    simpa using hdocument
  have hcloses := h.closes
  rw [hstop, ← byteSize_append] at hcloses
  obtain ⟨after, rfl, -⟩ := slice?_at hdocument hcloses
  exact ⟨_, rfl, handleEnd?_ne_none hline after⟩

/-- Where a placeholder stands, one could begin. -/
theorem encloses_placeholder {before handle after : List Char} (h : IsHandle handle)
    (hdocument : document.toList = before ++ (Segment.placeholder handle).source ++ after) :
    Encloses document (byteSize before) (byteSize before + 2 + byteSize handle) := by
  -- The same text, cut behind each of the two delimiters and behind the handle.
  have hopens : document.toList = before ++ (['(', '('] ++ (handle ++ [')', ')'] ++ after)) := by
    simpa [Segment.source] using hdocument
  have hline : document.toList
      = (before ++ ['(', '(']) ++ (handle ++ ([')', ')'] ++ after)) := by
    simpa using hopens
  have hcloses : document.toList
      = (before ++ ['(', '('] ++ handle) ++ ([')', ')'] ++ after) := by
    simpa using hline
  have hsize : byteSize (before ++ ['(', '(']) = byteSize before + 2 := byteSize_append _ _
  refine ⟨slice?_between hopens, ?_, by omega, String.ofList handle, ?_, ?_⟩
  · have hslice := slice?_between hcloses
    rwa [byteSize_append, hsize] at hslice
  · have hslice := slice?_between hline
    rwa [hsize] at hslice
  · rw [String.toList_ofList]
    exact h.oneLine

/-! ### Scans -/

/-- Placeholders that are those of a document from a byte offset on. -/
structure IsScan (document : String) (offset : Nat) (found : List Placeholder) : Prop where
  /-- None begins before the offset. -/
  begins : ∀ p ∈ found, offset ≤ p.start
  /-- Each of them ends before the next one begins. -/
  ordered : found.Pairwise fun p q => p.stop ≤ q.start
  /-- Each has its handle between its delimiters, and is cut out between characters. -/
  spans : ∀ p ∈ found, slice? document p.start p.stop = some ("((" ++ p.handle ++ "))")
  /-- No handle has a line feed or a closing delimiter in it, or a closing parenthesis at its end. -/
  handles : ∀ p ∈ found, IsHandle p.handle.toList
  /-- Outside of all of them no placeholder could begin. -/
  complete : ∀ start, offset ≤ start → (∀ p ∈ found, ¬ (p.start ≤ start ∧ start < p.stop)) →
    ∀ stop, ¬ Encloses document start stop

/-- The placeholders of a row stand behind its beginning, in order. -/
theorem ordered_locate (row : List Segment) (offset : Nat) :
    (∀ p ∈ Placeholder.locate offset row, offset ≤ p.start) ∧
      (Placeholder.locate offset row).Pairwise fun p q => p.stop ≤ q.start := by
  induction row generalizing offset with
  | nil => simp [Placeholder.locate]
  | cons segment rest ih =>
    obtain ⟨hbegins, hordered⟩ := ih (offset + byteSize segment.source)
    have hbehind : ∀ p ∈ Placeholder.locate (offset + byteSize segment.source) rest,
        offset ≤ p.start := fun p hp => le_trans (Nat.le_add_right _ _) (hbegins p hp)
    cases segment with
    | literal c => exact ⟨hbehind, hordered⟩
    | placeholder raw =>
      exact ⟨List.forall_mem_cons.2 ⟨le_rfl, hbehind⟩, List.pairwise_cons.2 ⟨hbegins, hordered⟩⟩

/-- The handles of a readable row can stand where they do. -/
theorem isHandle_of_mem_locate {row : List Segment} (h : Readable row) (offset : Nat)
    {p : Placeholder} (hp : p ∈ Placeholder.locate offset row) : IsHandle p.handle.toList := by
  induction row generalizing offset with
  | nil => exact absurd hp List.not_mem_nil
  | cons segment rest ih =>
    cases segment with
    | literal c => exact ih h.2 _ hp
    | placeholder raw =>
      rcases List.mem_cons.1 hp with rfl | hp
      · rw [String.toList_ofList]
        exact h.1
      · exact ih h.2 _ hp

/-- **No placeholder is left out** of a readable row. -/
theorem not_encloses_of_outside {row : List Segment} (hreadable : Readable row)
    {before : List Char} (hdocument : document.toList = before ++ source row) {start : Nat}
    (hstart : byteSize before ≤ start)
    (houtside : ∀ p ∈ Placeholder.locate (byteSize before) row, ¬ (p.start ≤ start ∧ start < p.stop))
    (stop : Nat) : ¬ Encloses document start stop := by
  intro hencloses
  induction row generalizing before with
  | nil =>
    have hlt := start_lt_of_slice? hencloses.opens (by simp)
    rw [hdocument, source_nil, List.append_nil] at hlt
    omega
  | cons segment rest ih =>
    have hrest : document.toList = (before ++ segment.source) ++ source rest := by
      rw [hdocument, List.append_assoc]
      rfl
    cases segment with
    | literal c =>
      rcases hstart.eq_or_lt with rfl | hlt
      · -- At the literal itself no handle ends behind two opening parentheses.
        obtain ⟨tail, hopen, hhandle⟩ := hencloses.exists_handle hdocument
        obtain ⟨rfl, htail⟩ := List.cons.inj hopen
        exact hhandle (hreadable.1 rfl tail htail)
      · have hbehind := slice?_behind hdocument hencloses.opens hlt
        exact ih hreadable.2 hrest hbehind (by rwa [byteSize_append])
    | placeholder raw =>
      obtain ⟨hspan, houtside⟩ := List.forall_mem_cons.1 houtside
      have hbehind : byteSize (before ++ (Segment.placeholder raw).source) ≤ start := by
        rw [byteSize_append]
        by_contra hbefore
        exact hspan ⟨hstart, Nat.lt_of_not_le hbefore⟩
      exact ih hreadable.2 hrest hbehind (by rwa [byteSize_append])

/-- **The placeholders of a readable row are a scan.** -/
theorem IsScan.locate {row : List Segment} (hreadable : Readable row) {before : List Char}
    (hdocument : document.toList = before ++ source row) :
    IsScan document (byteSize before) (Placeholder.locate (byteSize before) row) where
  begins := (ordered_locate row _).1
  ordered := (ordered_locate row _).2
  spans := fun _ hp => slice?_of_mem_locate row before hdocument hp
  handles := fun _ hp => isHandle_of_mem_locate hreadable _ hp
  complete := fun _ hstart houtside stop =>
    not_encloses_of_outside hreadable hdocument hstart houtside stop

/-! ### There is only one scan -/

/-- A placeholder that begins at a cut is what the search for the end of its handle finds there. -/
theorem exists_of_begins {p : Placeholder} {before cs : List Char}
    (hdocument : document.toList = before ++ cs) (hhandle : IsHandle p.handle.toList)
    (hstart : p.start = byteSize before)
    (hspan : slice? document p.start p.stop = some ("((" ++ p.handle ++ "))")) :
    ∃ tail after, cs = '(' :: '(' :: tail ∧ handleEnd? tail = some (p.handle.toList, after) ∧
      p.stop = byteSize before + byteSize (Segment.placeholder p.handle.toList).source := by
  rw [hstart] at hspan
  obtain ⟨after, rfl, hstop⟩ := slice?_at hdocument hspan
  refine ⟨p.handle.toList ++ ')' :: ')' :: after, after, by simp, hhandle.handleEnd?_eq after, ?_⟩
  rw [hstop]
  simp [Segment.source]

/-- A scan goes on behind a character at which no placeholder begins. -/
theorem IsScan.literal {before rest : List Char} {c : Char} {found : List Placeholder}
    (h : IsScan document (byteSize before) found)
    (hdocument : document.toList = before ++ c :: rest)
    (hnone : c = '(' → ∀ tail, rest = '(' :: tail → handleEnd? tail = none) :
    IsScan document (byteSize (before ++ [c])) found where
  begins := fun p hp => by
    rcases (h.begins p hp).eq_or_lt with hstart | hlt
    · obtain ⟨tail, after, hopen, hhandle, -⟩ :=
        exists_of_begins hdocument (h.handles p hp) hstart.symm (h.spans p hp)
      obtain ⟨rfl, htail⟩ := List.cons.inj hopen
      rw [hnone rfl tail htail] at hhandle
      exact absurd hhandle (by simp)
    · exact slice?_behind hdocument (h.spans p hp) hlt
  ordered := h.ordered
  spans := h.spans
  handles := h.handles
  complete := fun start hstart => h.complete start (by
    rw [byteSize_append] at hstart
    omega)

/-- What begins where a scan begins is the first of the scan: any other one stands behind the end of
    the first. -/
theorem IsScan.eq_first {offset : Nat} {p first : Placeholder} {rest : List Placeholder}
    (h : IsScan document offset (first :: rest)) (hp : p ∈ first :: rest)
    (hstart : p.start = offset) : p = first := by
  rcases List.mem_cons.1 hp with hfirst | hrest
  · exact hfirst
  · have hbegins := h.begins first List.mem_cons_self
    have hends := (List.pairwise_cons.1 h.ordered).1 p hrest
    have hspan := start_lt_stop_of_slice? (h.spans first List.mem_cons_self) (by simp)
    omega

/-- A scan goes on behind its first placeholder. -/
theorem IsScan.tail {offset : Nat} {p : Placeholder} {rest : List Placeholder}
    (h : IsScan document offset (p :: rest)) : IsScan document p.stop rest where
  begins := (List.pairwise_cons.1 h.ordered).1
  ordered := (List.pairwise_cons.1 h.ordered).2
  spans := fun q hq => h.spans q (List.mem_cons_of_mem p hq)
  handles := fun q hq => h.handles q (List.mem_cons_of_mem p hq)
  complete := fun start hstop houtside => by
    have hbegins := h.begins p List.mem_cons_self
    have hspan := start_lt_stop_of_slice? (h.spans p List.mem_cons_self) (by simp)
    have hbehind : ¬ (p.start ≤ start ∧ start < p.stop) := fun hcover =>
      absurd hcover.2 (Nat.not_lt.2 hstop)
    exact h.complete start (by omega) (List.forall_mem_cons.2 ⟨hbehind, houtside⟩)

/-- Where a placeholder stands, a scan begins with it and goes on behind it. -/
theorem IsScan.placeholder {before raw after : List Char} {found : List Placeholder}
    (h : IsScan document (byteSize before) found) (hraw : IsHandle raw)
    (hdocument : document.toList = before ++ (Segment.placeholder raw).source ++ after) :
    let stop := byteSize before + byteSize (Segment.placeholder raw).source
    ∃ rest, found = ⟨byteSize before, stop, String.ofList raw⟩ :: rest ∧ IsScan document stop rest := by
  intro stop
  -- One could begin here, so the scan has one that covers this place.
  have hcovered : ∃ p ∈ found, p.start ≤ byteSize before ∧ byteSize before < p.stop := by
    by_contra hnone
    refine h.complete _ le_rfl (fun p hp hcover => hnone ⟨p, hp, hcover⟩) _
      (encloses_placeholder hraw hdocument)
  obtain ⟨p, hp, hle, hlt⟩ := hcovered
  have hstart : p.start = byteSize before := le_antisymm hle (h.begins p hp)
  cases found with
  | nil => exact absurd hp List.not_mem_nil
  | cons first rest =>
    obtain rfl := h.eq_first hp hstart
    rw [List.append_assoc] at hdocument
    obtain ⟨tail, after', hopen, hhandle, hstop⟩ :=
      exists_of_begins hdocument (h.handles p hp) hstart (h.spans p hp)
    have htail : tail = raw ++ ')' :: ')' :: after := by
      simpa [Segment.source] using hopen.symm
    rw [htail, hraw.handleEnd?_eq] at hhandle
    obtain ⟨hsame, -⟩ := Prod.mk.inj (Option.some.inj hhandle)
    rw [← hsame] at hstop
    have hname : p.handle = String.ofList raw := by rw [hsame, String.ofList_toList]
    have hscan := h.tail
    rw [hstop] at hscan
    refine ⟨rest, ?_, hscan⟩
    show (⟨p.start, p.stop, p.handle⟩ : Placeholder) :: rest = _
    rw [hstart, hstop, hname]

/-- **A scan is made of the placeholders of the row** that is read. -/
theorem IsScan.eq_locate {row : List Segment} (hreadable : Readable row) {before : List Char}
    (hdocument : document.toList = before ++ source row) {found : List Placeholder}
    (h : IsScan document (byteSize before) found) :
    found = Placeholder.locate (byteSize before) row := by
  -- By induction on the row: behind each of its segments the scan goes on.
  induction row generalizing before found with
  | nil =>
    refine List.eq_nil_iff_forall_not_mem.2 fun p hp => ?_
    have hlt := start_lt_of_slice? (h.spans p hp) (by simp)
    have hbegins := h.begins p hp
    rw [hdocument, source_nil, List.append_nil] at hlt
    omega
  | cons segment rest ih =>
    have hrest : document.toList = (before ++ segment.source) ++ source rest := by
      rw [hdocument, List.append_assoc]
      rfl
    cases segment with
    | literal c =>
      have hfound := ih hreadable.2 hrest (h.literal hdocument hreadable.1)
      rwa [byteSize_append] at hfound
    | placeholder raw =>
      obtain ⟨found, rfl, hscan⟩ := h.placeholder hreadable.1 hrest
      rw [← byteSize_append] at hscan
      have hfound := ih hreadable.2 hrest hscan
      rw [byteSize_append] at hfound
      rw [hfound]
      rfl

/-- **The scanner finds exactly the placeholders.**  What it finds is a scan of the document, and a
    document has no other: the spans are in order and apart from each other, they are cut between
    characters and hold handles between delimiters, and where none of them is no placeholder could
    begin.  A document has placeholders iff some are found, and iff delimiters stand around a text
    on one line anywhere. -/
theorem find_exact (document : String) :
    (∀ found, IsScan document 0 found ↔ found = Placeholder.find document) ∧
    (hasPlaceholders document = true ↔ Placeholder.find document ≠ []) ∧
    (hasPlaceholders document = true ↔ ∃ start stop, Encloses document start stop) := by
  obtain ⟨hsource, hreadable⟩ := source_segments document.toList
  have hdocument : document.toList = [] ++ source (segments document.toList) := hsource.symm
  have hscan : IsScan document 0 (Placeholder.find document) := IsScan.locate hreadable hdocument
  refine ⟨fun found => ⟨fun h => h.eq_locate hreadable hdocument, fun h => h ▸ hscan⟩,
    hasPlaceholders_iff, hasPlaceholders_iff.trans ⟨fun hsome => ?_, ?_⟩⟩
  · -- A placeholder that is found stands where one could begin.
    obtain ⟨p, hp⟩ := List.exists_mem_of_ne_nil _ hsome
    obtain ⟨before, after, hsplit, -, -⟩ := slice?_eq_some (hscan.spans p hp)
    have hplaceholder : document.toList
        = before ++ (Segment.placeholder p.handle.toList).source ++ after := by
      simpa [Segment.source] using hsplit
    exact ⟨_, _, encloses_placeholder (hscan.handles p hp) hplaceholder⟩
  · -- An empty scan covers no place, so nothing could begin.
    rintro ⟨start, stop, hencloses⟩ hnone
    refine hscan.complete start (Nat.zero_le _) (fun p hp => ?_) stop hencloses
    rw [hnone] at hp
    exact absurd hp List.not_mem_nil

end SecretFill
