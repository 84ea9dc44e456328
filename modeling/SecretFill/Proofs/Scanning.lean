import SecretFill.Placeholder

namespace SecretFill

/-!
# What the scanner reads

A row of segments can be written out.  The scanner reads the same row from the text iff every handle
ends where it should and no placeholder begins at a literal.

* `source` — the text of a row of segments.
* `IsHandle` — the texts that can stand between the delimiters of a placeholder.
* `Readable` — nothing in the text of a row is misread.
* `segments_source`, `source_segments` — the scanner reads the rows that are readable, and only
  these.
* `holdsPlaceholder_source` — the search for some placeholder finds one iff the row has one.
* `Closed` — what follows a row does not matter to its reading; `Closed.readable_append` — what is
  readable may follow.
-/

/-- The text of a row of segments. -/
def source (row : List Segment) : List Char := row.flatMap Segment.source

@[simp] theorem source_nil : source [] = [] := rfl

@[simp] theorem source_literal (c : Char) (rest : List Segment) :
    source (.literal c :: rest) = c :: source rest := rfl

@[simp] theorem source_placeholder (handle : List Char) (rest : List Segment) :
    source (.placeholder handle :: rest)
      = '(' :: '(' :: (handle ++ ')' :: ')' :: source rest) := by
  simp [source, Segment.source]

theorem source_append (row row' : List Segment) :
    source (row ++ row') = source row ++ source row' := List.flatMap_append

/-! ### Handles in a document -/

/-- A text that can stand between the delimiters of a placeholder: it is on one line, and the first
    closing delimiter behind its beginning is the one behind its end. -/
structure IsHandle (handle : List Char) : Prop where
  /-- It is on one line. -/
  oneLine : '\n' ∉ handle
  /-- No closing delimiter is in it. -/
  noDelimiter : ¬ [')', ')'] <:+: handle
  /-- Nor does one begin at its end. -/
  noLast : handle.getLast? ≠ some ')'

namespace IsHandle

variable {handle rest : List Char} {c : Char}

theorem nil : IsHandle [] := ⟨by simp, by simp, by simp⟩

/-- A character may be put before a handle unless it makes a delimiter with what follows. -/
theorem cons (h : IsHandle handle) (hline : c ≠ '\n')
    (hc : c = ')' → ∃ d ds, handle = d :: ds ∧ d ≠ ')') : IsHandle (c :: handle) where
  oneLine := by simp [h.oneLine, hline.symm]
  noDelimiter := by
    rw [List.infix_cons_iff]
    rintro (hfirst | hwithin)
    · obtain ⟨hclose, hsecond⟩ := List.cons_prefix_cons.1 hfirst
      obtain ⟨d, ds, rfl, hd⟩ := hc hclose.symm
      exact hd (List.cons_prefix_cons.1 hsecond).1.symm
    · exact h.noDelimiter hwithin
  noLast := by
    cases handle with
    | nil =>
      intro hlast
      obtain ⟨d, ds, hnil, -⟩ := hc (Option.some.inj hlast)
      exact absurd hnil (by simp)
    | cons d ds => simpa using h.noLast

/-- A row of characters that close nothing may be put before a handle. -/
theorem append (h : IsHandle handle) (before : List Char)
    (hbefore : ∀ c ∈ before, c ≠ '\n' ∧ c ≠ ')') : IsHandle (before ++ handle) := by
  induction before with
  | nil => exact h
  | cons c before ih =>
    obtain ⟨hline, hc⟩ := hbefore c List.mem_cons_self
    exact (ih fun d hd => hbefore d (List.mem_cons_of_mem c hd)).cons hline fun h => absurd h hc

theorem of_forall (h : ∀ c ∈ handle, c ≠ '\n' ∧ c ≠ ')') : IsHandle handle := by
  simpa using nil.append handle h

/-- What is left of a handle is one. -/
theorem tail (h : IsHandle (c :: handle)) : IsHandle handle where
  oneLine := fun hmem => h.oneLine (List.mem_cons_of_mem c hmem)
  noDelimiter := fun hwithin => h.noDelimiter (List.infix_cons hwithin)
  noLast := by
    cases handle with
    | nil => simp
    | cons d ds => simpa using h.noLast

end IsHandle

/-- The search for the end of a handle goes on behind a character, unless a delimiter begins or the
    line ends there. -/
theorem handleEnd?_cons {c : Char} {cs : List Char} (hline : c ≠ '\n')
    (h : c = ')' → cs.head? ≠ some ')') :
    handleEnd? (c :: cs) = (handleEnd? cs).map fun (handle, rest) => (c :: handle, rest) := by
  rw [handleEnd?, if_neg hline]
  rintro rest hc rfl
  exact h hc rfl

/-- **A handle ends at its delimiter.** -/
theorem IsHandle.handleEnd?_eq {handle : List Char} (h : IsHandle handle) (rest : List Char) :
    handleEnd? (handle ++ ')' :: ')' :: rest) = some (handle, rest) := by
  induction handle with
  | nil => rfl
  | cons c handle ih =>
    have hline : c ≠ '\n' := fun hc => h.oneLine (hc ▸ List.mem_cons_self)
    have hnext : c = ')' → (handle ++ ')' :: ')' :: rest).head? ≠ some ')' := by
      rintro rfl
      cases handle with
      | nil => exact absurd rfl h.noLast
      | cons d ds =>
        intro hd
        obtain rfl : d = ')' := Option.some.inj hd
        exact h.noDelimiter ⟨[], ds, rfl⟩
    rw [List.cons_append, handleEnd?_cons hline hnext, ih h.tail]
    rfl

/-- What the search finds is a handle, and the text is made of it, the delimiter and the rest. -/
theorem of_handleEnd?_eq_some {cs handle rest : List Char}
    (h : handleEnd? cs = some (handle, rest)) :
    IsHandle handle ∧ cs = handle ++ ')' :: ')' :: rest := by
  fun_induction handleEnd? cs generalizing handle rest with
  | case1 => exact absurd h (by simp)
  | case2 after =>
    obtain ⟨rfl, rfl⟩ := Prod.mk.inj (Option.some.inj h)
    exact ⟨.nil, rfl⟩
  | case3 => exact absurd h (by simp)
  | case4 c after hnext hline ih =>
    obtain ⟨⟨handle', rest'⟩, hfound, heq⟩ := Option.map_eq_some_iff.1 h
    obtain ⟨rfl, rfl⟩ := Prod.mk.inj heq
    obtain ⟨hhandle, rfl⟩ := ih hfound
    refine ⟨hhandle.cons hline fun hc => ?_, rfl⟩
    cases handle' with
    | nil => exact (hnext _ hc rfl).elim
    | cons d ds => exact ⟨d, ds, rfl, fun hd => hnext _ hc (by rw [hd]; rfl)⟩

/-! ### Rows that are read back -/

/-- A placeholder is read where a handle follows its opening delimiter. -/
theorem segments_placeholder {cs handle rest : List Char}
    (h : handleEnd? cs = some (handle, rest)) :
    segments ('(' :: '(' :: cs) = .placeholder handle :: segments rest := by
  rw [segments.eq_2]
  split
  · rename_i handle' rest' h'
    rw [h] at h'
    obtain ⟨rfl, rfl⟩ := Prod.mk.inj (Option.some.inj h')
    rfl
  · rename_i h'
    rw [h] at h'
    exact absurd h' (by simp)

/-- A literal is read where no placeholder begins. -/
theorem segments_literal {c : Char} {cs : List Char}
    (h : c = '(' → ∀ tail, cs = '(' :: tail → handleEnd? tail = none) :
    segments (c :: cs) = .literal c :: segments cs := by
  by_cases hopen : c = '(' ∧ ∃ tail, cs = '(' :: tail
  · obtain ⟨rfl, tail, rfl⟩ := hopen
    rw [segments.eq_2]
    split
    · rename_i h'
      rw [h rfl tail rfl] at h'
      exact absurd h' (by simp)
    · rfl
  · rw [segments.eq_3]
    exact fun tail hc hcs => hopen ⟨hc, tail, hcs⟩

/-- Nothing in the text of a row is misread: between its delimiters each placeholder has a handle,
    and where two opening parentheses begin at a literal, no handle ends behind them. -/
def Readable : List Segment → Prop
  | [] => True
  | .placeholder handle :: rest => IsHandle handle ∧ Readable rest
  | .literal c :: rest =>
    (c = '(' → ∀ tail, source rest = '(' :: tail → handleEnd? tail = none) ∧ Readable rest

/-- **The scanner reads a readable row** from its text. -/
theorem segments_source {row : List Segment} (h : Readable row) : segments (source row) = row := by
  induction row with
  | nil => exact segments.eq_1
  | cons segment rest ih =>
    cases segment with
    | literal c => rw [source_literal, segments_literal h.1, ih h.2]
    | placeholder handle =>
      rw [source_placeholder, segments_placeholder (h.1.handleEnd?_eq _), ih h.2]

/-- **Every text is that of the row** that the scanner reads from it, and this row is readable. -/
theorem source_segments (cs : List Char) : source (segments cs) = cs ∧ Readable (segments cs) := by
  fun_induction segments cs with
  | case1 => exact ⟨rfl, trivial⟩
  | case2 cs handle after hfound ih =>
    obtain ⟨hhandle, rfl⟩ := of_handleEnd?_eq_some hfound
    rw [source_placeholder, ih.1]
    exact ⟨rfl, hhandle, ih.2⟩
  -- An opening delimiter behind which no handle ends is text.
  | case3 cs hnone ih =>
    rw [source_literal, ih.1]
    refine ⟨rfl, fun _ tail htail => ?_, ih.2⟩
    rw [ih.1] at htail
    obtain ⟨-, rfl⟩ := List.cons.inj htail
    exact hnone
  | case4 c cs hopen ih =>
    rw [source_literal, ih.1]
    refine ⟨rfl, fun hc tail htail => ?_, ih.2⟩
    rw [ih.1] at htail
    exact absurd htail fun htail => hopen tail hc htail

/-! ### Whether there are placeholders -/

/-- A line closes a placeholder iff a handle ends on it. -/
theorem closes_iff {cs : List Char} : closes cs = true ↔ handleEnd? cs ≠ none := by
  fun_induction handleEnd? cs with
  | case1 => simp [closes]
  | case2 => simp [closes]
  | case3 rest hdelimiter => simp [closes]
  | case4 c rest hdelimiter hline ih =>
    rw [closes.eq_3 c rest hdelimiter, decide_eq_true hline, Bool.true_and, ih]
    simp

/-- A placeholder begins a text iff two opening parentheses do, and a handle ends behind them. -/
theorem opensPlaceholder_iff {cs : List Char} :
    opensPlaceholder cs = true ↔ ∃ tail, cs = '(' :: '(' :: tail ∧ handleEnd? tail ≠ none := by
  fun_cases opensPlaceholder cs with
  | case1 tail => simp [closes_iff]
  | case2 cs hother =>
    refine iff_of_false Bool.false_ne_true ?_
    rintro ⟨tail, hopen, -⟩
    exact hother tail hopen

/-- **A placeholder is found** somewhere in the text of a readable row iff the row has one. -/
theorem holdsPlaceholder_source {row : List Segment} (h : Readable row) (offset : Nat) :
    holdsPlaceholder (source row) = true ↔ Placeholder.locate offset row ≠ [] := by
  induction row generalizing offset with
  | nil => simp [holdsPlaceholder, Placeholder.locate]
  | cons segment rest ih =>
    cases segment with
    | literal c =>
      have hnone : opensPlaceholder (c :: source rest) = false := by
        rw [← Bool.not_eq_true, opensPlaceholder_iff]
        rintro ⟨tail, hopen, hhandle⟩
        obtain ⟨hc, htail⟩ := List.cons.inj hopen
        exact hhandle (h.1 hc tail htail)
      rw [source_literal, holdsPlaceholder, hnone, Bool.false_or]
      exact ih h.2 _
    | placeholder handle =>
      have hopens : opensPlaceholder (source (.placeholder handle :: rest)) = true := by
        rw [source_placeholder, opensPlaceholder_iff]
        exact ⟨_, rfl, by simp [h.1.handleEnd?_eq]⟩
      rw [source_placeholder] at hopens ⊢
      simp [holdsPlaceholder, hopens, Placeholder.locate]

/-- **A document has placeholders** iff some are found. -/
theorem hasPlaceholders_iff {document : String} :
    hasPlaceholders document = true ↔ Placeholder.find document ≠ [] := by
  obtain ⟨hsource, hreadable⟩ := source_segments document.toList
  have hholds := holdsPlaceholder_source hreadable 0
  rw [hsource] at hholds
  exact hholds

/-! ### Rows before others -/

/-- No opening delimiter begins at a literal, whatever follows the row: behind an opening
    parenthesis stands another character of the row. -/
def Closed : List Segment → Prop
  | [] => True
  | .placeholder handle :: rest => IsHandle handle ∧ Closed rest
  | .literal c :: rest => (c = '(' → ∃ d rest', rest = .literal d :: rest' ∧ d ≠ '(') ∧ Closed rest

namespace Closed

variable {row row' : List Segment} {cs : List Char}

theorem append (h : Closed row) (h' : Closed row') : Closed (row ++ row') := by
  induction row with
  | nil => exact h'
  | cons segment rest ih =>
    cases segment with
    | placeholder handle => exact ⟨h.1, ih h.2⟩
    | literal c =>
      refine ⟨fun hc => ?_, ih h.2⟩
      obtain ⟨d, rest', rfl, hd⟩ := h.1 hc
      exact ⟨d, rest' ++ row', rfl, hd⟩

/-- **A readable row may follow** a closed one. -/
theorem readable_append (h : Closed row) (h' : Readable row') : Readable (row ++ row') := by
  induction row with
  | nil => exact h'
  | cons segment rest ih =>
    cases segment with
    | placeholder handle => exact ⟨h.1, ih h.2⟩
    | literal c =>
      refine ⟨fun hc tail htail => ?_, ih h.2⟩
      obtain ⟨d, rest', rfl, hd⟩ := h.1 hc
      exact absurd (List.cons.inj htail).1 hd

theorem readable (h : Closed row) : Readable row := by
  have hreadable : Readable (row ++ []) := h.readable_append trivial
  rwa [List.append_nil] at hreadable

/-- A text is closed if no opening delimiter is in it and none begins at its end. -/
theorem literals (hwithin : ¬ ['(', '('] <:+: cs) (hlast : cs.getLast? ≠ some '(') :
    Closed (cs.map .literal) := by
  induction cs with
  | nil => trivial
  | cons c cs ih =>
    refine ⟨fun hc => ?_, ih (fun h => hwithin (List.infix_cons h)) ?_⟩
    · subst hc
      cases cs with
      | nil => exact absurd rfl hlast
      | cons d ds =>
        refine ⟨d, ds.map .literal, rfl, ?_⟩
        rintro rfl
        exact hwithin ⟨[], ds, rfl⟩
    · cases cs with
      | nil => simp
      | cons d ds => simpa using hlast

/-- A text without opening parentheses is closed. -/
theorem of_not_mem (h : '(' ∉ cs) : Closed (cs.map .literal) :=
  literals (fun hwithin => h (hwithin.subset List.mem_cons_self)) fun hlast =>
    h (List.mem_of_getLast? hlast)

end Closed

end SecretFill
