import SecretFill.Proofs.Trees
import SecretFill.Proofs.Notes

namespace SecretFill

/-!
# JSON strings as double-quoted scalars

What is filled in for a whole secret is a JSON string, and in YAML a JSON string is a double-quoted
scalar.  JSON escapes the control characters below U+0020, the quote and the backslash; YAML refuses
other control characters, folds next-line characters, and drops spaces beside the line and paragraph
separators.  All other secrets are read back.

* `survives` — the rows of characters that are read back from their JSON string.
* `Takes` — what the reader does with one character of a JSON string.
* `doubleFrom_quotedTail_iff` — the reader of the scalar gives back these and no others.
* `read_quotedLine` — what a line of a key and a JSON string is as a document.
* `extract_quote_iff`, `render_rereads` — the same for a secret that is filled in behind a key.
* `extract_quote_of_no_break` — without line breaks only characters that YAML refuses are lost.
-/

namespace Yaml

open Json (escape shortlyEscaped)

variable {c : Char} {cs read rest : List Char} {spacing : Spacing} {mark : Mark}

/-! ### One character -/

/-- The line breaks that a JSON string holds as they are. -/
def isSeparator (c : Char) : Bool := c == '\u2028' || c == '\u2029'

/-- A backslash begins an escape, whatever white space is before it. -/
theorem doubleFrom_backslash : doubleFrom read (.text spacing) ('\\' :: rest) mark
    = doubleFrom (spacing.text ++ read) (.escape mark) rest mark.next := by
  rw [doubleFrom.eq_def]
  simp [isBreak, isGap, atDocumentMarker, atDocumentStart, atDocumentEnd]

/-- The closing quote. -/
theorem doubleFrom_quote : doubleFrom read (.text spacing) ('"' :: rest) mark
    = .ok ((spacing.text ++ read).reverse, ⟨rest, mark.next⟩) := by
  rw [doubleFrom.eq_def]
  simp [isBreak, isGap, atDocumentMarker, atDocumentStart, atDocumentEnd]

/-- A short escape. -/
theorem doubleFrom_escape {backslash : Mark} {d : Char} (hbreak : isBreak c = false)
    (hc : escape? c = some (.stands d)) : doubleFrom read (.escape backslash) (c :: rest) mark
      = doubleFrom (d :: read) (.text .empty) rest mark.next := by
  have hcr : c ≠ '\r' := by
    rintro rfl
    exact absurd hbreak (by decide)
  rw [doubleFrom.eq_def]
  simp [hcr, hbreak, hc]

theorem hexValue?_hexDigit (n : Nat) : hexValue? (Json.hexDigit n) = some (n % 16) := by
  have hall : ∀ m : Fin 16, hexValue? (Nat.digitChar m.val) = some m.val := by decide
  exact hall ⟨n % 16, Nat.mod_lt _ (by decide)⟩

/-- The digits of a control character. -/
theorem doubleFrom_digits {start : Mark} {a b d : Char} {high low : Nat}
    (ha : hexValue? a = some high) (hb : hexValue? b = some low)
    (hd : scalarValue? (high * 16 + low) = some d) :
    doubleFrom read (.code start 4 0) ('0' :: '0' :: a :: b :: rest) mark
      = doubleFrom (d :: read) (.text .empty) rest mark.next.next.next.next := by
  have hzero : hexValue? '0' = some 0 := by decide
  simp [doubleFrom, hzero, ha, hb, hd]

/-- What stands for a character is read as this character. -/
theorem doubleFrom_escaped (hc : escape c ≠ [c]) :
    doubleFrom read (.text spacing) (escape c ++ rest) mark
      = doubleFrom (c :: (spacing.text ++ read)) (.text .empty) rest (mark.skip (escape c).length) := by
  by_cases hshort : c ∈ shortlyEscaped
  · -- One of the seven characters that have an escape of two characters.
    simp only [shortlyEscaped, List.mem_cons, List.not_mem_nil, or_false] at hshort
    have hescape : ∀ d, isBreak d = false → escape? d = some (.stands c) → escape c = ['\\', d] →
        doubleFrom read (.text spacing) (escape c ++ rest) mark
          = doubleFrom (c :: (spacing.text ++ read)) (.text .empty) rest
            (mark.skip (escape c).length) := by
      intro d hbreak hd heq
      rw [heq]
      exact doubleFrom_backslash.trans (doubleFrom_escape hbreak hd)
    rcases hshort with rfl | rfl | rfl | rfl | rfl | rfl | rfl
    · exact hescape '"' (by decide) rfl rfl
    · exact hescape '\\' (by decide) rfl rfl
    · exact hescape 'b' (by decide) rfl rfl
    · exact hescape 't' (by decide) rfl rfl
    · exact hescape 'n' (by decide) rfl rfl
    · exact hescape 'f' (by decide) rfl rfl
    · exact hescape 'r' (by decide) rfl rfl
  · by_cases hcontrol : c.toNat < 0x20
    · -- A control character is written with four digits, of which the first two are zeros.
      have hvalue : scalarValue? ((c.toNat / 16 % 16) * 16 + c.toNat % 16) = some c := by
        have hback : (c.toNat / 16 % 16) * 16 + c.toNat % 16 = c.toNat := by omega
        have hscalar : c.toNat < 0xD800 := by omega
        rw [hback, scalarValue?, if_pos (.inl hscalar), Char.ofNat_toNat]
      have hmark : mark.next.next.next.next.next.next = mark.skip 6 := rfl
      have hcode : doubleFrom (spacing.text ++ read) (.escape mark)
            ('u' :: '0' :: '0' :: Json.hexDigit (c.toNat / 16) :: Json.hexDigit c.toNat :: rest)
            mark.next
          = doubleFrom (spacing.text ++ read) (.code mark.next.next 4 0)
            ('0' :: '0' :: Json.hexDigit (c.toNat / 16) :: Json.hexDigit c.toNat :: rest)
            mark.next.next := by
        rw [doubleFrom.eq_def]
        simp [isBreak, escape?]
      rw [Json.escape_control hshort hcontrol]
      refine doubleFrom_backslash.trans (hcode.trans ?_)
      rw [doubleFrom_digits (hexValue?_hexDigit _) (hexValue?_hexDigit _) hvalue, hmark]
      rfl
    · -- Every other character stands for itself.
      exact absurd (Json.escape_plain hshort (Nat.not_lt.1 hcontrol)) hc

/-! ### What survives quoting -/

/-- A row of characters between the quotes of a JSON string, up to the closing one. -/
def quotedTail (cs : List Char) : List Char := cs.flatMap escape ++ ['"']

/-- Whether a row behind another character is read back from its JSON string: each character is escaped
    or may stand in a stream, none is a next-line character, and beside a separator stands no space
    and behind it no document marker. -/
def survives (previous : Char) : List Char → Bool
  | [] => true
  | c :: cs =>
    (decide (c.toNat < 0x20) || isAllowed c) && c != '\u0085'
      && !(previous == ' ' && isSeparator c)
      && !(isSeparator previous && (c == ' ' || atDocumentMarker (quotedTail (c :: cs))))
      && survives c cs

/-- The white space that is read up to behind a character. -/
inductive Behind : Char → Spacing → Prop where
  /-- No white space. -/
  | word {c : Char} (hspace : c ≠ ' ') (hbreak : isSeparator c = false) : Behind c .empty
  /-- Spaces. -/
  | gap (gaps : List Char) : Behind ' ' (.within (' ' :: gaps))
  /-- Separators. -/
  | line {c first : Char} (others : List Char) (hbreak : isSeparator c = true)
    (hfirst : first ≠ '\n') : Behind c (.across (some first) others)

variable {previous : Char} {out : List Char} {after : Cursor}

@[simp] theorem Spacing.text_empty : Spacing.empty.text = [] := rfl

theorem Spacing.text_across {first : Char} {others : List Char} (h : first ≠ '\n') :
    (Spacing.across (some first) others).text = others ++ [first] := by
  simp [Spacing.text, h]

/-- The characters that stand for themselves in a JSON string. -/
theorem ne_of_escape (hc : escape c = [c]) {d : Char} (hd : escape d ≠ [d]) : c ≠ d := by
  rintro rfl
  exact hd hc

/-- A separator in quotes. -/
theorem doubleFrom_break (hc : escape c = [c]) (hbreak : isBreak c = true) :
    doubleFrom read (.text spacing) (c :: rest) mark
      = doubleFrom read (.text (spacing.lineBreak c)) rest (mark.nextLine 1) := by
  have hcr : c ≠ '\r' := ne_of_escape hc (by decide)
  rw [doubleFrom.eq_def]
  simp [hcr, hbreak]

/-- A space in quotes. -/
theorem doubleFrom_space : doubleFrom read (.text spacing) (' ' :: rest) mark
    = doubleFrom read (.text (spacing.gap ' ')) rest mark.next := by
  rw [doubleFrom.eq_def]
  simp [isBreak, isGap]

/-- Any other character. -/
theorem doubleFrom_plain (hc : escape c = [c]) (hbreak : isBreak c = false) (hspace : c ≠ ' ') :
    doubleFrom read (.text spacing) (c :: rest) mark
      = if mark.column = 0 ∧ atDocumentMarker (c :: rest) then .error (.here mark)
        else doubleFrom (c :: (spacing.text ++ read)) (.text .empty) rest mark.next := by
  have hcr : c ≠ '\r' := ne_of_escape hc (by decide)
  have htab : c ≠ '\t' := ne_of_escape hc (by decide)
  have hquote : c ≠ '"' := ne_of_escape hc (by decide)
  have hback : c ≠ '\\' := ne_of_escape hc (by decide)
  rw [doubleFrom.eq_def]
  simp [hcr, hbreak, isGap, hspace, htab, hquote, hback]

theorem quotedTail_cons : quotedTail (c :: cs) = escape c ++ quotedTail cs := by
  simp [quotedTail]

/-- A character that is escaped is no white space. -/
theorem not_space_of_escaped (hc : escape c ≠ [c]) : c ≠ ' ' ∧ isSeparator c = false ∧ c ≠ '\u0085' := by
  refine ⟨?_, ?_, ?_⟩
  · rintro rfl
    exact hc (by decide)
  · rw [Bool.eq_false_iff]
    intro hsep
    simp only [isSeparator, Bool.or_eq_true, beq_iff_eq] at hsep
    rcases hsep with rfl | rfl <;> exact hc (by decide)
  · rintro rfl
    exact hc (by decide)

/-- The line breaks that are not escaped. -/
theorem isSeparator_of_isBreak (hc : escape c = [c]) (hbreak : isBreak c = true)
    (hnext : c ≠ '\u0085') : isSeparator c = true := by
  have hlf : c ≠ '\n' := ne_of_escape hc (by decide)
  have hcr : c ≠ '\r' := ne_of_escape hc (by decide)
  simpa [isBreak, isSeparator, hlf, hcr, hnext] using hbreak

theorem isSeparator_of_not_isBreak (hbreak : isBreak c = false) : isSeparator c = false := by
  simp only [isBreak, Bool.or_eq_false_iff] at hbreak
  simp [isSeparator, hbreak]

/-- A separator behind another character. -/
theorem Behind.lineBreak (h : Behind previous spacing) (hspace : previous ≠ ' ')
    (hc : isSeparator c = true) : Behind c (spacing.lineBreak c) ∧
      (spacing.lineBreak c).text = c :: spacing.text := by
  have hvalue : breakValue c = c := by
    simp only [isSeparator] at hc
    rw [breakValue, if_pos hc]
  have hlf : c ≠ '\n' := by
    rintro rfl
    exact absurd hc (by decide)
  -- What stood before decides how the break begins or goes on with a row of breaks.
  cases h with
  | word =>
    have hline : Spacing.empty.lineBreak c = .across (some c) [] := by
      simp [Spacing.empty, Spacing.lineBreak, hvalue]
    rw [hline]
    exact ⟨.line [] hc hlf, Spacing.text_across hlf⟩
  | gap => exact absurd rfl hspace
  | @line _ first others hbreak hfirst =>
    refine ⟨.line _ hc hfirst, ?_⟩
    simp [Spacing.lineBreak, hvalue, Spacing.text_across hfirst]

/-- A space behind another character. -/
theorem Behind.space (h : Behind previous spacing) (hprevious : isSeparator previous = false) :
    Behind ' ' (spacing.gap ' ') ∧ (spacing.gap ' ').text = ' ' :: spacing.text := by
  cases h with
  | word => exact ⟨.gap [], rfl⟩
  | gap gaps => exact ⟨.gap (' ' :: gaps), rfl⟩
  | line others hbreak => simp [hprevious] at hbreak

/-- An escape begins with a backslash. -/
theorem exists_backslash (hc : escape c ≠ [c]) : ∃ ds, escape c = '\\' :: ds := by
  by_cases hshort : c ∈ shortlyEscaped
  · simp only [shortlyEscaped, List.mem_cons, List.not_mem_nil, or_false] at hshort
    rcases hshort with rfl | rfl | rfl | rfl | rfl | rfl | rfl <;> exact ⟨_, rfl⟩
  · by_cases hcontrol : c.toNat < 0x20
    · exact ⟨_, Json.escape_control hshort hcontrol⟩
    · exact absurd (Json.escape_plain hshort (Nat.not_lt.1 hcontrol)) hc

/-- Only hyphens and points begin a document marker. -/
theorem atDocumentMarker_of_ne (hhyphen : c ≠ '-') (hpoint : c ≠ '.') :
    atDocumentMarker (c :: cs) = false := by
  simp [atDocumentMarker, atDocumentStart, atDocumentEnd, hhyphen, hpoint]

/-! ### A step over one character -/

/-- How the reader takes a character of a JSON string: what it has read then, the white space that it
    holds back, and the mark behind the character. -/
inductive Takes (read : List Char) (spacing : Spacing) (mark : Mark) (cs : List Char) :
    Char → List Char → Spacing → Mark → Prop where
  /-- A line break. -/
  | lineBreak {c : Char} (hc : escape c = [c]) (hbreak : isBreak c = true) :
    Takes read spacing mark cs c read (spacing.lineBreak c) (mark.nextLine 1)
  /-- A space. -/
  | space : Takes read spacing mark cs ' ' read (spacing.gap ' ') mark.next
  /-- Another character that stands for itself, where no document marker begins. -/
  | plain {c : Char} (hc : escape c = [c]) (hbreak : isBreak c = false) (hspace : c ≠ ' ')
    (hmarker : ¬ (mark.column = 0 ∧ atDocumentMarker (c :: quotedTail cs))) :
    Takes read spacing mark cs c (c :: (spacing.text ++ read)) .empty mark.next
  /-- A character that is escaped. -/
  | escaped {c : Char} (hc : escape c ≠ [c]) :
    Takes read spacing mark cs c (c :: (spacing.text ++ read)) .empty
      (mark.skip (escape c).length)

/-- A character is taken unless a document marker begins with it. -/
theorem exists_takes (hmarker : escape c = [c] → isBreak c = false → c ≠ ' ' →
      ¬ (mark.column = 0 ∧ atDocumentMarker (c :: quotedTail cs))) :
    ∃ read' spacing' mark', Takes read spacing mark cs c read' spacing' mark' := by
  by_cases hc : escape c = [c]
  · cases hbreak : isBreak c with
    | true => exact ⟨_, _, _, .lineBreak hc hbreak⟩
    | false =>
      by_cases hspace : c = ' '
      · subst hspace
        exact ⟨_, _, _, .space⟩
      · exact ⟨_, _, _, .plain hc hbreak hspace (hmarker hc hbreak hspace)⟩
  · exact ⟨_, _, _, .escaped hc⟩

namespace Takes

variable {read' : List Char} {spacing' : Spacing} {mark' : Mark}

/-- **The reader goes on** behind a character that it takes. -/
theorem doubleFrom_eq (h : Takes read spacing mark cs c read' spacing' mark') :
    doubleFrom read (.text spacing) (quotedTail (c :: cs)) mark
      = doubleFrom read' (.text spacing') (quotedTail cs) mark' := by
  rw [quotedTail_cons]
  cases h with
  | lineBreak hc hbreak => rw [hc, List.singleton_append, doubleFrom_break hc hbreak]
  | space => exact doubleFrom_space
  | plain hc hbreak hspace hmarker =>
    rw [hc, List.singleton_append, doubleFrom_plain hc hbreak hspace, if_neg hmarker]
  | escaped hc => exact doubleFrom_escaped hc

/-- What is read to the end is taken first. -/
theorem of_doubleFrom
    (h : doubleFrom read (.text spacing) (quotedTail (c :: cs)) mark = .ok (out, after)) :
    ∃ read' spacing' mark', Takes read spacing mark cs c read' spacing' mark' ∧
      doubleFrom read' (.text spacing') (quotedTail cs) mark' = .ok (out, after) := by
  have hmarker : escape c = [c] → isBreak c = false → c ≠ ' ' →
      ¬ (mark.column = 0 ∧ atDocumentMarker (c :: quotedTail cs)) := by
    intro hc hbreak hspace hmarker
    rw [quotedTail_cons, hc, List.singleton_append, doubleFrom_plain hc hbreak hspace,
      if_pos hmarker] at h
    cases h
  obtain ⟨read', spacing', mark', htakes⟩ := exists_takes hmarker
  exact ⟨read', spacing', mark', htakes, htakes.doubleFrom_eq ▸ h⟩

/-- A line starts behind the separators alone. -/
theorem column_eq_zero_iff (h : Takes read spacing mark cs c read' spacing' mark')
    (hnext : c ≠ '\u0085') : mark'.column = 0 ↔ isSeparator c = true := by
  cases h with
  | lineBreak hc hbreak => simp [Mark.nextLine, isSeparator_of_isBreak hc hbreak hnext]
  | space => simp [Mark.next, show isSeparator ' ' = false from rfl]
  | plain _ hbreak => simp [Mark.next, isSeparator_of_not_isBreak hbreak]
  | escaped hc =>
    obtain ⟨-, hsep, -⟩ := not_space_of_escaped hc
    obtain ⟨ds, hescape⟩ := exists_backslash hc
    simp [Mark.skip, hsep, hescape]

/-- Where a line starts, a document marker is not taken. -/
theorem atDocumentMarker_eq_false (h : Takes read spacing mark cs c read' spacing' mark')
    (hcolumn : mark.column = 0) : atDocumentMarker (quotedTail (c :: cs)) = false := by
  rw [quotedTail_cons]
  cases h with
  | lineBreak hc hbreak =>
    rw [hc]
    refine atDocumentMarker_of_ne ?_ ?_ <;> rintro rfl <;> exact absurd hbreak (by decide)
  | space => rfl
  | plain hc hbreak hspace hmarker =>
    rw [hc]
    simpa [hcolumn] using hmarker
  | escaped hc =>
    obtain ⟨ds, hescape⟩ := exists_backslash hc
    rw [hescape]
    exact atDocumentMarker_of_ne (by decide) (by decide)

/-- The character is kept with the white space before it, unless a space stands beside a
    separator. -/
theorem behind (h : Takes read spacing mark cs c read' spacing' mark')
    (hbehind : Behind previous spacing) (hnext : c ≠ '\u0085')
    (hbefore : previous = ' ' → isSeparator c = false)
    (hafter : isSeparator previous = true → c ≠ ' ') :
    Behind c spacing' ∧ spacing'.text ++ read' = c :: (spacing.text ++ read) := by
  cases h with
  | lineBreak hc hbreak =>
    have hsep : isSeparator c = true := isSeparator_of_isBreak hc hbreak hnext
    have hspace : previous ≠ ' ' := fun heq => by simp [hbefore heq] at hsep
    obtain ⟨hline, htext⟩ := hbehind.lineBreak hspace hsep
    exact ⟨hline, by rw [htext, List.cons_append]⟩
  | space =>
    have hprevious : isSeparator previous = false :=
      Bool.eq_false_iff.2 fun hprevious => hafter hprevious rfl
    obtain ⟨hgap, htext⟩ := hbehind.space hprevious
    exact ⟨hgap, by rw [htext, List.cons_append]⟩
  | plain _ hbreak hspace => exact ⟨.word hspace (isSeparator_of_not_isBreak hbreak), rfl⟩
  | escaped hc =>
    obtain ⟨hspace, hsep, -⟩ := not_space_of_escaped hc
    exact ⟨.word hspace hsep, rfl⟩

end Takes

/-- **What survives is read back.** -/
theorem doubleFrom_of_survives (read : List Char) (mark : Mark)
    (h : survives previous cs = true) (hbehind : Behind previous spacing)
    (hmark : mark.column = 0 ↔ isSeparator previous = true) :
    ∃ mark', mark'.column ≠ 0 ∧ doubleFrom read (.text spacing) (quotedTail cs) mark
      = .ok (read.reverse ++ (spacing.text.reverse ++ cs), ⟨[], mark'⟩) := by
  -- The induction is on the characters of the string; what white space is still held back, and
  -- behind which character, carries it.
  induction cs generalizing previous spacing read mark with
  | nil =>
    refine ⟨mark.next, by simp [Mark.next], ?_⟩
    show doubleFrom read (.text spacing) ('"' :: []) mark = _
    rw [doubleFrom_quote]
    simp
  | cons c cs ih =>
    simp only [survives, Bool.and_eq_true, Bool.not_eq_true', bne_iff_ne, ne_eq] at h
    obtain ⟨⟨⟨⟨-, hnext⟩, hbefore⟩, hafter⟩, hrest⟩ := h
    have hmarker : escape c = [c] → isBreak c = false → c ≠ ' ' →
        ¬ (mark.column = 0 ∧ atDocumentMarker (c :: quotedTail cs)) := by
      rintro hc - - ⟨hcolumn, hmarker⟩
      simp [quotedTail_cons, hc, hmark.1 hcolumn, hmarker] at hafter
    obtain ⟨read', spacing', mark', htakes⟩ :
        ∃ read' spacing' mark', Takes read spacing mark cs c read' spacing' mark' :=
      exists_takes hmarker
    obtain ⟨hbehind', htext⟩ := htakes.behind hbehind hnext
      (by rintro rfl; simpa using hbefore) (by intro hsep; simp [hsep] at hafter; exact hafter.1)
    obtain ⟨last, hcolumn, hread⟩ :=
      ih read' mark' hrest hbehind' (htakes.column_eq_zero_iff hnext)
    refine ⟨last, hcolumn, ?_⟩
    rw [htakes.doubleFrom_eq, hread, ← List.append_assoc, ← List.reverse_append, htext]
    simp

/-! ### What does not survive -/

/-- White space whose line breaks are all kept. -/
def Spacing.IsFaithful (spacing : Spacing) : Prop :=
  ∀ first others, spacing = .across first others → ∃ c, first = some c ∧ c ≠ '\n'

theorem isFaithful_empty : Spacing.empty.IsFaithful := fun _ _ heq => by cases heq

theorem Behind.isFaithful (h : Behind previous spacing) : spacing.IsFaithful := by
  intro first others heq
  cases h with
  | word => cases heq
  | gap => cases heq
  | line _ _ hfirst =>
    cases heq
    exact ⟨_, rfl, hfirst⟩

/-- A separator adds one character at most, and takes spaces before it away. -/
theorem Spacing.IsFaithful.lineBreak (h : spacing.IsFaithful) (hc : isSeparator c = true) :
    (spacing.lineBreak c).IsFaithful ∧
      (spacing.lineBreak c).text.length ≤ spacing.text.length + 1 := by
  have hvalue : breakValue c = c := by
    simp only [isSeparator] at hc
    rw [breakValue, if_pos hc]
  have hlf : c ≠ '\n' := by
    rintro rfl
    exact absurd hc (by decide)
  cases spacing with
  | within gaps =>
    refine ⟨?_, by simp [Spacing.lineBreak, hvalue, Spacing.text_across hlf]⟩
    rintro _ _ ⟨⟩
    exact ⟨c, by rw [hvalue], hlf⟩
  | across first others =>
    obtain ⟨d, rfl, hd⟩ := h first others rfl
    refine ⟨?_, by simp [Spacing.lineBreak, Spacing.text_across hd]⟩
    rintro _ _ ⟨⟩
    exact ⟨d, rfl, hd⟩

/-- A space adds one character at most. -/
theorem Spacing.IsFaithful.gap (h : spacing.IsFaithful) :
    (spacing.gap ' ').IsFaithful ∧ (spacing.gap ' ').text.length ≤ spacing.text.length + 1 := by
  cases spacing with
  | within gaps => exact ⟨(fun _ _ heq => by cases heq), Nat.le_refl _⟩
  | across first others => exact ⟨h, Nat.le_succ _⟩

/-- A separator takes the spaces before it away. -/
theorem Behind.lineBreak_space (h : Behind ' ' spacing) (hc : isSeparator c = true) :
    (spacing.lineBreak c).text.length ≤ spacing.text.length := by
  cases h with
  | word hspace => exact absurd rfl hspace
  | gap gaps =>
    have hone := isFaithful_empty.lineBreak hc
    exact Nat.le_trans hone.2 (by simp [Spacing.text, Spacing.empty])
  | line _ hbreak => exact absurd hbreak (by decide)

/-- A space behind a separator is taken away. -/
theorem Behind.gap_line (h : Behind previous spacing) (hprevious : isSeparator previous = true) :
    spacing.gap ' ' = spacing := by
  cases h with
  | word _ hbreak => simp [hprevious] at hbreak
  | gap => exact absurd hprevious (by decide)
  | line => rfl

/-- A character that is taken adds one at most. -/
theorem Takes.isFaithful {read' : List Char} {spacing' : Spacing} {mark' : Mark}
    (h : Takes read spacing mark cs c read' spacing' mark') (hspacing : spacing.IsFaithful)
    (hnext : c ≠ '\u0085') : spacing'.IsFaithful ∧
      read'.length + spacing'.text.length ≤ read.length + spacing.text.length + 1 := by
  cases h with
  | lineBreak hc hbreak =>
    obtain ⟨hline, hone⟩ := hspacing.lineBreak (isSeparator_of_isBreak hc hbreak hnext)
    exact ⟨hline, by omega⟩
  | space =>
    obtain ⟨hgap, hone⟩ := hspacing.gap
    exact ⟨hgap, by omega⟩
  | plain | escaped =>
    refine ⟨isFaithful_empty, ?_⟩
    simp only [List.length_cons, List.length_append, Spacing.text_empty, List.length_nil]
    omega

/-- No more characters are read than stand in the quotes. -/
theorem length_le_of_doubleFrom (hspacing : spacing.IsFaithful) (hnext : '\u0085' ∉ cs)
    (h : doubleFrom read (.text spacing) (quotedTail cs) mark = .ok (out, after)) :
    out.length ≤ read.length + spacing.text.length + cs.length := by
  induction cs generalizing spacing read mark with
  | nil =>
    rw [show quotedTail [] = ['"'] from rfl, doubleFrom_quote] at h
    obtain ⟨rfl, -⟩ := Prod.mk.inj (Except.ok.inj h)
    simp
  | cons c cs ih =>
    obtain ⟨hc, hcs⟩ : c ≠ '\u0085' ∧ '\u0085' ∉ cs := by
      simpa [eq_comm] using hnext
    obtain ⟨read', spacing', mark', htakes, h⟩ := Takes.of_doubleFrom h
    obtain ⟨hspacing', hone⟩ := htakes.isFaithful hspacing hc
    have hle := ih hspacing' hcs h
    rw [List.length_cons]
    omega

/-- Where as many characters are read as stand in the quotes, no space beside a separator is
    dropped. -/
theorem Takes.apart_of_length {read' : List Char} {spacing' : Spacing} {mark' : Mark}
    (h : Takes read spacing mark cs c read' spacing' mark') (hbehind : Behind previous spacing)
    (hnext : c ≠ '\u0085')
    (hlength : read.length + spacing.text.length < read'.length + spacing'.text.length) :
    (previous = ' ' → isSeparator c = false) ∧ (isSeparator previous = true → c ≠ ' ') := by
  cases h with
  | lineBreak hc hbreak =>
    have hsep : isSeparator c = true := isSeparator_of_isBreak hc hbreak hnext
    refine ⟨?_, fun _ => ?_⟩
    · rintro rfl
      have hle := hbehind.lineBreak_space hsep
      omega
    · rintro rfl
      exact absurd hsep (by decide)
  | space =>
    refine ⟨fun _ => rfl, fun hprevious => ?_⟩
    rw [hbehind.gap_line hprevious] at hlength
    omega
  | plain _ hbreak hspace => exact ⟨fun _ => isSeparator_of_not_isBreak hbreak, fun _ => hspace⟩
  | escaped hc =>
    obtain ⟨hspace, hsep, -⟩ := not_space_of_escaped hc
    exact ⟨fun _ => hsep, fun _ => hspace⟩

/-- **What is read back survived.** -/
theorem survives_of_doubleFrom (hbehind : Behind previous spacing)
    (hmark : mark.column = 0 ↔ isSeparator previous = true)
    (hallowed : ∀ c ∈ cs, c.toNat < 0x20 ∨ isAllowed c = true) (hnext : '\u0085' ∉ cs)
    (h : doubleFrom read (.text spacing) (quotedTail cs) mark = .ok (out, after))
    (hlength : out.length = read.length + spacing.text.length + cs.length) :
    survives previous cs = true := by
  -- No character is read as two, so where one is dropped too few are read.
  induction cs generalizing previous spacing read mark with
  | nil => rfl
  | cons c cs ih =>
    obtain ⟨hc, hcs⟩ : c ≠ '\u0085' ∧ '\u0085' ∉ cs := by
      simpa [eq_comm] using hnext
    obtain ⟨hreadable, hallowed⟩ := List.forall_mem_cons.1 hallowed
    rw [List.length_cons] at hlength
    obtain ⟨read', spacing', mark', htakes, h⟩ := Takes.of_doubleFrom h
    have hle := length_le_of_doubleFrom (htakes.isFaithful hbehind.isFaithful hc).1 hcs h
    obtain ⟨hbefore, hafter⟩ := htakes.apart_of_length hbehind hc (by omega)
    obtain ⟨hbehind', htext⟩ := htakes.behind hbehind hc hbefore hafter
    have hlength' := congrArg List.length htext
    simp only [List.length_append, List.length_cons] at hlength'
    have hrest : survives c cs = true :=
      ih hbehind' (htakes.column_eq_zero_iff hc) hallowed hcs h (by omega)
    have hafter' : isSeparator previous = true →
        c ≠ ' ' ∧ atDocumentMarker (quotedTail (c :: cs)) = false := fun hprevious =>
      ⟨hafter hprevious, htakes.atDocumentMarker_eq_false (hmark.2 hprevious)⟩
    simp only [survives, Bool.and_eq_true, Bool.or_eq_true, decide_eq_true_eq, bne_iff_ne,
      Bool.not_eq_true', Bool.and_eq_false_imp, beq_iff_eq, Bool.or_eq_false_iff,
      beq_eq_false_iff_ne]
    exact ⟨⟨⟨⟨hreadable, hc⟩, hbefore⟩, hafter'⟩, hrest⟩

/-- Apart from spaces and line feeds, white space with breaks stands for these breaks. -/
theorem Spacing.mem_text_across {d : Char} {first : Option Char} {others : List Char} (hspace : d ≠ ' ')
    (hlf : d ≠ '\n') : d ∈ (Spacing.across first others).text ↔ first = some d ∨ d ∈ others := by
  cases first with
  | none => simp [Spacing.text]
  | some c =>
    by_cases hc : c = '\n'
    · subst hc
      cases others with
      | nil => simp [Spacing.text, hspace, hlf.symm]
      | cons o os => simp [Spacing.text, hlf.symm]
    · simp [Spacing.text_across hc, eq_comm, or_comm]

/-- No line break stands for a next-line character. -/
theorem nextLine_not_mem_lineBreak (h : '\u0085' ∉ spacing.text) :
    '\u0085' ∉ (spacing.lineBreak c).text := by
  -- A break stands for itself or for a line feed.
  have hvalue : breakValue c ≠ '\u0085' := by
    unfold breakValue
    split
    · rename_i hsep
      rintro rfl
      exact absurd hsep (by decide)
    · decide
  cases spacing with
  | within gaps =>
    rw [Spacing.lineBreak, Spacing.mem_text_across (by decide) (by decide)]
    simpa using hvalue
  | across first others =>
    rw [Spacing.mem_text_across (by decide) (by decide)] at h
    rw [Spacing.lineBreak, Spacing.mem_text_across (by decide) (by decide), List.mem_cons]
    rintro (hfirst | hbreak | hothers)
    · exact h (.inl hfirst)
    · exact hvalue hbreak.symm
    · exact h (.inr hothers)

/-- A next-line character is not taken as one. -/
theorem Takes.nextLine_not_mem {read' : List Char} {spacing' : Spacing} {mark' : Mark}
    (h : Takes read spacing mark cs c read' spacing' mark') (hread : '\u0085' ∉ read)
    (hspacing : '\u0085' ∉ spacing.text) : '\u0085' ∉ read' ∧ '\u0085' ∉ spacing'.text := by
  cases h with
  | lineBreak => exact ⟨hread, nextLine_not_mem_lineBreak hspacing⟩
  | space =>
    refine ⟨hread, ?_⟩
    cases spacing with
    | within gaps => simpa [Spacing.gap, Spacing.text] using hspacing
    | across first others => exact hspacing
  | plain _ hbreak =>
    have hc : c ≠ '\u0085' := by
      rintro rfl
      exact absurd hbreak (by decide)
    simp [hread, hspacing, hc.symm]
  | escaped hescaped =>
    obtain ⟨-, -, hc⟩ := not_space_of_escaped hescaped
    simp [hread, hspacing, hc.symm]

/-- What is read in quotes has no next-line character. -/
theorem nextLine_not_mem_of_doubleFrom (hread : '\u0085' ∉ read) (hspacing : '\u0085' ∉ spacing.text)
    (h : doubleFrom read (.text spacing) (quotedTail cs) mark = .ok (out, after)) :
    '\u0085' ∉ out := by
  induction cs generalizing spacing read mark with
  | nil =>
    rw [show quotedTail [] = ['"'] from rfl, doubleFrom_quote] at h
    obtain ⟨rfl, -⟩ := Prod.mk.inj (Except.ok.inj h)
    simp [hread, hspacing]
  | cons c cs ih =>
    obtain ⟨read', spacing', mark', htakes, h⟩ := Takes.of_doubleFrom h
    obtain ⟨hread', hspacing'⟩ := htakes.nextLine_not_mem hread hspacing
    exact ih hread' hspacing' h

/-- **A row of characters is read back** from its JSON string iff it survives. -/
theorem doubleFrom_quotedTail_iff {start : Mark} (hmark : start.column ≠ 0)
    (hallowed : ∀ c ∈ cs, c.toNat < 0x20 ∨ isAllowed c = true) :
    (∃ after, doubleFrom [] (.text .empty) (quotedTail cs) start = .ok (cs, after)) ↔
      survives '"' cs = true := by
  have hbehind : Behind '"' .empty := .word (by decide) (by decide)
  have hstart : start.column = 0 ↔ isSeparator '"' = true := by
    simp [hmark, show isSeparator '"' = false from rfl]
  constructor
  · rintro ⟨after, h⟩
    exact survives_of_doubleFrom hbehind hstart hallowed
      (nextLine_not_mem_of_doubleFrom (by simp) (by simp) h) h (by simp)
  · intro h
    obtain ⟨mark', -, hread⟩ := doubleFrom_of_survives [] start h hbehind hstart
    exact ⟨_, hread⟩

/-- The closing quote is the last character that is read. -/
theorem after_of_doubleFrom
    (h : doubleFrom read (.text spacing) (quotedTail cs) mark = .ok (out, after)) :
    after.rest = [] ∧ after.mark.column ≠ 0 := by
  induction cs generalizing spacing read mark with
  | nil =>
    rw [show quotedTail [] = ['"'] from rfl, doubleFrom_quote] at h
    obtain ⟨-, rfl⟩ := Prod.mk.inj (Except.ok.inj h)
    exact ⟨rfl, by simp [Mark.next]⟩
  | cons c cs ih =>
    obtain ⟨read', spacing', mark', -, h⟩ := Takes.of_doubleFrom h
    exact ih h

/-! ### The line of a quoted value -/

/-- A quoted value behind a colon. -/
theorem fetch_quoted {released : Nat} :
    (Lexer.quiet ⟨' ' :: '"' :: rest, mark⟩ false 1 [0] released).fetch
      = (doubleFrom [] (.text .empty) rest (mark.next.skip 1)).map fun (text, cursor) =>
          { Lexer.quiet cursor false 1 [0] released with
            pending := [⟨.scalar text false, mark.next⟩] } := by
  have hready : (Lexer.quiet ⟨' ' :: '"' :: rest, mark⟩ false 1 [0] released).skipSpace.dropStale
      = .ok (Lexer.quiet ⟨'"' :: rest, mark.next⟩ false 1 [0] released) := by
    rw [Lexer.skipSpace_quiet]
    simp only [Lexer.skipFrom_space]
    rw [Lexer.skipFrom_stays (by decide) (by decide) (by decide) (by decide)]
    rfl
  have hhere : (Lexer.quiet ⟨'"' :: rest, mark.next⟩ false 1 [0] released).fetchHere
      = (Lexer.quiet ⟨'"' :: rest, mark.next⟩ false 1 [0] released).fetchQuoted doubleQuoted := by
    simp [Lexer.fetchHere, Lexer.quiet, Mark.next]
  rw [Lexer.fetch_eq hready (by simp [Lexer.quiet]), hhere]
  simp only [Lexer.fetchQuoted, Lexer.noteCandidate, Lexer.quiet, doubleQuoted, Cursor.skip, bind,
    Except.bind, pure, Except.pure, Bool.not_false, if_true, List.drop_succ_cons, List.drop_zero]
  cases doubleFrom [] (.text .empty) rest (mark.next.skip 1) <;> rfl

/-- The line of a key and a JSON string. -/
def quotedLine (key cs : List Char) : List Char := key ++ ':' :: ' ' :: Json.quoteChars cs

/-- Where the string of such a line begins. -/
def quotedStart (key : List Char) : Mark := (Mark.origin.skip key.length).next.next.skip 1

variable {key : List Char}

/-- The tokens of such a line are those of the key and, if the string is read, its text. -/
theorem tokens_quotedLine (hword : IsWord key) (hlength : key.length ≤ 1024)
    (hallowed : ∀ c ∈ quotedLine key cs, isAllowed c = true) :
    Yaml.tokens (quotedLine key cs)
      = match doubleFrom [] (.text .empty) (quotedTail cs) (quotedStart key) with
        | .error fault => (Lexer.keyTokens 0 key .origin, some fault)
        | .ok (text, after) => (Lexer.keyTokens 0 key .origin ++
            [⟨.scalar text false, (Mark.origin.skip key.length).next.next⟩,
              ⟨.blockEnd, after.mark.nextLine 0⟩, ⟨.streamEnd, after.mark.nextLine 0⟩], none) := by
  -- The key, its colon, the string and the end are read one after the other.
  obtain ⟨fuel, hfuel⟩ : ∃ fuel, (quotedLine key cs).length + 1 = fuel + 1 + 1 + 2 :=
    ⟨(quotedLine key cs).length - 3, by simp [quotedLine, Json.quoteChars]; omega⟩
  obtain ⟨released, hrun⟩ : ∃ released, Lexer.run (fuel + 1 + 1 + 2)
        (Lexer.quiet ⟨quotedLine key cs, .origin⟩ true 0 [] 0)
      = (Lexer.keyTokens 0 key .origin ++ (Lexer.run (fuel + 1 + 1) (Lexer.quiet
          ⟨' ' :: '"' :: quotedTail cs, (Mark.origin.skip key.length).next⟩ false 1 [0] released)).1,
        (Lexer.run (fuel + 1 + 1) (Lexer.quiet
          ⟨' ' :: '"' :: quotedTail cs, (Mark.origin.skip key.length).next⟩ false 1 [0] released)).2) :=
    Lexer.run_key (fuel + 1 + 1) 0 [] _ hword hlength (Nat.zero_le 1) rfl
  rw [Yaml.tokens, if_pos (List.all_eq_true.2 hallowed), hfuel]
  refine hrun.trans ?_
  -- The lexer goes on behind the colon, with the string.
  cases hread : doubleFrom [] (.text .empty) (quotedTail cs) (quotedStart key) with
  | error fault =>
    have hfetch : (Lexer.quiet ⟨' ' :: '"' :: quotedTail cs, (Mark.origin.skip key.length).next⟩
        false 1 [0] released).fetch = .error fault := by
      rw [fetch_quoted]
      exact congrArg (Except.map _) hread
    rw [Lexer.run_fault hfetch, List.append_nil]
  | ok out =>
    obtain ⟨text, after⟩ := out
    obtain ⟨hrest, hcolumn⟩ := after_of_doubleFrom hread
    obtain ⟨rest, mark⟩ := after
    obtain rfl : rest = [] := hrest
    have hfetch : (Lexer.quiet ⟨' ' :: '"' :: quotedTail cs, (Mark.origin.skip key.length).next⟩
          false 1 [0] released).fetch
        = .ok { Lexer.quiet ⟨[], mark⟩ false 1 [0] released with
          pending := [⟨.scalar text false, (Mark.origin.skip key.length).next.next⟩] } := by
      rw [fetch_quoted]
      exact congrArg (Except.map _) hread
    rw [Lexer.run_free hfetch, Lexer.run_last (Lexer.fetch_end hcolumn)]
    rfl

/-- What is read of such a line is a mapping of the one key. -/
theorem value_quoted {text : List Char} {v : Value} (hv : plainValue? key = some v) :
    Reading.value (placed [.blockMappingStart, .key, .scalar key true, .value, .scalar text false,
      .blockEnd, .streamEnd], none) = .ok (.mapping [(v, .string (String.ofList text))]) := by
  simp [Reading.value, Reading.events, placed, run, step, node, takeHead, Progress.pop, blockPart,
    endsBlockPart, close, link, Naming.note, Document.value, Document.node, Document.entries,
    applicationTag?, scalarValue, hv, Document.maxDepth, bind, Except.bind, pure, Except.pure]

/-- A fault behind the key leaves no value. -/
theorem value_fault {fault : Fault} {v : Value} :
    Reading.value (Lexer.keyTokens 0 key .origin, some fault) ≠ .ok v := by
  intro h
  have hfault : (Reading.events (Lexer.keyTokens 0 key .origin, some fault)).2 = none :=
    fault_of_link (Document.fault_of_value h)
  simp [Reading.events, Lexer.keyTokens, run, step, node, takeHead, Progress.pop, blockPart,
    endsBlockPart, starved] at hfault

/-- The escapes of a character may stand in a stream iff it is a control character or may itself. -/
theorem forall_mem_escape_iff :
    (∀ d ∈ escape c, isAllowed d = true) ↔ c.toNat < 0x20 ∨ isAllowed c = true := by
  by_cases hshort : c ∈ shortlyEscaped
  · rw [← List.all_eq_true]
    simp only [shortlyEscaped, List.mem_cons, List.not_mem_nil, or_false] at hshort
    rcases hshort with rfl | rfl | rfl | rfl | rfl | rfl | rfl <;> decide
  · by_cases hcontrol : c.toNat < 0x20
    · rw [Json.escape_control hshort hcontrol]
      have hdigit : ∀ n, isAllowed (Json.hexDigit n) = true := by
        have hall : ∀ m : Fin 16, isAllowed (Nat.digitChar m.val) = true := by decide
        exact fun n => hall ⟨n % 16, Nat.mod_lt _ (by decide)⟩
      have hfixed : ∀ d ∈ ['\\', 'u', '0', '0'], isAllowed d = true :=
        List.all_eq_true.1 (by decide)
      refine iff_of_true ?_ (.inl hcontrol)
      show ∀ d ∈ ['\\', 'u', '0', '0'] ++ [Json.hexDigit _, Json.hexDigit _], isAllowed d = true
      exact List.forall_mem_append.2
        ⟨hfixed, List.forall_mem_cons.2 ⟨hdigit _, List.forall_mem_singleton.2 (hdigit _)⟩⟩
    · rw [Json.escape_plain hshort (Nat.not_lt.1 hcontrol)]
      simp [hcontrol]

/-- The line may stand in a stream iff each character of the string is escaped or may. -/
theorem forall_mem_quotedLine_iff (hword : IsWord key) :
    (∀ c ∈ quotedLine key cs, isAllowed c = true) ↔
      ∀ c ∈ cs, c.toNat < 0x20 ∨ isAllowed c = true := by
  have hkey : ∀ c ∈ key, isAllowed c = true := fun c hc =>
    isAllowed_of_isWordChar (hword.chars c hc)
  have hmarks : isAllowed ':' = true ∧ isAllowed ' ' = true ∧ isAllowed '"' = true := by decide
  -- Key, colon, space and quotes may stand in every stream.
  simp only [quotedLine, Json.quoteChars, List.mem_append, List.mem_cons, List.mem_flatMap,
    List.not_mem_nil, or_false]
  constructor
  · intro h c hc
    exact forall_mem_escape_iff.1 fun d hd => h d (.inr (.inr (.inr (.inr (.inl ⟨c, hc, hd⟩)))))
  · rintro h d (hd | rfl | rfl | rfl | ⟨c, hc, hd⟩ | rfl)
    · exact hkey d hd
    · exact hmarks.1
    · exact hmarks.2.1
    · exact hmarks.2.2
    · exact forall_mem_escape_iff.2 (h c hc) d hd
    · exact hmarks.2.2

theorem readable_of_survives (h : survives previous cs = true) :
    ∀ c ∈ cs, c.toNat < 0x20 ∨ isAllowed c = true := by
  induction cs generalizing previous with
  | nil => simp
  | cons d cs ih =>
    simp only [survives, Bool.and_eq_true, Bool.or_eq_true, decide_eq_true_eq] at h
    exact List.forall_mem_cons.2 ⟨h.1.1.1.1, ih h.2⟩

/-- **The line of a key and a JSON string** is a mapping of this key, unless it is no YAML at all.  It
    holds this string iff the string survives. -/
theorem read_quotedLine {v : Value} (hword : IsWord key) (hlength : key.length ≤ 1024)
    (hv : plainValue? key = some v) :
    (∃ text, Yaml.read (quotedLine key cs) = .ok (.mapping [(v, .string (String.ofList text))]) ∧
        (text = cs ↔ survives '"' cs = true)) ∨
      (∃ fault, Yaml.read (quotedLine key cs) = .error fault) ∧ survives '"' cs = false := by
  have hstart : (quotedStart key).column ≠ 0 := by
    simp [quotedStart, Mark.skip, Mark.next]
  -- A stream with a character that it may not have is refused before any token is read.
  by_cases hall : ∀ c ∈ cs, c.toNat < 0x20 ∨ isAllowed c = true
  · have htokens := tokens_quotedLine hword hlength ((forall_mem_quotedLine_iff hword).2 hall)
    have hsurvives := doubleFrom_quotedTail_iff hstart hall
    cases hread : doubleFrom [] (.text .empty) (quotedTail cs) (quotedStart key) with
    | error fault =>
      rw [hread] at htokens hsurvives
      have hvalue := read_eq (quotedLine key cs)
      rw [htokens] at hvalue
      refine .inr ⟨?_, by simpa using hsurvives⟩
      cases hresult : Reading.value (Lexer.keyTokens 0 key .origin, some fault) with
      | error fault' => exact ⟨fault', hvalue.trans hresult⟩
      | ok w => exact absurd hresult value_fault
    | ok out =>
      obtain ⟨text, after⟩ := out
      rw [hread] at htokens hsurvives
      refine .inl ⟨text, read_of_lexemes htokens rfl (value_quoted hv), ?_⟩
      simpa using hsurvives
  · have htokens : Yaml.tokens (quotedLine key cs) = ([], some (.here .origin)) := by
      rw [Yaml.tokens, if_neg]
      rwa [List.all_eq_true, forall_mem_quotedLine_iff hword]
    have hlost : survives '"' cs = false :=
      Bool.eq_false_iff.2 fun h => hall (readable_of_survives h)
    refine .inr ⟨⟨.here .origin, ?_⟩, hlost⟩
    rw [read_eq, htokens]
    rfl

/-- Without line breaks only characters that YAML refuses are lost. -/
theorem survives_of_no_break (h : ∀ c ∈ cs, c.toNat < 0x20 ∨ isAllowed c = true)
    (hbreak : ∀ c ∈ cs, c ≠ '\u0085' ∧ isSeparator c = false) (hprevious : isSeparator previous = false) :
    survives previous cs = true := by
  induction cs generalizing previous with
  | nil => rfl
  | cons c cs ih =>
    obtain ⟨hc, hcs⟩ := List.forall_mem_cons.1 h
    obtain ⟨⟨hnext, hsep⟩, hbreaks⟩ := List.forall_mem_cons.1 hbreak
    simp [survives, hc, hnext, hsep, hprevious, ih hcs hbreaks hsep]

end Yaml

open Yaml (Value)

/-- A JSON string behind a key is read as what it stands for iff this survives the quotes. -/
theorem extract_quote_iff (place : Key) (s : String) :
    Fragment.extract place ("k: " ++ Json.quote s) "k" = .ok (.string s) ↔
      Yaml.survives '"' s.toList = true := by
  have hline : ("k: " ++ Json.quote s).toList = Yaml.quotedLine ['k'] s.toList := by
    simp [Yaml.quotedLine, Json.quote]
  have hword : Yaml.IsWord ['k'] := ⟨⟨'k', [], rfl, by decide⟩, List.all_eq_true.1 (by decide)⟩
  have hkey : Yaml.plainValue? ['k'] = some (.string "k") :=
    Yaml.plainValue?_lower (by decide) (by decide) (by decide) (by decide)
  -- The fragment is the line of the key, and it is not blank, so it is read.
  have hblank : Text.isAllBlank ("k: " ++ Json.quote s) = false := by
    rw [Text.isAllBlank, hline]
    rfl
  rw [Fragment.extract, Fragment.parse, hblank, hline]
  rcases Yaml.read_quotedLine hword (by decide) hkey with ⟨text, hread, hsurvives⟩ | ⟨⟨fault, hread⟩, hlost⟩
  · rw [hread, ← hsurvives]
    have hlookup : Fragment.lookup "k" [(.string "k", .string (String.ofList text))]
        = some (.string (String.ofList text)) := rfl
    have htext : String.ofList text = s ↔ text = s.toList := by
      rw [← String.toList_inj, String.toList_ofList]
    simp [bind, Except.bind, hlookup, pure, Except.pure, htext]
  · rw [hread, hlost]
    simp [bind, Except.bind]

/-- Every secret of characters that YAML allows, or JSON escapes, is read back, unless there are line
    breaks among them which JSON leaves as they are. -/
theorem extract_quote_of_no_break (place : Key) {s : String}
    (h : ∀ c ∈ s.toList, c.toNat < 0x20 ∨ Yaml.isAllowed c = true)
    (hbreak : ∀ c ∈ s.toList, c ≠ '\u0085' ∧ Yaml.isSeparator c = false) :
    Fragment.extract place ("k: " ++ Json.quote s) "k" = .ok (.string s) :=
  (extract_quote_iff place s).2 (Yaml.survives_of_no_break h hbreak rfl)

/-- **A filled-in secret is read back** as YAML iff it survives the quotes. -/
theorem render_rereads (entry field s : String) :
    ∃ r, render ⟨entry, field, none⟩ s = .ok r ∧
      (Fragment.extract ⟨entry, field⟩ ("k: " ++ r) "k" = .ok (.string s) ↔
        Yaml.survives '"' s.toList = true) :=
  ⟨Json.quote s, rfl, extract_quote_iff ⟨entry, field⟩ s⟩

/-- A character that JSON leaves as it is and YAML refuses. -/
theorem render_rereads_delete : ∃ r, render ⟨"db", "Notes", none⟩ "\x7f" = .ok r ∧
    Fragment.extract ⟨"db", "Notes"⟩ ("k: " ++ r) "k"
      = .error (.unreadableFragment "db" "Notes" "invalid YAML at line 1 column 1") := by
  have hread : (match Yaml.read ("k: " ++ Json.quote "\x7f").toList with
      | .error fault => decide (fault = .here .origin)
      | _ => false) = true := by
    decide +kernel
  refine ⟨Json.quote "\x7f", rfl, ?_⟩
  split at hread
  · rename_i fault hfault
    obtain rfl : fault = .here .origin := of_decide_eq_true hread
    rw [Fragment.extract, Fragment.parse, hfault]
    rfl
  · cases hread

end SecretFill
