import Mathlib.Data.Bool.AllAny
import SecretFill.Proofs.Positions

namespace SecretFill.Yaml

/-!
# Words

A word is a row of letters, digits, low lines and points that a letter or a digit begins.  Without
quotes it is one plain scalar, so a text of lines `key: value` is read without a look at what its words
spell, unless a key is so long that its colon comes too late.

* `IsWord`, `IsLine`, `noteChars` — words, lines of two words, and the text of some lines.
* `Lexer.run_line`, `Lexer.run_before` — the tokens that the lexer gives out over a line and over lines.
* `tokens_note` — the tokens of a note.
* `tokens_long_key` — where a key that is too long ends them.
-/

/-! ### Words -/

/-- The characters of words: ASCII letters and digits, the low line and the point. -/
def isWordChar (c : Char) : Bool := c.isAlphanum || c == '_' || c == '.'

/-- A word begins with a letter or a digit. -/
structure IsWord (cs : List Char) : Prop where
  /-- The first character is a letter or a digit, -/
  head : ∃ c rest, cs = c :: rest ∧ c.isAlphanum = true
  /-- and all are those of words. -/
  chars : ∀ c ∈ cs, isWordChar c = true

section Characters

variable {c : Char}

theorem isAllowed_of_isWordChar (h : isWordChar c = true) : isAllowed c = true := by
  have hrange : 0x20 ≤ c.toNat ∧ c.toNat ≤ 0x7E := by
    simp only [isWordChar, Bool.or_eq_true, beq_iff_eq, isAlphanum_iff] at h
    rcases h with (h | rfl) | rfl
    · omega
    · decide
    · decide
  simp [isAllowed, hrange.1, hrange.2]

theorem isBreak_of_isWordChar (h : isWordChar c = true) : isBreak c = false := by
  rw [Bool.eq_false_iff]
  intro hc
  simp only [isBreak, Bool.or_eq_true, beq_iff_eq] at hc
  rcases hc with (((rfl | rfl) | rfl) | rfl) | rfl <;> exact absurd h (by decide)

theorem isGap_of_isWordChar (h : isWordChar c = true) : isGap c = false := by
  rw [Bool.eq_false_iff]
  intro hc
  simp only [isGap, Bool.or_eq_true, beq_iff_eq] at hc
  rcases hc with rfl | rfl <;> exact absurd h (by decide)

theorem isWordChar_of_isAlphanum (h : c.isAlphanum = true) : isWordChar c = true := by
  simp [isWordChar, h]

/-- Letters and digits make a word. -/
theorem isWord_of_isAlphanum {cs : List Char} (hne : cs ≠ []) (h : cs.all Char.isAlphanum = true) :
    IsWord cs := by
  have hall := List.all_eq_true.1 h
  obtain ⟨c, rest, rfl⟩ := List.exists_cons_of_ne_nil hne
  exact ⟨⟨c, rest, rfl, hall c List.mem_cons_self⟩, fun d hd => isWordChar_of_isAlphanum (hall d hd)⟩

theorem isIndicator_of_isAlphanum (h : c.isAlphanum = true) :
    Lexer.isIndicator c = false := by
  have hall : ∀ d ∈ "-?:,[]\x7b\x7d#&*!|>'\"%@\x60".toList, d.isAlphanum = false :=
    List.all_iff_forall_prop.1 (by decide)
  rw [Lexer.isIndicator, Bool.eq_false_iff]
  intro hc
  exact ne_of_class h (hall c (by simpa using hc)) rfl

end Characters

/-- A plain scalar goes on over the characters of words. -/
theorem plainFrom_word {margin : Nat} {cs read rest : List Char} {mark : Mark}
    (h : ∀ c ∈ cs, isWordChar c = true) :
    plainFrom false margin read .empty (cs ++ rest) mark
      = plainFrom false margin (cs.reverse ++ read) .empty rest (mark.skip cs.length) := by
  induction cs generalizing read mark with
  | nil => rfl
  | cons c cs ih =>
    obtain ⟨hc, hcs⟩ := List.forall_mem_cons.1 h
    have hcr : c ≠ '\r' := ne_of_class hc (by decide)
    have hcolon : c ≠ ':' := ne_of_class hc (by decide)
    have hends : endsWord false (c :: (cs ++ rest)) = false := by
      simp [endsWord]
    -- No character of a word ends a plain scalar or is kept back.
    have hstep : plainFrom false margin read .empty (c :: (cs ++ rest)) mark
        = plainFrom false margin (c :: read) .empty (cs ++ rest) mark.next := by
      rw [plainFrom]
      · simp only [isBreak_of_isWordChar hc, isGap_of_isWordChar hc, hends]
        simp [Spacing.empty, Spacing.isEmpty, Spacing.text]
      · exact fun _ h => absurd h hcr
    have hmark : mark.next.skip cs.length = mark.skip (cs.length + 1) := by
      simp [Mark.next, Mark.skip, Nat.add_comm, Nat.add_left_comm]
    rw [List.cons_append, hstep, ih hcs, hmark]
    simp

/-- It ends before a colon with a space behind it, -/
theorem plainFrom_colon {margin : Nat} {read rest : List Char} {mark : Mark} :
    plainFrom false margin read .empty (':' :: ' ' :: rest) mark
      = .ok ⟨read.reverse, ⟨':' :: ' ' :: rest, mark⟩, false⟩ := by
  rw [plainFrom]
  · simp [isBreak, isGap, endsWord, atSeparation, Spacing.empty, Spacing.isEmpty, Spacing.isAcross]
  · exact fun _ h => absurd h (by decide)

/-- and on a line that begins before the margin. -/
theorem plainFrom_line {margin : Nat} {read rest : List Char} {mark : Mark} {c : Char}
    (hc : isWordChar c = true) (hmargin : 0 < margin) :
    plainFrom false margin read .empty ('\n' :: c :: rest) mark
      = .ok ⟨read.reverse, ⟨c :: rest, mark.nextLine 1⟩, true⟩ := by
  have hcr : c ≠ '\r' := ne_of_class hc (by decide)
  rw [plainFrom]
  · simp only [isBreak, beq_self_eq_true, Bool.true_or, if_true]
    rw [plainFrom]
    · simp [isBreak_of_isWordChar hc, isGap_of_isWordChar hc, Spacing.empty, Spacing.lineBreak,
        Spacing.isEmpty, Spacing.isAcross, endsAfterSpacing, Mark.nextLine, hmargin]
    · exact fun _ h => absurd h hcr
  · exact fun _ h => absurd h (by decide)

/-- A key and a value that are words. -/
structure IsPair (line : List Char × List Char) : Prop where
  /-- The key is a word, -/
  key : IsWord line.1
  /-- and so is the value. -/
  value : IsWord line.2

/-- A line of a note: a key and a value. -/
def lineChars (line : List Char × List Char) : List Char := line.1 ++ ':' :: ' ' :: line.2

/-- The key and the value of a line are words, and the key is not too long to be one. -/
structure IsLine (line : List Char × List Char) : Prop where
  /-- The key is a word. -/
  key : IsWord line.1
  /-- The value is a word. -/
  value : IsWord line.2
  /-- The colon is found in time. -/
  length_le : line.1.length ≤ 1024

theorem IsLine.isPair {line : List Char × List Char} (h : IsLine line) : IsPair line :=
  ⟨h.key, h.value⟩

/-- Lines with line feeds between them. -/
def noteChars : List (List Char × List Char) → List Char
  | [] => []
  | [line] => lineChars line
  | line :: lines => lineChars line ++ '\n' :: noteChars lines

/-- A note begins with a letter or a digit. -/
theorem exists_cons_noteChars {line : List Char × List Char} (hkey : IsWord line.1)
    (lines : List (List Char × List Char)) :
    ∃ c cs, noteChars (line :: lines) = c :: cs ∧ c.isAlphanum = true := by
  obtain ⟨c, cs, hcons, hc⟩ := hkey.head
  cases lines with
  | nil => exact ⟨c, cs ++ ':' :: ' ' :: line.2, by simp [noteChars, lineChars, hcons], hc⟩
  | cons next lines =>
    exact ⟨c, cs ++ ':' :: ' ' :: line.2 ++ '\n' :: noteChars (next :: lines),
      by simp [noteChars, lineChars, hcons], hc⟩

/-- The characters of a line may stand in a stream, -/
theorem isAllowed_of_mem_lineChars {line : List Char × List Char} (hline : IsPair line) {c : Char}
    (hc : c ∈ lineChars line) : isAllowed c = true := by
  rw [lineChars, List.mem_append, List.mem_cons, List.mem_cons] at hc
  rcases hc with hc | rfl | rfl | hc
  · exact isAllowed_of_isWordChar (hline.key.chars c hc)
  · decide
  · decide
  · exact isAllowed_of_isWordChar (hline.value.chars c hc)

/-- and so may those of a note. -/
theorem isAllowed_of_mem_noteChars {lines : List (List Char × List Char)}
    (hlines : ∀ l ∈ lines, IsPair l) {c : Char} (hc : c ∈ noteChars lines) :
    isAllowed c = true := by
  induction lines with
  | nil => cases hc
  | cons line lines ih =>
    have hline : IsPair line := hlines line List.mem_cons_self
    cases lines with
    | nil => exact isAllowed_of_mem_lineChars hline hc
    | cons next lines =>
      rcases List.mem_append.1 (show c ∈ lineChars line ++ '\n' :: noteChars (next :: lines) from hc)
        with hc | hc
      · exact isAllowed_of_mem_lineChars hline hc
      · rcases List.mem_cons.1 hc with rfl | hc
        · decide
        · exact ih (fun l hl => hlines l (List.mem_cons_of_mem _ hl)) hc

/-- A line has four characters at least. -/
theorem length_noteChars {lines : List (List Char × List Char)} (hlines : ∀ l ∈ lines, IsPair l) :
    3 * lines.length ≤ (noteChars lines).length := by
  -- A key and a value have a character each, and a colon and a space stand between them.
  have hfour : ∀ {line}, IsPair line → 4 ≤ (lineChars line).length := by
    intro line hline
    obtain ⟨_, _, hkey, -⟩ := hline.key.head
    obtain ⟨_, _, hvalue, -⟩ := hline.value.head
    simp [lineChars, hkey, hvalue]
    omega
  induction lines with
  | nil => simp
  | cons line lines ih =>
    have hline := hfour (hlines line List.mem_cons_self)
    have hrest := ih fun l hl => hlines l (List.mem_cons_of_mem _ hl)
    cases lines with
    | nil =>
      simp only [noteChars, List.length_cons, List.length_nil]
      omega
    | cons next lines =>
      have hcons : noteChars (line :: next :: lines)
          = lineChars line ++ '\n' :: noteChars (next :: lines) := rfl
      simp only [hcons, List.length_append, List.length_cons] at hrest ⊢
      omega

/-! ### The lexer over a line -/

namespace Lexer

/-- The lexer with nothing held back, outside of brackets. -/
def quiet (cursor : Cursor) (keyAllowed : Bool) (margin : Nat) (outerMargins : List Nat)
    (released : Nat) : Lexer where
  cursor
  keyAllowed
  margin
  outerMargins
  candidate := none
  outerCandidates := []
  pending := []
  released
  ended := false

variable {word rest : List Char} {mark : Mark} {released fuel : Nat}

/-- Nothing is skipped before a character that is no white space. -/
theorem skipFrom_stays {keyAllowed : Bool} {c : Char} (hbreak : isBreak c = false)
    (hgap : isGap c = false) (hhash : c ≠ '#') (hmark : c ≠ byteOrderMark) :
    skipFrom false keyAllowed false (c :: rest) mark = (keyAllowed, ⟨c :: rest, mark⟩) := by
  have hcr : c ≠ '\r' := by
    rintro rfl
    exact absurd hbreak (by decide)
  rw [skipFrom]
  · simp only [hbreak]
    simp [isGap] at hgap
    simp [hhash, hgap, hmark]
  · exact fun _ h => absurd h hcr

/-- Nothing is skipped before a word. -/
theorem skipFrom_alphanum {keyAllowed : Bool} {c : Char} (hc : c.isAlphanum = true) :
    skipFrom false keyAllowed false (c :: rest) mark = (keyAllowed, ⟨c :: rest, mark⟩) :=
  skipFrom_stays (isBreak_of_isWordChar (isWordChar_of_isAlphanum hc))
    (isGap_of_isWordChar (isWordChar_of_isAlphanum hc)) (ne_of_class hc (by decide))
    (ne_of_class hc (by decide))

theorem skipFrom_space {keyAllowed : Bool} :
    skipFrom false keyAllowed false (' ' :: rest) mark
      = skipFrom false keyAllowed false rest mark.next := by
  rw [skipFrom]
  · simp [isBreak]
  · exact fun _ h => absurd h (by decide)

/-- No block collection ends at a column within its margin. -/
theorem leave_of_le {target margin : Nat} (h : margin ≤ target) (outer : List Nat) :
    leave target margin outer = (0, margin, outer) := by
  cases outer with
  | nil => rfl
  | cons first outer => simp [leave, Nat.not_lt.2 h]

/-- Nothing but a plain scalar begins with a letter or a digit. -/
theorem fetchHere_alphanum {s : Lexer} {c : Char} (hc : c.isAlphanum = true)
    (h : ∃ cs, s.cursor.rest = c :: cs) : s.fetchHere = s.fetchPlain := by
  obtain ⟨cs, h⟩ := h
  have hne : ∀ {d : Char}, d.isAlphanum = false → c ≠ d := ne_of_class hc
  have hstart : atDocumentStart (c :: cs) = false := by
    rw [atDocumentStart.eq_def]
    split
    · rename_i heq
      exact absurd (List.cons.inj heq).1 (hne (by decide))
    · rfl
  have hend : atDocumentEnd (c :: cs) = false := by
    rw [atDocumentEnd.eq_def]
    split
    · rename_i heq
      exact absurd (List.cons.inj heq).1 (hne (by decide))
    · rfl
  have hbegins : beginsPlain s.inFlow (c :: cs) = true := by
    simp [beginsPlain, isIndicator_of_isAlphanum hc,
      isGap_of_isWordChar (isWordChar_of_isAlphanum hc)]
  -- Each branch before the last asks for a mark that is no letter or digit.
  rw [fetchHere, h]
  simp only [hstart, hend, hbegins, hne (d := '%') (by decide), hne (d := '[') (by decide),
    hne (d := '{') (by decide), hne (d := ']') (by decide), hne (d := '}') (by decide),
    hne (d := ',') (by decide), hne (d := '-') (by decide), hne (d := '?') (by decide),
    hne (d := ':') (by decide), hne (d := '*') (by decide), hne (d := '&') (by decide),
    hne (d := '!') (by decide), hne (d := '|') (by decide), hne (d := '>') (by decide),
    hne (d := '\'') (by decide), hne (d := '"') (by decide), false_and, and_false, if_false,
    if_true, Bool.false_eq_true]

@[simp] theorem skipSpace_quiet {cursor : Cursor} {keyAllowed : Bool} {margin : Nat}
    {outer : List Nat} :
    (quiet cursor keyAllowed margin outer released).skipSpace
      = let (keyAllowed, cursor) := skipFrom false keyAllowed false cursor.rest cursor.mark
        quiet cursor keyAllowed margin outer released := rfl

/-- What is fetched is what stands behind the white space, if no indentation ends there. -/
theorem fetch_eq {s t : Lexer} (h : s.skipSpace.dropStale = .ok t)
    (hmargin : t.margin ≤ t.cursor.mark.column + 1) : s.fetch = t.fetchHere := by
  have hunroll : t.unroll (t.cursor.mark.column + 1) = t := by
    simp [unroll, leave_of_le hmargin]
  rw [fetch, h]
  exact congrArg fetchHere hunroll

/-- The key at the start of a line. -/
theorem fetch_key {margin : Nat} (hword : IsWord word) (hmargin : margin ≤ 1)
    (outer : List Nat) (hmark : mark.column = 0) :
    (quiet ⟨word ++ ':' :: ' ' :: rest, mark⟩ true margin outer released).fetch
      = .ok { quiet ⟨':' :: ' ' :: rest, mark.skip word.length⟩ false margin outer released with
          candidate := some ⟨margin == 1, released, mark⟩
          pending := [⟨.scalar word true, mark⟩] } := by
  obtain ⟨c, cs, hcons, hc⟩ := hword.head
  have hready : (quiet ⟨word ++ ':' :: ' ' :: rest, mark⟩ true margin outer released).skipSpace.dropStale
      = .ok (quiet ⟨word ++ ':' :: ' ' :: rest, mark⟩ true margin outer released) := by
    rw [skipSpace_quiet]
    simp only [hcons, List.cons_append, skipFrom_alphanum hc]
    rfl
  have hplain : plainFrom false margin [] .empty (word ++ ':' :: ' ' :: rest) mark
      = .ok ⟨word, ⟨':' :: ' ' :: rest, mark.skip word.length⟩, false⟩ := by
    rw [plainFrom_word hword.chars, plainFrom_colon]
    simp
  -- The key is a plain scalar that ends at the colon, and it is noted as a candidate.
  rw [fetch_eq hready (by simp only [quiet]; omega),
    fetchHere_alphanum hc ⟨cs ++ ':' :: ' ' :: rest, by simp [quiet, hcons]⟩]
  simp [fetchPlain, noteCandidate, dropCandidate, inFlow, plainScalar, push, quiet, bind,
    Except.bind, pure, Except.pure, hplain, hmark]

/-- Nothing is skipped before a colon. -/
theorem skipFrom_colon {keyAllowed : Bool} :
    skipFrom false keyAllowed false (':' :: rest) mark = (keyAllowed, ⟨':' :: rest, mark⟩) :=
  skipFrom_stays (by decide) (by decide) (by decide) (by decide)

theorem fetchHere_colon {s : Lexer} (h : s.cursor.rest = ':' :: ' ' :: rest) :
    s.fetchHere = s.fetchValue := by
  simp [fetchHere, h, atDocumentStart, atDocumentEnd, atSeparation, isGap]

/-- The colon behind a key.  The first one begins the mapping. -/
theorem fetch_colon {margin : Nat} (key : Token) (hmargin : margin ≤ 1) (outer : List Nat)
    (hcolumn : key.start.column = 0) (hline : key.start.line = mark.line)
    (hindex : mark.index ≤ key.start.index + 1024) :
    (Lexer.fetch { quiet ⟨':' :: ' ' :: rest, mark⟩ false margin outer released with
        candidate := some ⟨margin == 1, released, key.start⟩
        pending := [key] })
      = .ok { quiet ⟨' ' :: rest, mark.next⟩ false 1
          (if margin = 0 then 0 :: outer else outer) released with
          pending := (if margin = 0 then [⟨.blockMappingStart, key.start⟩] else [])
            ++ [⟨.key, key.start⟩, key, ⟨.value, mark⟩] } := by
  -- The candidate is still fresh, so the lexeme before the colon becomes a key.
  have hfresh : isStale mark ⟨margin == 1, released, key.start⟩ = false := by
    simp [isStale, hline, hindex]
  have hready : (Lexer.skipSpace { quiet ⟨':' :: ' ' :: rest, mark⟩ false margin outer released with
        candidate := some ⟨margin == 1, released, key.start⟩
        pending := [key] }).dropStale
      = .ok { quiet ⟨':' :: ' ' :: rest, mark⟩ false margin outer released with
        candidate := some ⟨margin == 1, released, key.start⟩
        pending := [key] } := by
    simp [skipSpace, inFlow, quiet, skipFrom_colon, dropStale, refresh, hfresh, bind, Except.bind,
      pure, Except.pure]
  rw [fetch_eq hready (by simp only [quiet]; omega), fetchHere_colon rfl]
  -- At margin 0 the mapping begins here; at margin 1 it goes on.
  obtain rfl | rfl : margin = 0 ∨ margin = 1 := by omega
  · simp [fetchValue, roll, take, push, inFlow, quiet, hcolumn, Cursor.skip, Mark.skip, Mark.next, pure,
      Except.pure]
  · simp [fetchValue, roll, take, push, inFlow, quiet, hcolumn, Cursor.skip, Mark.skip, Mark.next, pure,
      Except.pure]

/-- The value, which ends the text or its line. -/
theorem fetch_word {margin : Nat} {outer : List Nat} {scalar : PlainScalar} (hword : IsWord word)
    (hmargin : margin ≤ 1)
    (hplain : plainFrom false margin [] .empty (word ++ rest) mark.next = .ok scalar) :
    (quiet ⟨' ' :: (word ++ rest), mark⟩ false margin outer released).fetch
      = .ok { quiet scalar.after scalar.endsLine margin outer released with
          pending := [⟨.scalar scalar.text true, mark.next⟩] } := by
  obtain ⟨c, cs, hcons, hc⟩ := hword.head
  have hready : (quiet ⟨' ' :: (word ++ rest), mark⟩ false margin outer released).skipSpace.dropStale
      = .ok (quiet ⟨word ++ rest, mark.next⟩ false margin outer released) := by
    rw [skipSpace_quiet]
    simp only [hcons, List.cons_append, skipFrom_space, skipFrom_alphanum hc]
    rfl
  rw [fetch_eq hready (by simp only [quiet]; omega),
    fetchHere_alphanum hc ⟨cs ++ rest, by simp [quiet, hcons]⟩]
  simp [fetchPlain, noteCandidate, inFlow, plainScalar, push, quiet, bind, Except.bind, pure,
    Except.pure, hplain]

/-- The end of the text ends the mapping. -/
theorem fetch_end (hcolumn : mark.column ≠ 0) :
    (quiet ⟨[], mark⟩ false 1 [0] released).fetch
      = .ok { quiet ⟨[], mark.nextLine 0⟩ false 0 [] released with
          pending := [⟨.blockEnd, mark.nextLine 0⟩, ⟨.streamEnd, mark.nextLine 0⟩]
          ended := true } := by
  have hready : (quiet ⟨[], mark⟩ false 1 [0] released).skipSpace.dropStale
      = .ok (quiet ⟨[], mark⟩ false 1 [0] released) := rfl
  rw [fetch_eq hready (by simp only [quiet]; omega)]
  simp [fetchHere, fetchEnd, unroll, leave, dropCandidate, push, inFlow, quiet, bind, Except.bind, pure,
    Except.pure, hcolumn]

/-! ### Tokens that are given out -/

/-- Nothing is held back without a candidate. -/
theorem splitHeld_free {s : Lexer} {number : Nat} {tokens : List Token}
    (h : ∀ n, s.holds n = false) : s.splitHeld number tokens = (tokens, []) := by
  induction tokens generalizing number with
  | nil => rfl
  | cons token rest ih => simp [splitHeld, h, ih]

variable {cursor : Cursor} {keyAllowed : Bool} {margin : Nat} {outer : List Nat}
variable {pending : List Token} {s : Lexer}

/-- Tokens behind which nothing is held back are given out, -/
theorem run_free
    (hfetch : s.fetch = .ok { quiet cursor keyAllowed margin outer released with pending }) :
    run (fuel + 1) s
      = (pending ++ (run fuel (quiet cursor keyAllowed margin outer (released + pending.length))).1,
        (run fuel (quiet cursor keyAllowed margin outer (released + pending.length))).2) := by
  simp [run, hfetch, quiet, dropStale, refresh, release, splitHeld_free, holds, bind, Except.bind,
    pure, Except.pure]

/-- and so are the last ones. -/
theorem run_last
    (hfetch : s.fetch = .ok { quiet cursor keyAllowed margin outer released with
      pending, ended := true }) : run (fuel + 1) s = (pending, none) := by
  simp [run, hfetch, quiet, dropStale, refresh, release, splitHeld_free, holds, bind, Except.bind,
    pure, Except.pure]

/-- A fault ends the tokens. -/
theorem run_fault {fault : Fault} (hfetch : s.fetch = .error fault) :
    run (fuel + 1) s = ([], some fault) := by
  simp [run, hfetch, bind, Except.bind]

/-- A token that may begin a key is held back. -/
theorem run_held (token : Token) {required : Bool}
    (hfetch : s.fetch = .ok { quiet cursor keyAllowed margin outer released with
      candidate := some ⟨required, released, token.start⟩
      pending := [token] })
    (hfresh : isStale cursor.mark ⟨required, released, token.start⟩ = false) :
    run (fuel + 1) s = run fuel { quiet cursor keyAllowed margin outer released with
      candidate := some ⟨required, released, token.start⟩
      pending := [token] } := by
  simp [run, hfetch, quiet, dropStale, refresh, hfresh, release, splitHeld, holds, bind,
    Except.bind, pure, Except.pure]

/-- If no key can begin with it any more, it is given out, -/
theorem run_stale (token : Token)
    (hfetch : s.fetch = .ok { quiet cursor keyAllowed margin outer released with
      candidate := some ⟨false, released, token.start⟩
      pending := [token] })
    (hstale : isStale cursor.mark ⟨false, released, token.start⟩ = true) :
    run (fuel + 1) s = (token :: (run fuel (quiet cursor keyAllowed margin outer (released + 1))).1,
      (run fuel (quiet cursor keyAllowed margin outer (released + 1))).2) := by
  simp [run, hfetch, quiet, dropStale, refresh, hstale, release, splitHeld_free, holds, bind,
    Except.bind, pure, Except.pure]

/-- and a key that had to begin with it is missed. -/
theorem run_missed (token : Token)
    (hfetch : s.fetch = .ok { quiet cursor keyAllowed margin outer released with
      candidate := some ⟨true, released, token.start⟩
      pending := [token] })
    (hstale : isStale cursor.mark ⟨true, released, token.start⟩ = true) :
    run (fuel + 1) s = ([], some (.here cursor.mark)) := by
  simp [run, hfetch, quiet, dropStale, refresh, hstale, bind, Except.bind, pure, Except.pure]

/-- The tokens of a key with its colon.  The first key begins the mapping. -/
def keyTokens (margin : Nat) (key : List Char) (mark : Mark) : List Token :=
  (if margin = 0 then [⟨.blockMappingStart, mark⟩] else [])
    ++ [⟨.key, mark⟩, ⟨.scalar key true, mark⟩, ⟨.value, mark.skip key.length⟩]

/-- The lexer over a key at the start of a line. -/
theorem run_key (fuel released : Nat) (outer : List Nat) (rest : List Char) (hword : IsWord word)
    (hlength : word.length ≤ 1024) (hmargin : margin ≤ 1) (hmark : mark.column = 0) :
    ∃ released', run (fuel + 2)
        (quiet ⟨word ++ ':' :: ' ' :: rest, mark⟩ true margin outer released)
      = (keyTokens margin word mark ++ (run fuel (quiet ⟨' ' :: rest, (mark.skip word.length).next⟩
            false 1 (if margin = 0 then 0 :: outer else outer) released')).1,
          (run fuel (quiet ⟨' ' :: rest, (mark.skip word.length).next⟩
            false 1 (if margin = 0 then 0 :: outer else outer) released')).2) := by
  have hsame : mark.line = (mark.skip word.length).line := rfl
  have hindex : (mark.skip word.length).index ≤ mark.index + 1024 := by
    simpa [Mark.skip] using hlength
  have hfresh : isStale (mark.skip word.length) ⟨margin == 1, released, mark⟩ = false := by
    simp [isStale, Mark.skip] at hindex ⊢
    exact hindex
  -- The key is held back until the colon is read, and then comes out behind what it begins.
  have hheld : run (fuel + 2) (quiet ⟨word ++ ':' :: ' ' :: rest, mark⟩ true margin outer released)
      = run (fuel + 1) _ :=
    run_held ⟨.scalar word true, mark⟩ (fetch_key hword hmargin outer hmark) hfresh
  exact ⟨_, hheld.trans (run_free
    (fetch_colon ⟨.scalar word true, mark⟩ hmargin outer hmark hsame hindex))⟩

/-- The position of the value on a line that begins at a mark, -/
def valueMark (mark : Mark) (line : List Char × List Char) : Mark := (mark.skip line.1.length).next.next

/-- and the start of the next line. -/
def lineEnd (mark : Mark) (line : List Char × List Char) : Mark :=
  ((valueMark mark line).skip line.2.length).nextLine 1

/-- The start of the line behind some lines. -/
def linesEnd (mark : Mark) (lines : List (List Char × List Char)) : Mark := lines.foldl lineEnd mark

/-- The tokens of a line. -/
def lineTokens (margin : Nat) (mark : Mark) (line : List Char × List Char) : List Token :=
  keyTokens margin line.1 mark ++ [⟨.scalar line.2 true, valueMark mark line⟩]

/-- The tokens of lines, the first of which begins the mapping if the margin is zero. -/
def linesTokens (margin : Nat) (mark : Mark) : List (List Char × List Char) → List Token
  | [] => []
  | line :: lines => lineTokens margin mark line ++ linesTokens 1 (lineEnd mark line) lines

/-- The lexer at the start of a line: nothing was read, or a mapping is open. -/
def atLine (margin : Nat) (mark : Mark) (text : List Char) (released : Nat) : Lexer :=
  quiet ⟨text, mark⟩ true margin (if margin = 0 then [] else [0]) released

/-- Lines with the marks at which they begin. -/
def rows (mark : Mark) : List (List Char × List Char) → List (Mark × List Char × List Char)
  | [] => []
  | line :: lines => (mark, line) :: rows (lineEnd mark line) lines

/-- The tokens of a line in an open mapping. -/
def rowTokens (row : Mark × List Char × List Char) : List Token := lineTokens 1 row.1 row.2

variable {line next : List Char × List Char} {before after lines : List (List Char × List Char)}

theorem linesTokens_one (mark : Mark) (lines : List (List Char × List Char)) :
    linesTokens 1 mark lines = (rows mark lines).flatMap rowTokens := by
  induction lines generalizing mark with
  | nil => rfl
  | cons line lines ih => simp [linesTokens, rows, ih, rowTokens]

/-- The first line of a mapping has the start of the mapping before it. -/
theorem linesTokens_zero (mark : Mark) (hne : lines ≠ []) :
    linesTokens 0 mark lines = ⟨.blockMappingStart, mark⟩ :: linesTokens 1 mark lines := by
  obtain ⟨line, lines, rfl⟩ := List.exists_cons_of_ne_nil hne
  simp [linesTokens, lineTokens, keyTokens]

theorem linesTokens_append (mark : Mark) (before lines : List (List Char × List Char)) :
    linesTokens margin mark (before ++ lines) = linesTokens margin mark before
      ++ linesTokens (if before = [] then margin else 1) (linesEnd mark before) lines := by
  induction before generalizing margin mark with
  | nil => rfl
  | cons line before ih => simp [linesTokens, ih, linesEnd]

theorem rows_append (mark : Mark) (before lines : List (List Char × List Char)) :
    rows mark (before ++ lines) = rows mark before ++ rows (linesEnd mark before) lines := by
  induction before generalizing mark with
  | nil => rfl
  | cons line before ih => simp [rows, ih, linesEnd]

theorem map_snd_rows (mark : Mark) (lines : List (List Char × List Char)) :
    (rows mark lines).map (·.2) = lines := by
  induction lines generalizing mark with
  | nil => rfl
  | cons line lines ih => simp [rows, ih]

/-- Lines are counted, and each begins at the left. -/
theorem linesEnd_place (lines : List (List Char × List Char)) (mark : Mark) (hcolumn : mark.column = 0) :
    (linesEnd mark lines).line = mark.line + lines.length ∧ (linesEnd mark lines).column = 0 := by
  induction lines generalizing mark with
  | nil => exact ⟨rfl, hcolumn⟩
  | cons line lines ih =>
    obtain ⟨hline, hzero⟩ := ih (lineEnd mark line) rfl
    refine ⟨?_, hzero⟩
    rw [linesEnd, List.foldl_cons]
    refine hline.trans ?_
    simp [lineEnd, valueMark, Mark.nextLine, Mark.next, Mark.skip]
    omega

/-- **The lexer over a line**, up to the start of the next or the end of the text. -/
theorem run_line {behind : Cursor} {endsLine : Bool} (fuel released : Nat) (hline : IsLine line)
    (hmargin : margin ≤ 1) (hmark : mark.column = 0)
    (hbehind : plainFrom false 1 [] .empty (line.2 ++ rest) (valueMark mark line)
      = .ok ⟨line.2, behind, endsLine⟩) :
    ∃ released', run (fuel + 3) (atLine margin mark (lineChars line ++ rest) released)
      = (lineTokens margin mark line ++ (run fuel (quiet behind endsLine 1 [0] released')).1,
          (run fuel (quiet behind endsLine 1 [0] released')).2) := by
  have htext : lineChars line ++ rest = line.1 ++ ':' :: ' ' :: (line.2 ++ rest) := by
    simp [lineChars]
  have houter : (if margin = 0 then 0 :: (if margin = 0 then [] else [0]) else
      if margin = 0 then [] else [0]) = [0] := by
    split <;> simp_all
  obtain ⟨released', hrun⟩ := run_key (fuel + 1) released (if margin = 0 then [] else [0])
    (line.2 ++ rest) hline.key hline.length_le hmargin hmark
  rw [houter, run_free (fetch_word hline.value (Nat.le_refl 1) hbehind)] at hrun
  refine ⟨released' + 1, ?_⟩
  rw [htext, lineTokens, List.append_assoc]
  exact hrun

/-- A value ends at the end of the text, -/
theorem plainFrom_end (hvalue : IsWord word) :
    plainFrom false 1 [] .empty (word ++ []) mark = .ok ⟨word, ⟨[], mark.skip word.length⟩, false⟩ := by
  rw [plainFrom_word hvalue.chars]
  simp [plainFrom, Spacing.isAcross, Spacing.empty]

/-- or before the next line. -/
theorem plainFrom_noteChars (hvalue : IsWord word) (hnext : IsWord next.1) :
    plainFrom false 1 [] .empty (word ++ '\n' :: noteChars (next :: lines)) mark
      = .ok ⟨word, ⟨noteChars (next :: lines), (mark.skip word.length).nextLine 1⟩, true⟩ := by
  obtain ⟨c, cs, hcons, hc⟩ := exists_cons_noteChars hnext lines
  rw [plainFrom_word hvalue.chars, hcons, plainFrom_line (isWordChar_of_isAlphanum hc) Nat.one_pos]
  simp

/-- **The lexer over the lines before another one.** -/
theorem run_before (fuel released : Nat) (after : List (List Char × List Char))
    (hbefore : ∀ l ∈ before, IsLine l)
    (hnext : IsWord next.1) (hmargin : margin ≤ 1) (hmark : mark.column = 0) :
    ∃ released', run (fuel + 3 * before.length)
        (atLine margin mark (noteChars (before ++ next :: after)) released)
      = (linesTokens margin mark before ++ (run fuel (atLine (if before = [] then margin else 1)
            (linesEnd mark before) (noteChars (next :: after)) released')).1,
          (run fuel (atLine (if before = [] then margin else 1) (linesEnd mark before)
            (noteChars (next :: after)) released')).2) := by
  -- Only the first line can begin the mapping, so the margin is one from the second line on.
  induction before generalizing margin mark released with
  | nil => exact ⟨released, rfl⟩
  | cons line before ih =>
    obtain ⟨hline, hbefore⟩ := List.forall_mem_cons.1 hbefore
    obtain ⟨second, rest, hsecond, hkey⟩ :
        ∃ second rest, before ++ next :: after = second :: rest ∧ IsWord second.1 := by
      cases before with
      | nil => exact ⟨next, after, rfl, hnext⟩
      | cons second rest => exact ⟨second, _, rfl, (hbefore second List.mem_cons_self).key⟩
    have htext : noteChars (line :: before ++ next :: after)
        = lineChars line ++ '\n' :: noteChars (second :: rest) := by
      rw [List.cons_append, hsecond]
      rfl
    obtain ⟨released', hrun⟩ := run_line (fuel + 3 * before.length) released hline hmargin hmark
      (plainFrom_noteChars hline.value hkey)
    obtain ⟨released'', hrest⟩ := ih released' hbefore (Nat.le_refl 1)
      (show (lineEnd mark line).column = 0 from rfl)
    refine ⟨released'', ?_⟩
    rw [hsecond] at hrest
    have hfuel : fuel + 3 * (line :: before).length = fuel + 3 * before.length + 3 := by
      simp
      omega
    have hopen : quiet ⟨noteChars (second :: rest),
        ((valueMark mark line).skip line.2.length).nextLine 1⟩ true 1 [0] released'
        = atLine 1 (lineEnd mark line) (noteChars (second :: rest)) released' := rfl
    rw [htext, hfuel, hrun, hopen, hrest]
    simp [linesTokens, linesEnd]

/-- The lexer over the last line. -/
theorem run_last_line (fuel released : Nat) (hline : IsLine line) (hmargin : margin ≤ 1)
    (hmark : mark.column = 0) :
    ∃ stop, run (fuel + 4) (atLine margin mark (noteChars [line]) released)
      = (lineTokens margin mark line ++ [⟨.blockEnd, stop⟩, ⟨.streamEnd, stop⟩], none) := by
  obtain ⟨released', hrun⟩ := run_line (fuel + 1) released hline hmargin hmark
    (plainFrom_end hline.value)
  have hcolumn : ((valueMark mark line).skip line.2.length).column ≠ 0 := by
    simp [valueMark, Mark.skip, Mark.next]
  rw [run_last (fetch_end hcolumn), List.append_nil] at hrun
  exact ⟨_, hrun⟩

/-- A key that is too long is none: its colon is a fault. -/
theorem run_long_key (fuel released : Nat) (hword : IsWord word) (hlength : 1024 < word.length)
    (hmargin : margin ≤ 1) (hmark : mark.column = 0) :
    run (fuel + 2) (atLine margin mark (word ++ ':' :: ' ' :: rest) released)
      = (if margin = 0 then [⟨.scalar word true, mark⟩] else [],
          some (.here (mark.skip word.length))) := by
  have hstale : ∀ required, isStale (mark.skip word.length) ⟨required, released, mark⟩ = true := by
    intro required
    simp [isStale, Mark.skip]
    omega
  obtain rfl | rfl : margin = 0 ∨ margin = 1 := by omega
  · -- No mapping is open: the word is a scalar, and the colon behind it is a fault.
    have hcolon : (quiet ⟨':' :: ' ' :: rest, mark.skip word.length⟩ false 0 [] (released + 1)).fetch
        = .error (.here (mark.skip word.length)) := by
      have hready : (quiet ⟨':' :: ' ' :: rest, mark.skip word.length⟩ false 0 []
            (released + 1)).skipSpace.dropStale
          = .ok (quiet ⟨':' :: ' ' :: rest, mark.skip word.length⟩ false 0 [] (released + 1)) := by
        rw [skipSpace_quiet]
        simp only [skipFrom_colon]
        rfl
      rw [fetch_eq hready (Nat.zero_le _), fetchHere_colon rfl]
      rfl
    have hkey : (quiet ⟨word ++ ':' :: ' ' :: rest, mark⟩ true 0 [] released).fetch = .ok _ :=
      fetch_key hword hmargin [] hmark
    have hrun : run (fuel + 1 + 1) _ = _ := run_stale ⟨.scalar word true, mark⟩ hkey (hstale false)
    rw [run_fault hcolon] at hrun
    exact hrun
  · -- In a mapping a key must come, and this one is missed.
    exact run_missed ⟨.scalar word true, mark⟩ (fetch_key hword hmargin [0] hmark) (hstale true)

end Lexer

/-! ### The tokens of a note -/

section Tokens

variable {next : List Char × List Char} {before after lines : List (List Char × List Char)}

/-- The tokens of lines that are sound come first. -/
theorem tokens_before (hbefore : ∀ l ∈ before, IsLine l) (hnext : IsPair next)
    (hafter : ∀ l ∈ after, IsPair l) :
    ∃ fuel released, Yaml.tokens (noteChars (before ++ next :: after))
      = (Lexer.linesTokens 0 .origin before ++ (Lexer.run (fuel + 4)
          (Lexer.atLine (if before = [] then 0 else 1) (Lexer.linesEnd .origin before)
            (noteChars (next :: after)) released)).1,
        (Lexer.run (fuel + 4) (Lexer.atLine (if before = [] then 0 else 1)
          (Lexer.linesEnd .origin before) (noteChars (next :: after)) released)).2) := by
  have hlines : ∀ l ∈ before ++ next :: after, IsPair l := by
    simp only [List.mem_append, List.mem_cons]
    rintro l (hl | rfl | hl)
    · exact (hbefore l hl).isPair
    · exact hnext
    · exact hafter l hl
  have hallowed : (noteChars (before ++ next :: after)).all isAllowed = true :=
    List.all_eq_true.2 fun c hc => isAllowed_of_mem_noteChars hlines hc
  -- A line has four characters at least and takes three steps.
  obtain ⟨fuel, hfuel⟩ : ∃ fuel, (noteChars (before ++ next :: after)).length + 1
      = fuel + 4 + 3 * before.length := by
    have hlength := length_noteChars hlines
    simp only [List.length_append, List.length_cons] at hlength
    exact ⟨(noteChars (before ++ next :: after)).length + 1 - 4 - 3 * before.length, by omega⟩
  obtain ⟨released, hrun⟩ := Lexer.run_before (fuel + 4) 0 after hbefore hnext.key
    (Nat.zero_le 1) (show Mark.origin.column = 0 from rfl)
  refine ⟨fuel, released, ?_⟩
  rw [Yaml.tokens, if_pos hallowed, hfuel, ← hrun]
  rfl

/-- **The tokens of a note**: a mapping of the words on its lines. -/
theorem tokens_note (hne : lines ≠ []) (hlines : ∀ l ∈ lines, IsLine l) :
    ∃ stop, Yaml.tokens (noteChars lines)
      = (Lexer.linesTokens 0 .origin lines ++ [⟨.blockEnd, stop⟩, ⟨.streamEnd, stop⟩], none) := by
  obtain ⟨before, last, rfl⟩ : ∃ before last, lines = before ++ [last] :=
    ⟨lines.dropLast, lines.getLast hne, (List.dropLast_concat_getLast hne).symm⟩
  have hlast : IsLine last := hlines last (by simp)
  have hbefore : ∀ l ∈ before, IsLine l := fun l hl => hlines l (by simp [hl])
  obtain ⟨fuel, released, htokens⟩ := tokens_before hbefore hlast.isPair (List.forall_mem_nil _)
  obtain ⟨stop, hrun⟩ := Lexer.run_last_line fuel released hlast
    (show (if before = [] then 0 else 1) ≤ 1 by split <;> decide)
    (Lexer.linesEnd_place _ .origin rfl).2
  refine ⟨stop, ?_⟩
  rw [htokens, hrun, Lexer.linesTokens_append]
  simp [Lexer.linesTokens]

/-- A key that is too long ends the tokens.  In the first line it is given out before. -/
theorem tokens_long_key (hbefore : ∀ l ∈ before, IsLine l) (hnext : IsPair next)
    (hlength : 1024 < next.1.length) (hafter : ∀ l ∈ after, IsPair l) :
    Yaml.tokens (noteChars (before ++ next :: after)) = (Lexer.linesTokens 0 .origin before
        ++ (if before = [] then [⟨.scalar next.1 true, .origin⟩] else []),
      some (.here ((Lexer.linesEnd .origin before).skip next.1.length))) := by
  obtain ⟨fuel, released, htokens⟩ := tokens_before hbefore hnext hafter
  obtain ⟨rest, hrest⟩ : ∃ rest, noteChars (next :: after) = next.1 ++ ':' :: ' ' :: rest := by
    cases after with
    | nil => exact ⟨next.2, rfl⟩
    | cons other after =>
      exact ⟨next.2 ++ '\n' :: noteChars (other :: after), by simp [noteChars, lineChars]⟩
  rw [hrest, Lexer.run_long_key (fuel + 2) released hnext.key hlength
    (show (if before = [] then 0 else 1) ≤ 1 by split <;> decide)
    (Lexer.linesEnd_place _ .origin rfl).2] at htokens
  rw [htokens]
  -- Only in the first line is the key not required, so that it was given out before it is refused.
  by_cases hnil : before = []
  · subst hnil
    rfl
  · simp [hnil]

/-- The tokens of sound lines come first, whatever stands behind them. -/
theorem tokens_lines (hlines : ∀ l ∈ lines, IsLine l) (hne : lines ≠ [])
    (hafter : ∀ l ∈ after, IsPair l) :
    ∃ more last, Yaml.tokens (noteChars (lines ++ after))
      = (Lexer.linesTokens 0 .origin lines ++ more, last) := by
  cases after with
  | nil =>
    obtain ⟨stop, htokens⟩ := tokens_note hne hlines
    exact ⟨_, _, by rw [List.append_nil, htokens]⟩
  | cons next after =>
    obtain ⟨hnext, hafter⟩ := List.forall_mem_cons.1 hafter
    obtain ⟨fuel, released, htokens⟩ := tokens_before hlines hnext hafter
    exact ⟨_, _, htokens⟩

end Tokens

end SecretFill.Yaml
