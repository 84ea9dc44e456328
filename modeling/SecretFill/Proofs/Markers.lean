import SecretFill.Proofs.Embedding

namespace SecretFill.Yaml

/-!
# A document marker behind a text

A document marker ends at the start of a line what the end of the text would end there.  So a text of
whole lines has the same tokens with a marker behind it, up to the end of the stream; what stands behind
the marker is not looked at before.

* `Frame.Marked` — a document marker stands behind the text.
* `Frame.Lined` — what is left of the text are whole lines.
* `Frame.Keeps`, `Frame.Carries` — what is read of the text is read before the marker too.
* `Precedes` — the lexemes of one reading come before a document marker in another.
* `proceed_marker` — the marker ends what the end of the text ends.
* `Frame.Around.run_marked`, `tokens_precedes` — the tokens of a text with a marker behind it.
-/

open Cursor Lexer SecretFill.Yaml.Frame

variable {F : Frame} {c c' : Cursor} {d : Char} {cs : List Char} {m : Mark}

/-! ### Whole lines -/

theorem exists_of_atDocumentStart (h : atDocumentStart cs = true) :
    ∃ rest, cs = '-' :: '-' :: '-' :: rest :=
  exists_of_atTriple (Frame.atDocumentStart_eq cs ▸ h)

namespace Frame

/-- A document marker stands behind the text. -/
def Marked (F : Frame) : Prop := Yaml.atDocumentStart F.behind = true

/-- A marker goes on with the last word, unless the text ends in a line feed. -/
theorem Marked.getLast? (h : F.Marked) (hfits : F.Fits cs) : cs.getLast? = some '\n' := by
  obtain ⟨rest, hbehind⟩ := exists_of_atDocumentStart h
  cases hfits with
  | alone hnil => simp [hbehind] at hnil
  | white hwhite => exact absurd (hwhite '-' (by simp [hbehind])) (by decide)
  | line hlast => exact hlast

theorem Marked.ne_nil (h : F.Marked) (hfits : F.Fits cs) : cs ≠ [] := by
  rintro rfl
  cases h.getLast? hfits

/-- What is left of the text are whole lines: it ends in a line feed, or a line starts behind it. -/
def Lined (F : Frame) (c : Cursor) : Prop := F.Fits c.rest ∨ c.rest = [] ∧ c.mark.column = 0

/-- Before the end of the text the line goes on. -/
theorem fits_cons {p : Prop} (h : F.Fits (d :: cs) ∨ d :: cs = [] ∧ p) : F.Fits (d :: cs) :=
  h.resolve_right fun hnil => List.cons_ne_nil _ _ hnil.1

theorem Fits.within (h : F.Fits (d :: cs)) (hd : isBreak d ≠ true) : F.Fits cs :=
  h.next (by rintro rfl; exact hd rfl)

/-- Behind a line break the text ends at the start of a line, if it ends there. -/
theorem Fits.nextLine (h : F.Fits (d :: cs)) (m : Mark) (n : Nat) {p : Prop} (hp : p) :
    F.Fits cs ∨ cs = [] ∧ (m.nextLine n).column = 0 ∧ p :=
  h.tail.symm.imp_right fun hcs => ⟨hcs, rfl, hp⟩

theorem Fits.lined_nextLine (h : F.Fits (d :: cs)) (m : Mark) (n : Nat) :
    F.Lined ⟨cs, m.nextLine n⟩ := h.tail.symm.imp_right fun hcs => ⟨hcs, rfl⟩

/-- A reader that comes to an outcome comes to the same before the marker, and leaves whole lines. -/
def Keeps {α : Type} (F : Frame) (x y : Except Fault (α × Cursor)) : Prop :=
  ∀ a c, x = .ok (a, c) → y = .ok (a, F.cursor c) ∧ F.Lined c

section Keeps

variable {α β : Type} {x y : Except Fault (α × Cursor)}

theorem Keeps.error {fault : Fault} : F.Keeps (.error fault) y := fun _ _ h => nomatch h

theorem Keeps.ok {a : α} (h : F.Lined c) : F.Keeps (.ok (a, c)) (.ok (a, F.cursor c)) := by
  rintro _ _ ⟨⟩
  exact ⟨rfl, h⟩

theorem Keeps.bind (h : F.Keeps x y) {f g : α × Cursor → Except Fault (β × Cursor)}
    (hf : ∀ a c, x = .ok (a, c) → F.Lined c → F.Keeps (f (a, c)) (g (a, F.cursor c))) :
    F.Keeps (x >>= f) (y >>= g) := by
  cases x with
  | error => exact .error
  | ok out =>
    obtain ⟨rfl, hlined⟩ := h out.1 out.2 rfl
    exact hf out.1 out.2 rfl hlined

/-- A reader of a part of a line leaves something of the line. -/
theorem Reads.keeps_bind (h : F.Reads c x y) {f g : α × Cursor → Except Fault (β × Cursor)}
    (hf : ∀ a c, F.Fits c.rest → F.Keeps (f (a, c)) (g (a, F.cursor c))) :
    F.Keeps (x >>= f) (y >>= g) := by
  cases x with
  | error => exact .error
  | ok out =>
    obtain ⟨-, hfits, rfl⟩ := h
    exact hf out.1 out.2 hfits

end Keeps

end Frame

/-! ### The ends of lines -/

theorem skipComment_fits (hmarked : F.Marked) (h : F.Fits c.rest) : F.Fits c.skipComment.rest := by
  unfold skipComment
  split
  · refine h.suffix (List.dropWhile_suffix _) fun hdrop => ?_
    have hlast := List.dropWhile_eq_nil_iff.1 hdrop '\n'
      (List.mem_of_getLast? (hmarked.getLast? h))
    exact absurd hlast (by decide)
  · exact h

theorem lined_skipBreak (h : F.Fits c.rest) : F.Lined c.skipBreak := by
  obtain ⟨rest, mark⟩ := c
  unfold skipBreak
  split
  · rename_i heq
    obtain rfl := heq
    exact (h.next (by decide)).lined_nextLine mark 2
  · rename_i heq
    obtain rfl := heq
    split
    · exact h.lined_nextLine mark 1
    · exact .inl h
  · exact .inl h

theorem keeps_finishLine {α : Type} (hmarked : F.Marked) (h : F.Fits c.rest) (a : α) :
    F.Keeps (c.finishLine >>= fun c' => .ok (a, c'))
      ((F.cursor c).finishLine >>= fun c' => .ok (a, c')) := by
  have hfits := skipComment_fits hmarked (cursor_skipGaps h (hmarked.ne_nil h)).1
  rw [finishLine_cursor h (hmarked.ne_nil h) (hmarked.ne_nil hfits), finishLine_eq]
  split
  · exact .ok (lined_skipBreak hfits)
  · exact .error

theorem keeps_directive (hmarked : F.Marked) (h : F.Fits c.rest) :
    F.Keeps (directive c) (directive (F.cursor c)) := by
  have hname := (h.takeWhile fun d => isName_of_isWhite).1
  have hfits := h.skipWhile fun d => isName_of_isWhite
  rw [directive_eq, directive_eq, cursor_rest, hname, cursor_skipWhile h fun d => isName_of_isWhite]
  simp only [cursor_rest, hfits.atSeparation]
  split
  · exact .error
  · exact (reads_directiveBehind _ hfits).keeps_bind fun lexeme c hfits =>
      keeps_finishLine hmarked hfits lexeme

theorem keeps_blockHeader (hmarked : F.Marked) (h : F.Fits c.rest) :
    F.Keeps (blockHeader c) (blockHeader (F.cursor c)) := by
  obtain ⟨before, c₁, hbefore, hbefore', -, hfits⟩ := chompingSign_cursor h
  unfold blockHeader
  rw [hbefore, hbefore']
  refine Reads.keeps_bind (reads_indentationDigit hfits) fun indentation c₂ hfits => ?_
  by_cases hsecond : before.isNone && indentation.isSome
  · obtain ⟨after, c₃, hafter, hafter', -, hfits⟩ := chompingSign_cursor hfits
    simp only [hsecond, if_true, hafter, hafter']
    exact keeps_finishLine hmarked hfits _
  · simp only [hsecond]
    exact keeps_finishLine hmarked hfits _

/-- A recursion over characters that comes to an outcome comes to it within the text or at its end. -/
theorem Frame.Goes.of_ok {α σ : Type} {out : α → α} {state : σ → σ}
    {go : σ → List Char → Mark → Except Fault α} {a : α} {y : Except Fault α}
    (h : F.Goes out state go (.ok a) y) :
    y = .ok (out a) ∨ ∃ s m, go s [] m = .ok a ∧ y = go (state s) F.behind (F.mark m) := by
  generalize hx : Except.ok a = x at h
  cases h with
  | error => cases hx
  | ok =>
    obtain rfl := Except.ok.inj hx
    exact .inl rfl
  | across s m => exact .inr ⟨s, m, rfl, rfl⟩

/-! ### Plain scalars -/

section Plain

variable {flow : Bool} {margin : Nat} {read : List Char} {spacing : Spacing}

theorem isAcross_lineBreak (d : Char) (spacing : Spacing) : (spacing.lineBreak d).isAcross = true := by
  cases spacing <;> rfl

/-- A plain scalar that comes to the end of the text stands at the start of a line there. -/
theorem lined_plainFrom (hmarked : F.Marked)
    (h : F.Fits cs ∨ cs = [] ∧ m.column = 0 ∧ spacing.isAcross = true) {p : PlainScalar}
    (hread : plainFrom flow margin read spacing cs m = .ok p) :
    F.Lined p.after ∧ (p.after.rest = [] → p.endsLine = true) := by
  -- The induction follows the reader; only behind a line break can the text end.
  fun_induction plainFrom flow margin read spacing cs m with
  | case1 read spacing m =>
    obtain rfl := Except.ok.inj hread
    obtain ⟨-, hcolumn, hacross⟩ := h.resolve_left fun hfits => hmarked.ne_nil hfits rfl
    exact ⟨.inr ⟨rfl, hcolumn⟩, fun _ => hacross⟩
  | case2 read spacing rest m ih =>
    have hfits := fits_cons h
    exact ih ((hfits.next (by decide)).nextLine m 2 (isAcross_lineBreak _ _)) hread
  | case3 read spacing c rest m hcrlf hbreak ih =>
    have hfits := fits_cons h
    exact ih (hfits.nextLine m 1 (isAcross_lineBreak _ _)) hread
  | case5 read spacing c rest m hcrlf hbreak hgap htab ih =>
    have hfits := fits_cons h
    exact ih (.inl (hfits.within hbreak)) hread
  | case9 read spacing c rest m hcrlf hbreak hgap hends hcolon hend ih =>
    have hfits := fits_cons h
    exact ih (.inl (hfits.within hbreak)) hread
  | case6 | case8 =>
    obtain rfl := Except.ok.inj hread
    have hfits := fits_cons h
    exact ⟨.inl hfits, fun hnil => absurd hnil (List.cons_ne_nil _ _)⟩
  | case4 | case7 => cases hread

/-- The marker ends a plain scalar that comes to the end of the text. -/
theorem plainFrom_marker (hmarked : F.Marked) (hcolumn : m.column = 0)
    (hacross : spacing.isAcross = true) :
    plainFrom flow margin read spacing F.behind m = .ok ⟨read.reverse, ⟨F.behind, m⟩, true⟩ := by
  have hmarker : atDocumentMarker F.behind = true := by
    rw [atDocumentMarker, show atDocumentStart F.behind = true from hmarked, Bool.true_or]
  have hspacing : spacing.isEmpty = false := by
    cases spacing with
    | within gaps => cases hacross
    | across first others => rfl
  obtain ⟨rest, hbehind⟩ := exists_of_atDocumentStart hmarked
  rw [hbehind] at hmarker ⊢
  rw [plainFrom_cons (by simp), if_neg (by decide), if_neg (by decide), if_pos, hacross]
  simp [endsAfterSpacing, hspacing, hcolumn, hmarker]

theorem plainScalar_marked (hmarked : F.Marked) (h : F.Fits c.rest) {p : PlainScalar}
    (hread : plainScalar flow margin c = .ok p) :
    plainScalar flow margin (F.cursor c) = .ok (F.plain p) ∧ F.Lined p.after := by
  obtain ⟨hlined, hends⟩ := lined_plainFrom hmarked (.inl h) hread
  refine ⟨?_, hlined⟩
  have hgoes : F.Goes F.plain id (fun s : List Char × Spacing => plainFrom flow margin s.1 s.2)
    (plainScalar flow margin c) (plainScalar flow margin (F.cursor c)) := goes_plainFrom (.inr h)
  rcases (hread ▸ hgoes).of_ok with hwithin | ⟨s, m, hend, hacross⟩
  · exact hwithin
  · obtain rfl : (⟨s.1.reverse, ⟨[], m⟩, s.2.isAcross⟩ : PlainScalar) = p := Except.ok.inj hend
    obtain ⟨-, hcolumn⟩ := hlined.resolve_left fun hfits => hmarked.ne_nil hfits rfl
    have hbreak : s.2.isAcross = true := hends rfl
    rw [hacross]
    refine (plainFrom_marker (m := F.mark m) hmarked hcolumn hbreak).trans ?_
    rw [Frame.plain, hbreak]
    rfl

end Plain

/-! ### Quoted scalars -/

section Quoted

variable {read text : List Char} {spacing : Spacing} {state : QuoteState}

/-- A quote does not end a line. -/
theorem fits_singleFrom (h : cs = [] ∨ F.Fits cs)
    (hread : singleFrom read spacing cs m = .ok (text, c')) : F.Fits c'.rest := by
  have htail : ∀ {d cs}, (d :: cs = [] ∨ F.Fits (d :: cs)) → cs = [] ∨ F.Fits cs :=
    fun h => (h.resolve_left (List.cons_ne_nil _ _)).tail
  fun_induction singleFrom read spacing cs m with
  | case2 | case6 =>
    rename_i ih
    exact ih (htail (htail h)) hread
  | case3 | case4 | case8 =>
    rename_i ih
    exact ih (htail h) hread
  | case7 =>
    obtain ⟨-, rfl⟩ := Prod.mk.inj (Except.ok.inj hread)
    exact (h.resolve_left (List.cons_ne_nil _ _)).next (by decide)
  | case1 | case5 => cases hread

theorem fits_doubleFrom (h : cs = [] ∨ F.Fits cs)
    (hread : doubleFrom read state cs m = .ok (text, c')) : F.Fits c'.rest := by
  have htail : ∀ {d cs}, (d :: cs = [] ∨ F.Fits (d :: cs)) → cs = [] ∨ F.Fits cs :=
    fun h => (h.resolve_left (List.cons_ne_nil _ _)).tail
  fun_induction doubleFrom read state cs m with
  | case4 | case11 =>
    rename_i ih
    exact ih (htail (htail h)) hread
  | case5 | case6 | case9 | case10 | case12 | case13 | case14 | case17 | case19 =>
    rename_i ih
    exact ih (htail h) hread
  | case8 =>
    obtain ⟨-, rfl⟩ := Prod.mk.inj (Except.ok.inj hread)
    exact (h.resolve_left (List.cons_ne_nil _ _)).next (by decide)
  | case1 | case2 | case3 | case7 | case15 | case16 | case18 => cases hread

theorem keeps_singleQuoted (h : c.rest = [] ∨ F.Fits c.rest) :
    F.Keeps (singleQuoted c) (singleQuoted (F.cursor c)) := by
  intro text c' hread
  have hgoes : F.Goes F.outcome id (fun s : List Char × Spacing => singleFrom s.1 s.2)
    (singleQuoted c) (singleQuoted (F.cursor c)) := goes_singleFrom h
  rcases (hread ▸ hgoes).of_ok with hwithin | ⟨s, m, hend, -⟩
  · exact ⟨hwithin, .inl (fits_singleFrom h hread)⟩
  · cases hend

theorem keeps_doubleQuoted (h : c.rest = [] ∨ F.Fits c.rest) :
    F.Keeps (doubleQuoted c) (doubleQuoted (F.cursor c)) := by
  intro text c' hread
  have hgoes : F.Goes F.outcome (Prod.map id F.quote)
    (fun s : List Char × QuoteState => doubleFrom s.1 s.2)
    (doubleQuoted c) (doubleQuoted (F.cursor c)) := goes_doubleFrom h
  rcases (hread ▸ hgoes).of_ok with hwithin | ⟨s, m, hend, -⟩
  · exact ⟨hwithin, .inl (fits_doubleFrom h hread)⟩
  · obtain ⟨fault, hfault⟩ : ∃ fault, doubleFrom s.1 s.2 [] m = .error fault :=
      doubleFrom_white (by simp)
    rw [hfault] at hend
    cases hend

end Quoted

/-! ### Block scalars -/

section Block

variable {folded : Bool} {chomping : Chomping} {margin : Nat} {b : BlockText} {state : BlockState}

/-- The lines of a block scalar are indented, as far as it is known by how much. -/
def Indented : BlockState → Prop
  | .indent known _ => ∀ n ∈ known, 0 < n
  | .line indentation => 0 < indentation

/-- Whether a block scalar stands at the start of a line. -/
def atIndentation : BlockState → Bool
  | .indent .. => true
  | .line _ => false

theorem getD_pos {known : Option Nat} (h : ∀ n ∈ known, 0 < n) (least : Nat) :
    0 < known.getD (max least 1) := by
  cases known with
  | none => exact Nat.lt_of_lt_of_le Nat.one_pos (Nat.le_max_right _ _)
  | some n => exact h n rfl

/-- The marker ends a block scalar that comes to the end of the text: it is not indented. -/
theorem blockFrom_marker (hmarked : F.Marked) (hcolumn : m.column = 0) (hindented : Indented state)
    (hstate : atIndentation state = true) :
    blockFrom folded chomping margin b state F.behind m
      = .ok (b.finish chomping, ⟨F.behind, m⟩) := by
  cases state with
  | line indentation => cases hstate
  | indent known widest =>
    obtain ⟨rest, hbehind⟩ := exists_of_atDocumentStart hmarked
    have hne : m.column ≠ known.getD (max (max (max widest m.column) margin) 1) :=
      hcolumn ▸ Nat.ne_of_lt (getD_pos hindented _)
    rw [hbehind, blockFrom_indent_cons (by simp), if_neg (by decide), if_neg (by simp),
      if_neg (by simp), if_neg hne]

theorem keeps_blockFrom (hmarked : F.Marked) (hindented : Indented state)
    (h : F.Fits cs ∨ cs = [] ∧ m.column = 0 ∧ atIndentation state = true) :
    F.Keeps (blockFrom folded chomping margin b state cs m)
      (blockFrom folded chomping margin b state (cs ++ F.behind) (F.mark m)) := by
  -- The induction follows the reader; at the end of the text it counts the indentation of a line,
  -- and that of the marker is none.
  fun_induction blockFrom folded chomping margin b state cs m with
  | case1 b state m =>
    obtain ⟨-, hcolumn, hstate⟩ := h.resolve_left fun hfits => hmarked.ne_nil hfits rfl
    rw [List.nil_append, blockFrom_marker (m := F.mark m) hmarked hcolumn hindented hstate]
    exact .ok (.inr ⟨rfl, hcolumn⟩)
  | case2 b m indentation rest ih =>
    have hfits := fits_cons h
    simp only [List.cons_append, blockFrom, ← mark_nextLine]
    exact ih (fun n hn => Option.some.inj hn ▸ hindented) ((hfits.next (by decide)).nextLine m 2 rfl)
  | case3 b m indentation c rest hcrlf hbreak ih =>
    have hfits := fits_cons h
    rw [List.cons_append, blockFrom_line_cons (hfits.not_crlf hcrlf), if_pos hbreak,
      ← mark_nextLine]
    exact ih (fun n hn => Option.some.inj hn ▸ hindented) (hfits.nextLine m 1 rfl)
  | case4 b m indentation c rest hcrlf hbreak ih =>
    have hfits := fits_cons h
    rw [List.cons_append, blockFrom_line_cons (hfits.not_crlf hcrlf), if_neg hbreak, ← mark_next]
    exact ih hindented (.inl (hfits.within hbreak))
  | case5 b m known widest widest' rest ih =>
    have hfits := fits_cons h
    simp only [List.cons_append, blockFrom, ← mark_nextLine, mark_column]
    exact ih hindented ((hfits.next (by decide)).nextLine m 2 rfl)
  | case6 b m known widest widest' c rest hcrlf hbreak ih =>
    have hfits := fits_cons h
    rw [List.cons_append, blockFrom_indent_cons (hfits.not_crlf hcrlf), if_pos hbreak,
      ← mark_nextLine]
    exact ih hindented (hfits.nextLine m 1 rfl)
  | case7 b m known widest outside widest' c rest hcrlf hbreak hspace ih =>
    have hfits := fits_cons h
    simp only [outside] at hspace
    rw [List.cons_append, blockFrom_indent_cons (hfits.not_crlf hcrlf), mark_column, if_neg hbreak,
      if_pos hspace, ← mark_next]
    exact ih hindented (.inl (hfits.within hbreak))
  | case8 => exact .error
  | case9 b m known widest outside widest' c rest hcrlf hbreak hspace htab indentation hcolumn b'
      ih =>
    have hfits := fits_cons h
    simp only [outside] at hspace htab
    rw [List.cons_append, blockFrom_indent_cons (hfits.not_crlf hcrlf), mark_column, if_neg hbreak,
      if_neg hspace, if_neg htab, if_pos hcolumn, ← mark_next]
    exact ih (getD_pos hindented _) (.inl (hfits.within hbreak))
  | case10 b m known widest outside widest' c rest hcrlf hbreak hspace htab indentation hcolumn =>
    have hfits := fits_cons h
    simp only [outside] at hspace htab
    rw [List.cons_append, blockFrom_indent_cons (hfits.not_crlf hcrlf), mark_column, if_neg hbreak,
      if_neg hspace, if_neg htab, if_neg hcolumn]
    exact .ok (.inl hfits)

theorem indentationDigit_pos {indentation : Option Nat}
    (h : indentationDigit c = .ok (indentation, c')) : ∀ n ∈ indentation, 0 < n := by
  rintro n rfl
  unfold indentationDigit at h
  split at h
  · rename_i d _ _
    split_ifs at h with hzero hdigit
    · have hn : some (d.toNat - '0'.toNat) = some n := (Prod.mk.inj (Except.ok.inj h)).1
      have hne : d.toNat ≠ 48 := fun heq => hzero (Char.toNat_inj.1 heq)
      have hle : 48 ≤ d.toNat := (Char.isDigit_iff_toNat.1 hdigit).1
      have hd : d.toNat - 48 = n := Option.some.inj hn
      omega
    · cases h
  · cases h

/-- The header of a block scalar fixes no empty indentation. -/
theorem blockHeader_pos {header : BlockHeader} (h : blockHeader c = .ok (header, c')) :
    ∀ n ∈ header.indentation, 0 < n := by
  obtain ⟨⟨indentation, c₁⟩, hdigit, h⟩ := Json.exists_of_bind h
  obtain ⟨c₂, -, h⟩ := Json.exists_of_bind h
  obtain ⟨rfl, -⟩ := Prod.mk.inj (Except.ok.inj h)
  exact indentationDigit_pos hdigit

theorem keeps_blockScalar (hmarked : F.Marked) (h : F.Fits c.rest) :
    F.Keeps (blockScalar folded margin c) (blockScalar folded margin (F.cursor c)) := by
  unfold blockScalar
  refine (keeps_blockHeader hmarked h).bind fun header c₁ hheader hlined => ?_
  refine keeps_blockFrom hmarked (fun n hn => ?_) (hlined.imp_right fun hend => ⟨hend.1, hend.2, rfl⟩)
  obtain ⟨k, hk, rfl⟩ := Option.map_eq_some_iff.1 hn
  have hpos := blockHeader_pos hheader k hk
  omega

end Block

/-! ### White space between tokens -/

theorem skipFrom_marked (hmarked : F.Marked) (flow keyAllowed : Bool) {comment : Bool}
    (h : F.Fits cs ∨ cs = [] ∧ m.column = 0 ∧ comment = false) (hclear : F.Clear ⟨cs, m⟩) :
    skipFrom flow keyAllowed comment (cs ++ F.behind) (F.mark m)
        = F.outcome (skipFrom flow keyAllowed comment cs m) ∧
      F.Lined (skipFrom flow keyAllowed comment cs m).2 := by
  -- The induction follows the reader; a comment ends with its line, so none is open at the end.
  fun_induction skipFrom flow keyAllowed comment cs m with
  | case1 keyAllowed comment m =>
    obtain ⟨-, hcolumn, rfl⟩ := h.resolve_left fun hfits => hmarked.ne_nil hfits rfl
    obtain ⟨rest, hbehind⟩ := exists_of_atDocumentStart hmarked
    refine ⟨?_, .inr ⟨rfl, hcolumn⟩⟩
    have hstop : skipFrom flow keyAllowed false F.behind (F.mark m)
        = (keyAllowed, ⟨F.behind, F.mark m⟩) := by
      rw [hbehind, skipFrom_cons (by simp), if_neg (by decide), if_neg (by decide),
        if_neg (by decide), if_neg (by simp [byteOrderMark])]
    exact hstop
  | case2 keyAllowed comment rest m ih =>
    have hfits := fits_cons h
    simp only [List.cons_append, skipFrom, ← mark_nextLine]
    exact ih ((hfits.next (by decide)).nextLine m 2 rfl) (clear_of_pos (Nat.succ_pos _))
  | case3 keyAllowed comment c rest m hcrlf hbreak ih =>
    have hfits := fits_cons h
    rw [List.cons_append, skipFrom_cons (hfits.not_crlf hcrlf), if_pos hbreak, ← mark_nextLine]
    exact ih (hfits.nextLine m 1 rfl) (clear_of_pos (Nat.succ_pos _))
  | case4 keyAllowed c rest m hcrlf hbreak ih =>
    have hfits := fits_cons h
    rw [List.cons_append, skipFrom_cons (hfits.not_crlf hcrlf), if_neg hbreak, if_pos rfl,
      ← mark_next]
    exact ih (.inl (hfits.within hbreak)) (clear_of_pos (Nat.succ_pos _))
  | case5 keyAllowed comment c rest m hcrlf hbreak hcomment hhash ih =>
    have hfits := fits_cons h
    rw [List.cons_append, skipFrom_cons (hfits.not_crlf hcrlf), if_neg hbreak, if_neg hcomment,
      if_pos hhash, ← mark_next]
    exact ih (.inl (hfits.within hbreak)) (clear_of_pos (Nat.succ_pos _))
  | case6 keyAllowed comment c rest m hcrlf hbreak hcomment hhash hskip ih =>
    have hfits := fits_cons h
    rw [List.cons_append, skipFrom_cons (hfits.not_crlf hcrlf), if_neg hbreak, if_neg hcomment,
      if_neg hhash, hclear.atMark, if_pos hskip, ← mark_next]
    exact ih (.inl (hfits.within hbreak)) (clear_of_pos (Nat.succ_pos _))
  | case7 keyAllowed comment c rest m hcrlf hbreak hcomment hhash hskip =>
    have hfits := fits_cons h
    rw [List.cons_append, skipFrom_cons (hfits.not_crlf hcrlf), if_neg hbreak, if_neg hcomment,
      if_neg hhash, hclear.atMark, if_neg hskip]
    exact ⟨rfl, .inl hfits⟩

/-! ### Signs -/

/-- How many characters a sign has. -/
def Lexer.Choice.width? : Choice → Option Nat
  | .marker _ => some 3
  | .opening _ | .closing _ | .comma | .entry | .key | .value => some 1
  | _ => none

theorem width?_chooseNode {flow : Bool} : (chooseNode flow d cs).width? = none := by
  unfold chooseNode
  split_ifs <;> rfl

/-- A sign holds no line feed. -/
theorem sign_choose {flow : Bool} {column n : Nat} (h : (choose flow column cs).width? = some n) :
    ∀ d ∈ cs.take n, d ≠ '\n' := by
  -- A sign is one character that is written out in the choice, or three that are alike.
  have hone : ∀ {c : Char} {cs : List Char}, c ≠ '\n' → some 1 = some n →
      ∀ d ∈ (c :: cs).take n, d ≠ '\n' := by
    rintro c cs hc ⟨⟩ d hd
    obtain rfl := List.mem_singleton.1 hd
    exact hc
  have hthree : ∀ {c : Char} {cs : List Char}, atTriple c cs = true → c ≠ '\n' →
      some 3 = some n → ∀ d ∈ cs.take n, d ≠ '\n' := by
    rintro c cs htriple hc ⟨⟩ d hd
    obtain ⟨rest, rfl⟩ := exists_of_atTriple htriple
    simp only [List.take_succ_cons, List.take_zero, List.mem_cons, List.not_mem_nil, or_false,
      or_self] at hd
    exact hd ▸ hc
  cases cs with
  | nil => cases h
  | cons c rest =>
    rw [choose] at h
    split_ifs at h with hdirective hstart hend
    · cases h
    · exact hthree (atDocumentStart_eq _ ▸ hstart.2) (by decide) h
    · exact hthree (atDocumentEnd_eq _ ▸ hend.2) (by decide) h
    · unfold chooseSign at h
      split_ifs at h with hopen hbrace hclose hshut hcomma hentry hkey hvalue
      · exact hone (by simp [hopen]) h
      · exact hone (by simp [hbrace]) h
      · exact hone (by simp [hclose]) h
      · exact hone (by simp [hshut]) h
      · exact hone (by simp [hcomma]) h
      · exact hone (by simp [hentry.1]) h
      · exact hone (by simp [hkey.1]) h
      · exact hone (by simp [hvalue.1]) h
      · rw [width?_chooseNode] at h
        cases h

section Signs

variable {s s' : Lexer}

/-- Behind a sign the cursor stands behind its characters. -/
theorem cursor_sign {choice : Choice} {n : Nat} (h : choice.width? = some n)
    (hread : s.perform choice = .ok s') : s'.cursor = s.cursor.skip n := by
  -- Before a sign is taken, candidates are noted or dropped and margins change, not the cursor.
  cases choice with
  | marker lexeme =>
    obtain ⟨s₁, hdrop, hread⟩ := Json.exists_of_bind hread
    obtain rfl := Option.some.inj h
    obtain rfl := Except.ok.inj hread
    exact congrArg (Cursor.skip · 3) ((dropCandidate_cursor hdrop).trans (unroll_cursor s 0))
  | opening lexeme =>
    obtain ⟨s₁, hnote, hread⟩ := Json.exists_of_bind hread
    obtain rfl := Option.some.inj h
    obtain rfl := Except.ok.inj hread
    exact congrArg (Cursor.skip · 1) (noteCandidate_cursor hnote)
  | closing lexeme =>
    rw [perform, fetchClose_eq] at hread
    obtain ⟨s₁, hdrop, hread⟩ := Json.exists_of_bind hread
    obtain rfl := Option.some.inj h
    obtain rfl := Except.ok.inj hread
    rw [shut_cursor]
    exact congrArg (Cursor.skip · 1) (dropCandidate_cursor hdrop)
  | comma =>
    obtain ⟨s₁, hdrop, hread⟩ := Json.exists_of_bind hread
    obtain rfl := Option.some.inj h
    obtain rfl := Except.ok.inj hread
    exact congrArg (Cursor.skip · 1) (dropCandidate_cursor hdrop)
  | entry =>
    simp only [perform, fetchEntry] at hread
    split at hread
    · cases hread
    · obtain ⟨s₁, hdrop, hread⟩ := Json.exists_of_bind hread
      obtain rfl := Option.some.inj h
      obtain rfl := Except.ok.inj hread
      exact congrArg (Cursor.skip · 1) ((dropCandidate_cursor hdrop).trans (roll_cursor _ _ _ _))
  | key =>
    simp only [perform, fetchKey] at hread
    split at hread
    · cases hread
    · obtain ⟨s₁, hdrop, hread⟩ := Json.exists_of_bind hread
      obtain rfl := Option.some.inj h
      obtain rfl := Except.ok.inj hread
      exact congrArg (Cursor.skip · 1) ((dropCandidate_cursor hdrop).trans (roll_cursor _ _ _ _))
  | value =>
    simp only [perform, fetchValue] at hread
    obtain rfl := Option.some.inj h
    split at hread
    · obtain rfl := Except.ok.inj hread
      exact congrArg (Cursor.skip · 1) (roll_cursor _ _ _ _)
    · split at hread
      · cases hread
      · obtain rfl := Except.ok.inj hread
        exact congrArg (Cursor.skip · 1) (roll_cursor _ _ _ _)
  | _ => cases h

end Signs

theorem Frame.Fits.drop {n : Nat} (h : F.Fits cs) (hn : ∀ d ∈ cs.take n, d ≠ '\n') :
    F.Fits (cs.drop n) := by
  induction n generalizing cs with
  | zero => exact h
  | succ n ih =>
    cases cs with
    | nil => exact h
    | cons d cs =>
      exact ih (h.next (hn d List.mem_cons_self)) fun e he => hn e (List.mem_cons_of_mem _ he)

/-! ### Lexemes -/

section Lexemes

variable {s s' : Lexer} {x y : Except Fault Lexer}

namespace Frame

/-- A step of the lexer that it does over the text is done before the marker too, and leaves whole
    lines. -/
def Carries (F : Frame) (x y : Except Fault Lexer) : Prop :=
  ∀ s, x = .ok s → y = .ok (F.lexer s) ∧ F.Lined s.cursor

theorem Carries.error {fault : Fault} : F.Carries (.error fault) y := fun _ h => nomatch h

theorem Mirrors.carries (h : F.Mirrors x y) {f g : Lexer → Except Fault Lexer}
    (hf : ∀ s, x = .ok s → F.Carries (f s) (g (F.lexer s))) : F.Carries (x >>= f) (y >>= g) := by
  cases x with
  | error => exact .error
  | ok s =>
    obtain rfl : y = .ok (F.lexer s) := h
    exact hf s rfl

/-- A lexeme that stays within the text. -/
theorem Leaves.carries (h : F.Leaves x y) : F.Carries x y := by
  rintro s rfl
  exact ⟨h.1, .inl h.2⟩

/-- A lexeme behind which something of the line is left. -/
theorem Follows.carries (h : F.Follows x y) (hmarked : F.Marked)
    (hfits : ∀ s, x = .ok s → F.Fits s.cursor.rest) : F.Carries x y := by
  rintro s rfl
  have hrest := hfits s rfl
  exact ⟨h.resolve_right fun hend => hmarked.ne_nil hrest hend.1, .inl hrest⟩

theorem Keeps.carries {α : Type} {x y : Except Fault (α × Cursor)} (h : F.Keeps x y)
    {f g : α × Cursor → Except Fault Lexer} (lexeme : α → Lexeme) (keyAllowed : Bool)
    (hf : ∀ a c', f (a, c') = .ok (s.write (lexeme a) keyAllowed c'))
    (hg : ∀ a c', g (a, c') = .ok ((F.lexer s).write (lexeme a) keyAllowed c')) :
    F.Carries (x >>= f) (y >>= g) := by
  cases x with
  | error => exact .error
  | ok out =>
    obtain ⟨a, c'⟩ := out
    obtain ⟨rfl, hlined⟩ := h a c' rfl
    intro s' hs'
    obtain rfl := Except.ok.inj ((hf a c').symm.trans hs')
    exact ⟨(hg a (F.cursor c')).trans (congrArg Except.ok (lexer_write _ _ _ _)), hlined⟩

end Frame

theorem carries_fetchDirective (hmarked : F.Marked) (h : F.Fits s.cursor.rest)
    (hhead : s.cursor.rest.head? = some '%') :
    F.Carries s.fetchDirective (F.lexer s).fetchDirective := by
  unfold fetchDirective
  rw [lexer_unroll]
  refine (mirrors_dropCandidate _).carries fun s₁ hdrop => ?_
  have hcursor : s₁.cursor = s.cursor := (dropCandidate_cursor hdrop).trans (unroll_cursor s 0)
  rw [← hcursor] at h hhead
  obtain ⟨hskip, hfits, -⟩ := cursor_skip_one h hhead (by decide)
  rw [lexer_cursor, hskip]
  exact (keeps_directive hmarked hfits).carries id false (fun _ _ => rfl) fun _ _ => rfl

theorem carries_fetchBlock {folded : Bool} (hmarked : F.Marked) (h : F.Fits s.cursor.rest)
    (hhead : s.cursor.rest.head? = some d) (hd : d ≠ '\n') :
    F.Carries (s.fetchBlock folded) ((F.lexer s).fetchBlock folded) := by
  unfold fetchBlock
  refine (mirrors_dropCandidate _).carries fun s₁ hdrop => ?_
  rw [← dropCandidate_cursor hdrop] at h hhead
  obtain ⟨hskip, hfits, -⟩ := cursor_skip_one h hhead hd
  rw [lexer_cursor, hskip]
  exact (keeps_blockScalar hmarked hfits).carries (.scalar · false) true (fun _ _ => rfl)
    fun _ _ => rfl

theorem carries_fetchQuoted {double : Bool} (h : F.Fits s.cursor.rest) (hne : s.cursor.rest ≠ []) :
    F.Carries (s.fetchQuoted (if double then doubleQuoted else singleQuoted))
      ((F.lexer s).fetchQuoted (if double then doubleQuoted else singleQuoted)) := by
  unfold fetchQuoted
  refine (mirrors_noteCandidate _).carries fun s₁ hnote => ?_
  rw [← noteCandidate_cursor hnote] at h hne
  have hfits := h.skip_one hne
  rw [lexer_cursor, cursor_skip (List.length_pos_iff.2 hne : 1 ≤ _)]
  cases double with
  | true =>
    exact (keeps_doubleQuoted hfits).carries (.scalar · false) false (fun _ _ => rfl) fun _ _ => rfl
  | false =>
    exact (keeps_singleQuoted hfits).carries (.scalar · false) false (fun _ _ => rfl) fun _ _ => rfl

theorem carries_fetchPlain (hmarked : F.Marked) (h : F.Fits s.cursor.rest) :
    F.Carries s.fetchPlain (F.lexer s).fetchPlain := by
  unfold fetchPlain
  refine (mirrors_noteCandidate _).carries fun s₁ hnote => ?_
  rw [← noteCandidate_cursor hnote] at h
  have hmargin : (F.lexer s₁).margin = s₁.margin := rfl
  rw [lexer_inFlow, hmargin, lexer_cursor]
  intro s' hs'
  obtain ⟨p, hread, hs'⟩ := Json.exists_of_bind hs'
  obtain rfl := Except.ok.inj hs'
  obtain ⟨hmarker, hlined⟩ := plainScalar_marked hmarked h hread
  rw [hmarker]
  exact ⟨congrArg Except.ok (lexer_write s₁ (.scalar p.text true) p.endsLine p.after), hlined⟩

/-- **Every lexeme** that is read of the text is read before the marker too. -/
theorem carries_perform (hmarked : F.Marked) (h : F.Fits s.cursor.rest) {choice : Choice}
    (hsuits : choice.Suits s.inFlow s.cursor.rest)
    (hsign : ∀ n, choice.width? = some n → ∀ d ∈ s.cursor.rest.take n, d ≠ '\n') :
    F.Carries (s.perform choice) ((F.lexer s).perform choice) := by
  have hne := hmarked.ne_nil h
  -- A lexeme of a fixed width ends on its line.
  have hrest : ∀ n, choice.width? = some n → ∀ s', s.perform choice = .ok s' →
      F.Fits s'.cursor.rest :=
    fun n hwidth s' hread => cursor_sign hwidth hread ▸ h.drop (hsign n hwidth)
  cases choice with
  | finish => exact (hne hsuits).elim
  | directive => exact carries_fetchDirective hmarked h hsuits
  | marker lexeme => exact (follows_fetchMarker hsuits).carries hmarked (hrest 3 rfl)
  | opening lexeme => exact (follows_fetchOpen hne).carries hmarked (hrest 1 rfl)
  | closing lexeme => exact (follows_fetchClose hne).carries hmarked (hrest 1 rfl)
  | comma => exact (follows_fetchComma hne).carries hmarked (hrest 1 rfl)
  | entry => exact (follows_fetchEntry hne).carries hmarked (hrest 1 rfl)
  | key => exact (follows_fetchKey hne).carries hmarked (hrest 1 rfl)
  | value => exact (follows_fetchValue hne).carries hmarked (hrest 1 rfl)
  | name lexeme =>
    obtain ⟨d, hd, hhead⟩ := hsuits
    exact (leaves_fetchName h hhead hd).carries
  | tag => exact (leaves_fetchTag h hsuits).carries
  | block folded =>
    obtain ⟨d, hd, hhead⟩ := hsuits
    exact carries_fetchBlock hmarked h hhead hd
  | quoted double => exact carries_fetchQuoted h hne
  | plain => exact carries_fetchPlain hmarked h
  | fault => exact .error

theorem carries_proceed (hmarked : F.Marked) (h : F.Fits s.cursor.rest) :
    F.Carries s.proceed (F.lexer s).proceed := by
  refine (mirrors_dropStale s).carries fun s₁ hdrop => ?_
  obtain ⟨rfl, -⟩ := dropStale_eq_ok hdrop
  have hcursor : s.refreshed.cursor = s.cursor := rfl
  rw [lexer_unroll, lexer_inFlow, lexer_cursor, cursor_rest, hcursor, h.choose (hmarked.ne_nil h)]
  refine carries_perform hmarked ?_ ?_ fun n hwidth => ?_
  · rw [unroll_cursor]
    exact h
  · rw [unroll_eq]
    exact suits_choose
  · rw [unroll_eq]
    exact sign_choose hwidth

theorem skipSpace_marked (hmarked : F.Marked) (h : F.Lined s.cursor) (hclear : F.Clear s.cursor) :
    (F.lexer s).skipSpace = F.lexer s.skipSpace ∧ F.Lined s.skipSpace.cursor := by
  obtain ⟨hskip, hlined⟩ := skipFrom_marked hmarked s.inFlow s.keyAllowed
    (h.imp_right fun hend => ⟨hend.1, hend.2, rfl⟩) hclear
  refine ⟨?_, hlined⟩
  rw [skipSpace, lexer_inFlow]
  show { F.lexer s with
    keyAllowed := (skipFrom s.inFlow s.keyAllowed false (s.cursor.rest ++ F.behind)
      (F.mark s.cursor.mark)).1
    cursor := (skipFrom s.inFlow s.keyAllowed false (s.cursor.rest ++ F.behind)
      (F.mark s.cursor.mark)).2 } = _
  rw [hskip]
  rfl

end Lexemes

/-! ### Before the marker -/

/-- The lexemes of one reading come before a document marker in another, up to the end of the stream.
    Behind a fault nothing is said of the other. -/
structure Precedes (r r' : Reading) : Prop where
  /-- The lexemes before a fault begin those of the other. -/
  begins : r.2 ≠ none → r.1.map (·.lexeme) <+: r'.1.map (·.lexeme)
  /-- Where one ends, a marker stands in the other. -/
  marker : r.2 = none → ∃ lexemes, r.1.map (·.lexeme) = lexemes ++ [.streamEnd] ∧
    lexemes ++ [.documentStart] <+: r'.1.map (·.lexeme)

theorem Precedes.fault (fault : Fault) (r : Reading) : Precedes ([], some fault) r :=
  ⟨fun _ => List.nil_prefix, fun h => by cases h⟩

theorem Precedes.append {l l' : List Token} {r r' : Reading}
    (h : l'.map (·.lexeme) = l.map (·.lexeme)) (hprecedes : Precedes r r') :
    Precedes (l ++ r.1, r.2) (l' ++ r'.1, r'.2) where
  begins hfault := by
    simp only [List.map_append, h]
    exact (List.prefix_append_right_inj _).2 (hprecedes.begins hfault)
  marker hnone := by
    obtain ⟨lexemes, heq, hmarker⟩ := hprecedes.marker hnone
    refine ⟨l.map (·.lexeme) ++ lexemes, by rw [List.map_append, heq, List.append_assoc], ?_⟩
    simp only [List.map_append, h, List.append_assoc]
    exact (List.prefix_append_right_inj _).2 hmarker

section Run

variable {s s' : Lexer}

/-- At the start of a line that follows the text no key can come any more. -/
theorem free_refreshed (hfair : s.Fair) (hcolumn : s.cursor.mark.column = 0) (c : Candidate) :
    ¬ s.refreshed.Knows c := by
  intro hc
  obtain ⟨hc, hfresh⟩ := knows_refreshed.1 hc
  have hline : lineStart s.cursor.mark = s.cursor.mark := if_pos hcolumn
  rw [← hline, isStale_lineStart (hfair.before c hc)] at hfresh
  cases hfresh

/-- The lexer at the marker, with all collections ended: first those within its column, then the
    rest. -/
def Lexer.closed (s : Lexer) : Lexer :=
  (s.refreshed.unroll (s.refreshed.cursor.mark.column + 1)).unroll 0

/-- The lexer behind the marker. -/
def Lexer.behindMarker (s : Lexer) : Lexer :=
  { { s.closed with candidate := none }.take .documentStart 3 with keyAllowed := false }

theorem narrows_closed (s : Lexer) : s.refreshed.Narrows s.closed :=
  (narrows_unroll _ _).trans (narrows_unroll _ _)

theorem free_behindMarker (hfair : s.Fair) (hcolumn : s.cursor.mark.column = 0) (c : Candidate) :
    ¬ s.behindMarker.Knows c := by
  intro hc
  refine free_refreshed hfair hcolumn c ((narrows_closed s).knows c ?_)
  rcases List.mem_cons.1 hc with hnone | hmem
  · cases hnone
  · exact List.mem_cons_of_mem _ hmem

/-- The marker ends the collections that the end of the text ends. -/
theorem lastLexemes_closed (s : Lexer) :
    s.lastLexemes = s.closed.pending.map (·.lexeme) ++ [.streamEnd] := by
  rw [← lastLexemes_refreshed, ← lastLexemes_unroll _ (s.refreshed.cursor.mark.column + 1),
    lastLexemes_eq]
  rfl

theorem lexemes_behindMarker (s : Lexer) : s.behindMarker.pending.map (·.lexeme)
    = s.closed.pending.map (·.lexeme) ++ [.documentStart] := by
  simp [behindMarker, take, push]

/-- At the start of a line the marker is read, unless a key must come. -/
theorem proceed_marker (hmarker : atDocumentStart s.cursor.rest = true) (hfair : s.Fair)
    (hcolumn : s.cursor.mark.column = 0) (hcalm : ¬ s.Awaits) : s.proceed = .ok s.behindMarker := by
  have hchoose : choose s.refreshed.inFlow s.refreshed.cursor.mark.column s.refreshed.cursor.rest
      = .marker .documentStart := by
    obtain ⟨rest, hrest⟩ := exists_of_atDocumentStart hmarker
    have hcursor : s.refreshed.cursor = s.cursor := rfl
    rw [hcursor, hcolumn]
    rw [hrest] at hmarker ⊢
    rw [choose, if_neg (by decide), if_pos ⟨rfl, hmarker⟩]
  -- At the start of a line no candidate is fresh, so none is dropped when the blocks are closed.
  have hcandidate : s.closed.candidate = none := by
    refine Option.eq_none_iff_forall_ne_some.2 fun c hc => ?_
    exact free_refreshed hfair hcolumn c ((narrows_closed s).knows c (List.mem_cons.2 (.inl hc.symm)))
  have hdrop : s.closed.dropCandidate = .ok { s.closed with candidate := none } := by
    rw [dropCandidate_eq, hcandidate]
    rfl
  rw [proceed, dropStale_of_not_awaits hcalm]
  show perform _ (choose _ _ _) = _
  rw [hchoose]
  show s.closed.dropCandidate >>= _ = _
  rw [hdrop]
  rfl

/-- Behind the marker all is given out that was held back. -/
theorem resume_free (hfree : ∀ c, ¬ s.Knows c) (hended : s.ended = false) (fuel : Nat) :
    s.pending <+: (s.resume fuel).1 := by
  have hcalm : ¬ s.Awaits := fun ⟨c, hc, _⟩ => hfree c hc
  have hrelease : s.refreshed.release.1 = s.pending := by
    rw [release, splitHeld_of_free fun c hc => hfree c (knows_refreshed.1 hc).1]
    rfl
  rw [resume_run (dropStale_of_not_awaits hcalm) hended, hrelease]
  exact List.prefix_append _ _

/-- At the end of the text the marker is read instead of the end of the stream. -/
theorem Frame.Around.precedes_end (hmarked : F.Marked) (h : F.Around s) (hrest : s.cursor.rest = [])
    (hcolumn : s.cursor.mark.column = 0) (n m : Nat) :
    Precedes (readOn n s.proceed) (readOn m (F.lexer s).proceed) := by
  obtain ⟨hkey, hcalm⟩ := readOn_end h.fair hrest n
  -- A key that must come is missed at the end of the text; otherwise all that is pending comes out.
  by_cases hawaits : s.Awaits
  · obtain ⟨fault, hfault⟩ := hkey hawaits
    rw [hfault]
    exact .fault fault _
  · obtain ⟨tokens, hread, hlexemes⟩ := hcalm hawaits
    have hawaits' : ¬ (F.lexer s).Awaits := by
      rintro ⟨c, hc, hrequired⟩
      obtain ⟨c', hc', rfl⟩ := knows_lexer.1 hc
      exact hawaits ⟨c', hc', hrequired⟩
    have hmarker : atDocumentStart (F.lexer s).cursor.rest = true := by
      rw [lexer_cursor, cursor_rest, hrest]
      exact hmarked
    have hended : (F.lexer s).behindMarker.ended = false :=
      (narrows_closed (F.lexer s)).same.2.trans h.ended
    rw [hread, proceed_marker hmarker (fair_lexer h.fair) hcolumn hawaits']
    refine ⟨fun hfault => absurd rfl hfault, fun _ =>
      ⟨(F.lexer s).closed.pending.map (·.lexeme), ?_, lexemes_behindMarker (F.lexer s) ▸ ?_⟩⟩
    · rw [hlexemes, ← lastLexemes_lexer (F := F), lastLexemes_closed]
    · exact (resume_free (free_behindMarker (fair_lexer h.fair) hcolumn) hended m).map _

/-- **A text of whole lines** has the same lexemes before a marker, up to the end of the stream. -/
theorem Frame.Around.run_marked (hmarked : F.Marked) {n m : Nat} (h : F.Around s)
    (hlined : F.Lined s.cursor) (hn : s.cursor.rest.length < n)
    (hm : (s.cursor.rest ++ F.behind).length < m) :
    Precedes (s.run n) ((F.lexer s).run m) := by
  -- The induction is on the lexemes that may still come; that whole lines are left carries it.
  induction n generalizing m s with
  | zero => cases hn
  | succ n ih =>
    obtain ⟨m, rfl⟩ := Nat.exists_eq_add_one_of_ne_zero (Nat.ne_zero_of_lt hm)
    obtain ⟨hskip, hlined⟩ := skipSpace_marked hmarked hlined h.clear
    have hskipped := h.narrows (narrows_skipSpace s)
    have hlength := (narrows_skipSpace s).moves.length_le
    rw [run_succ, run_succ, hskip]
    -- Either something of a line is left, or the marker is next.
    rcases hlined with hfits | ⟨hrest, hcolumn⟩
    · have hcarries := carries_proceed hmarked hfits
      cases hread : s.skipSpace.proceed with
      | error fault => exact .fault fault _
      | ok s' =>
        obtain ⟨hread', hlined⟩ := hcarries s' hread
        obtain ⟨haround, hshorter⟩ := hskipped.proceed (hmarked.ne_nil hfits) hread
        rw [hread']
        show Precedes (s'.resume n) ((F.lexer s').resume m)
        rcases haround.resume_cases n m with
          ⟨fault, -, hfault, -⟩ | ⟨s₁, -, haround₁, hcursor, hresume, hresume'⟩
        · rw [hfault]
          exact .fault fault _
        · rw [hresume, hresume']
          refine .append (map_token F _) (ih haround₁ (hcursor ▸ hlined) (by rw [hcursor]; omega) ?_)
          rw [hcursor]
          simp only [List.length_append] at hm ⊢
          omega
    · exact hskipped.precedes_end hmarked hrest hcolumn n m

end Run

/-! ### Whole texts -/

/-- **A document marker behind a text** of whole lines: the tokens of the text come before it. -/
theorem tokens_precedes {text behind : List Char} (hlast : text.getLast? = some '\n')
    (hmarker : atDocumentStart behind = true) (hbehind : behind.all isAllowed = true) :
    Precedes (Yaml.tokens text) (Yaml.tokens (text ++ behind)) := by
  rw [Yaml.tokens, Yaml.tokens, List.all_append, hbehind, Bool.and_true]
  split
  · let F : Frame := ⟨0, 0, behind⟩
    have haround : F.Around (Lexer.start text) :=
      ⟨.inr (.line hlast), fun _ _ => rfl, fair_start text, rfl⟩
    have hstart : Lexer.start (text ++ behind) = F.lexer (Lexer.start text) := rfl
    rw [hstart]
    exact haround.run_marked (show F.Marked from hmarker) (.inl (.line hlast)) (Nat.lt_succ_self _)
      (Nat.lt_succ_self _)
  · exact .fault _ _

end SecretFill.Yaml
