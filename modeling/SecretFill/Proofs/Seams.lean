import SecretFill.Proofs.Frames

namespace SecretFill.Yaml

/-!
# Readers of several lines

A scalar and the white space between tokens may go over several lines.  Where such a reader ends within
the text, it comes to the same in a frame; otherwise it stands at the end of the text, with what it has
read so far, and goes on from there.

* `Frame.Goes` — these are the two ways a recursion over characters may go in a frame.
* `goes_plainFrom`, `goes_singleFrom`, `goes_doubleFrom`, `goes_blockFrom` — the scalars.
* `skipFrom_frame` — the white space between tokens.
-/

open Cursor SecretFill.Yaml.Frame

/-- A recursion over characters comes to in the frame what it comes to over the text alone.  Or it
    comes to the end of the text, and goes on with the text behind. -/
inductive Frame.Goes {α σ : Type} (F : Frame) (out : α → α) (state : σ → σ)
    (go : σ → List Char → Mark → Except Fault α) : Except Fault α → Except Fault α → Prop where
  /-- It finds a fault. -/
  | error {fault fault' : Fault} : Goes F out state go (.error fault) (.error fault')
  /-- It ends within the text. -/
  | ok {a : α} : Goes F out state go (.ok a) (.ok (out a))
  /-- It comes to the end of the text. -/
  | across (s : σ) (m : Mark) :
    Goes F out state go (go s [] m) (go (state s) F.behind (F.mark m))

variable {F : Frame} {c : Char} {cs : List Char} {m : Mark}

/-! ### Plain scalars -/

section Plain

variable {flow : Bool} {margin : Nat} {read : List Char} {spacing : Spacing}

theorem plainFrom_cons (h : ∀ cs', c = '\r' → cs = '\n' :: cs' → False) :
    plainFrom flow margin read spacing (c :: cs) m =
      if isBreak c then plainFrom flow margin read (spacing.lineBreak c) cs (m.nextLine 1)
      else if isGap c then
        if spacing.isAcross && c == '\t' && m.column < margin then .error (.here m)
        else plainFrom flow margin read (spacing.gap c) cs m.next
      else if !spacing.isEmpty && endsAfterSpacing flow margin (c :: cs) m then
        .ok ⟨read.reverse, ⟨c :: cs, m⟩, spacing.isAcross⟩
      else if flow && isMisplacedColon (c :: cs) then .error (.here m)
      else if endsWord flow (c :: cs) then .ok ⟨read.reverse, ⟨c :: cs, m⟩, spacing.isAcross⟩
      else plainFrom flow margin (c :: (spacing.text ++ read)) .empty cs m.next := by
  rw [plainFrom]
  exact h

theorem Frame.Fits.endsAfterSpacing (h : F.Fits (c :: cs)) :
    endsAfterSpacing flow margin (c :: cs ++ F.behind) (F.mark m)
      = endsAfterSpacing flow margin (c :: cs) m := by
  rw [Yaml.endsAfterSpacing, h.atDocumentMarker]
  rfl

theorem Frame.Fits.isMisplacedColon (h : F.Fits (c :: cs)) :
    isMisplacedColon (c :: cs ++ F.behind) = isMisplacedColon (c :: cs) := by
  by_cases hc : c = ':'
  · subst hc
    cases cs with
    | cons => rfl
    | nil =>
      cases hbehind : F.behind with
      | nil => rfl
      | cons d z =>
        have hd := (h.next (by decide)).behind_white d (by simp [hbehind])
        simp only [isWhite, isGap, isBreak, Bool.or_eq_true, beq_iff_eq] at hd
        rcases hd with (rfl | rfl) | ((((rfl | rfl) | rfl) | rfl) | rfl) <;> rfl
  · simp [Yaml.isMisplacedColon, hc]

theorem Frame.Fits.endsWord (h : F.Fits (c :: cs)) :
    endsWord flow (c :: cs ++ F.behind) = endsWord flow (c :: cs) := by
  by_cases hc : c = ':'
  · subst hc
    exact (h.next (by decide)).atSeparation
  · simp [Yaml.endsWord]

/-- A plain scalar in a frame. -/
def Frame.plain (F : Frame) (p : PlainScalar) : PlainScalar := { p with after := F.cursor p.after }

/-- A step of the recursion in the frame, with the tests it makes of the text alone. -/
theorem Frame.Fits.plainFrom_cons (h : F.Fits (c :: cs))
    (hcrlf : ∀ cs', c = '\r' → cs = '\n' :: cs' → False) :
    plainFrom flow margin read spacing (c :: cs ++ F.behind) (F.mark m) =
      if isBreak c then
        plainFrom flow margin read (spacing.lineBreak c) (cs ++ F.behind) (F.mark (m.nextLine 1))
      else if isGap c then
        if spacing.isAcross && c == '\t' && m.column < margin then .error (.here (F.mark m))
        else plainFrom flow margin read (spacing.gap c) (cs ++ F.behind) (F.mark m.next)
      else if !spacing.isEmpty && Yaml.endsAfterSpacing flow margin (c :: cs) m then
        .ok (F.plain ⟨read.reverse, ⟨c :: cs, m⟩, spacing.isAcross⟩)
      else if flow && Yaml.isMisplacedColon (c :: cs) then .error (.here (F.mark m))
      else if Yaml.endsWord flow (c :: cs) then
        .ok (F.plain ⟨read.reverse, ⟨c :: cs, m⟩, spacing.isAcross⟩)
      else plainFrom flow margin (c :: (spacing.text ++ read)) .empty (cs ++ F.behind)
        (F.mark m.next) := by
  rw [← h.endsAfterSpacing, ← h.isMisplacedColon, ← h.endsWord, List.cons_append,
    Yaml.plainFrom_cons (h.not_crlf hcrlf), mark_nextLine, mark_next]
  rfl

theorem goes_plainFrom (h : cs = [] ∨ F.Fits cs) :
    F.Goes F.plain id (fun s : List Char × Spacing => plainFrom flow margin s.1 s.2)
      (plainFrom flow margin read spacing cs m)
      (plainFrom flow margin read spacing (cs ++ F.behind) (F.mark m)) := by
  fun_induction plainFrom flow margin read spacing cs m with
  -- The text ends within the scalar, which goes on in the text behind.
  | case1 read spacing m => exact .across (read, spacing) m
  -- A line break of two characters is no other one, since the text does not end between them.
  | case2 read spacing rest m ih =>
    have hfits := h.resolve_left (List.cons_ne_nil _ _)
    simp only [List.cons_append, plainFrom, ← mark_nextLine]
    exact ih (hfits.next (by decide)).tail
  | case3 read spacing c rest m hcrlf hbreak ih =>
    have hfits := h.resolve_left (List.cons_ne_nil _ _)
    rw [hfits.plainFrom_cons hcrlf, if_pos hbreak]
    exact ih hfits.tail
  | case4 read spacing c rest m hcrlf hbreak hgap htab =>
    have hfits := h.resolve_left (List.cons_ne_nil _ _)
    rw [hfits.plainFrom_cons hcrlf, if_neg hbreak, if_pos hgap, if_pos htab]
    exact .error
  | case5 read spacing c rest m hcrlf hbreak hgap htab ih =>
    have hfits := h.resolve_left (List.cons_ne_nil _ _)
    rw [hfits.plainFrom_cons hcrlf, if_neg hbreak, if_pos hgap, if_neg htab]
    exact ih hfits.tail
  | case6 read spacing c rest m hcrlf hbreak hgap hends =>
    have hfits := h.resolve_left (List.cons_ne_nil _ _)
    rw [hfits.plainFrom_cons hcrlf, if_neg hbreak, if_neg hgap, if_pos hends]
    exact .ok
  | case7 read spacing c rest m hcrlf hbreak hgap hends hcolon =>
    have hfits := h.resolve_left (List.cons_ne_nil _ _)
    rw [hfits.plainFrom_cons hcrlf, if_neg hbreak, if_neg hgap, if_neg hends, if_pos hcolon]
    exact .error
  | case8 read spacing c rest m hcrlf hbreak hgap hends hcolon hword =>
    have hfits := h.resolve_left (List.cons_ne_nil _ _)
    rw [hfits.plainFrom_cons hcrlf, if_neg hbreak, if_neg hgap, if_neg hends, if_neg hcolon,
      if_pos hword]
    exact .ok
  | case9 read spacing c rest m hcrlf hbreak hgap hends hcolon hword ih =>
    have hfits := h.resolve_left (List.cons_ne_nil _ _)
    rw [hfits.plainFrom_cons hcrlf, if_neg hbreak, if_neg hgap, if_neg hends, if_neg hcolon,
      if_neg hword]
    exact ih hfits.tail

end Plain

/-- The outcome of a reader in a frame. -/
def Frame.outcome {α : Type} (F : Frame) (out : α × Cursor) : α × Cursor := (out.1, F.cursor out.2)

/-! ### Quoted scalars -/

section Quoted

variable {read : List Char} {spacing : Spacing} {state : QuoteState}

theorem singleFrom_cons (h : ∀ cs', c = '\r' → cs = '\n' :: cs' → False) :
    singleFrom read spacing (c :: cs) m =
      if isBreak c then singleFrom read (spacing.lineBreak c) cs (m.nextLine 1)
      else if isGap c then singleFrom read (spacing.gap c) cs m.next
      else if m.column = 0 ∧ atDocumentMarker (c :: cs) then .error (.here m)
      else if c = '\'' then
        if cs.head? = some '\'' then
          singleFrom ('\'' :: (spacing.text ++ read)) .empty (cs.drop 1) (m.skip 2)
        else .ok ((spacing.text ++ read).reverse, ⟨cs, m.next⟩)
      else singleFrom (c :: (spacing.text ++ read)) .empty cs m.next := by
  rw [singleFrom]
  · cases cs with
    | nil => rfl
    | cons d cs =>
      by_cases hd : d = '\''
      · subst hd
        rfl
      · rw [if_neg (by simpa using hd : (d :: cs).head? ≠ some '\'')]
        simp [hd]
  · exact h

/-- A step of the recursion in the frame, with the tests it makes of the text alone. -/
theorem Frame.Fits.singleFrom_cons (h : F.Fits (c :: cs))
    (hcrlf : ∀ cs', c = '\r' → cs = '\n' :: cs' → False) :
    singleFrom read spacing (c :: cs ++ F.behind) (F.mark m) =
      if isBreak c then singleFrom read (spacing.lineBreak c) (cs ++ F.behind) (F.mark (m.nextLine 1))
      else if isGap c then singleFrom read (spacing.gap c) (cs ++ F.behind) (F.mark m.next)
      else if m.column = 0 ∧ Yaml.atDocumentMarker (c :: cs) then .error (.here (F.mark m))
      else if c = '\'' then
        if cs.head? = some '\'' then
          singleFrom ('\'' :: (spacing.text ++ read)) .empty (cs.drop 1 ++ F.behind)
            (F.mark (m.skip 2))
        else .ok (F.outcome ((spacing.text ++ read).reverse, ⟨cs, m.next⟩))
      else singleFrom (c :: (spacing.text ++ read)) .empty (cs ++ F.behind) (F.mark m.next) := by
  rw [← h.atDocumentMarker, List.cons_append,
    Yaml.singleFrom_cons (h.not_crlf hcrlf)]
  by_cases hc : c = '\''
  · subst hc
    have hcs : F.Fits cs := h.next (by decide)
    by_cases hquote : cs.head? = some '\''
    · obtain ⟨cs, rfl⟩ := List.head?_eq_some_iff.1 hquote
      simp
    · rw [if_neg hquote, if_neg (hquote ∘ (hcs.head? rfl).1)]
      simp [outcome, cursor]
  · simp [hc]

theorem goes_singleFrom (h : cs = [] ∨ F.Fits cs) :
    F.Goes F.outcome id (fun s : List Char × Spacing => singleFrom s.1 s.2)
      (singleFrom read spacing cs m) (singleFrom read spacing (cs ++ F.behind) (F.mark m)) := by
  fun_induction singleFrom read spacing cs m with
  | case1 read spacing m => exact .across (read, spacing) m
  | case2 read spacing rest m ih =>
    have hfits := h.resolve_left (List.cons_ne_nil _ _)
    simp only [List.cons_append, singleFrom, ← mark_nextLine]
    exact ih (hfits.next (by decide)).tail
  | case3 read spacing c rest m hcrlf hbreak ih =>
    have hfits := h.resolve_left (List.cons_ne_nil _ _)
    rw [hfits.singleFrom_cons hcrlf, if_pos hbreak]
    exact ih hfits.tail
  | case4 read spacing c rest m hcrlf hbreak hgap ih =>
    have hfits := h.resolve_left (List.cons_ne_nil _ _)
    rw [hfits.singleFrom_cons hcrlf, if_neg hbreak, if_pos hgap]
    exact ih hfits.tail
  | case5 read spacing c rest m hcrlf hbreak hgap hmarker =>
    have hfits := h.resolve_left (List.cons_ne_nil _ _)
    rw [hfits.singleFrom_cons hcrlf, if_neg hbreak, if_neg hgap, if_pos hmarker]
    exact .error
  -- Two quotes in a row stand for one; the text does not end between them either.
  | case6 read spacing m read' rest hbreak hgap hcrlf hmarker ih =>
    have hfits := h.resolve_left (List.cons_ne_nil _ _)
    rw [hfits.singleFrom_cons hcrlf, if_neg hbreak, if_neg hgap, if_neg hmarker, if_pos rfl,
      if_pos (List.head?_cons)]
    exact ih (hfits.next (by decide)).tail
  | case7 read spacing m read' rest hquote hbreak hgap hcrlf hmarker =>
    have hfits := h.resolve_left (List.cons_ne_nil _ _)
    have hhead : rest.head? ≠ some '\'' := fun hhead =>
      (List.head?_eq_some_iff.1 hhead).elim hquote
    rw [hfits.singleFrom_cons hcrlf, if_neg hbreak, if_neg hgap, if_neg hmarker, if_pos rfl,
      if_neg hhead]
    exact .ok
  | case8 read spacing c rest m hcrlf hbreak hgap hmarker read' hquote ih =>
    have hfits := h.resolve_left (List.cons_ne_nil _ _)
    rw [hfits.singleFrom_cons hcrlf, if_neg hbreak, if_neg hgap, if_neg hmarker, if_neg hquote]
    exact ih hfits.tail

theorem doubleFrom_text_cons (h : ∀ cs', c = '\r' → cs = '\n' :: cs' → False) :
    doubleFrom read (.text spacing) (c :: cs) m =
      if isBreak c then doubleFrom read (.text (spacing.lineBreak c)) cs (m.nextLine 1)
      else if isGap c then doubleFrom read (.text (spacing.gap c)) cs m.next
      else if m.column = 0 ∧ atDocumentMarker (c :: cs) then .error (.here m)
      else if c = '"' then .ok ((spacing.text ++ read).reverse, ⟨cs, m.next⟩)
      else if c = '\\' then doubleFrom (spacing.text ++ read) (.escape m) cs m.next
      else doubleFrom (c :: (spacing.text ++ read)) (.text .empty) cs m.next := by
  rw [doubleFrom]
  exact h

/-- A step of the recursion in the frame, with the tests it makes of the text alone. -/
theorem Frame.Fits.doubleFrom_text_cons (h : F.Fits (c :: cs))
    (hcrlf : ∀ cs', c = '\r' → cs = '\n' :: cs' → False) :
    doubleFrom read (.text spacing) (c :: cs ++ F.behind) (F.mark m) =
      if isBreak c then
        doubleFrom read (.text (spacing.lineBreak c)) (cs ++ F.behind) (F.mark (m.nextLine 1))
      else if isGap c then
        doubleFrom read (.text (spacing.gap c)) (cs ++ F.behind) (F.mark m.next)
      else if m.column = 0 ∧ Yaml.atDocumentMarker (c :: cs) then .error (.here (F.mark m))
      else if c = '"' then .ok (F.outcome ((spacing.text ++ read).reverse, ⟨cs, m.next⟩))
      else if c = '\\' then
        doubleFrom (spacing.text ++ read) (.escape (F.mark m)) (cs ++ F.behind) (F.mark m.next)
      else doubleFrom (c :: (spacing.text ++ read)) (.text .empty) (cs ++ F.behind)
        (F.mark m.next) := by
  rw [← h.atDocumentMarker, List.cons_append,
    Yaml.doubleFrom_text_cons (h.not_crlf hcrlf)]
  simp [outcome, cursor]

theorem doubleFrom_escape_cons {backslash : Mark}
    (h : ∀ cs', c = '\r' → cs = '\n' :: cs' → False) :
    doubleFrom read (.escape backslash) (c :: cs) m =
      if isBreak c then doubleFrom read (.text (.across none [])) cs (m.nextLine 1)
      else
        match escape? c with
        | some (.stands d) => doubleFrom (d :: read) (.text .empty) cs m.next
        | some (.code digits) => doubleFrom read (.code m.next digits 0) cs m.next
        | none => .error (.here backslash) :=
  doubleFrom.eq_7 read m c cs backslash h

theorem doubleFrom_code_cons {start : Mark} {left value : Nat} :
    doubleFrom read (.code start left value) (c :: cs) m =
      match hexValue? c with
      | none => .error (.here start)
      | some digit =>
        if left ≤ 1 then
          match scalarValue? (value * 16 + digit) with
          | some d => doubleFrom (d :: read) (.text .empty) cs m.next
          | none => .error (.here start)
        else doubleFrom read (.code start (left - 1) (value * 16 + digit)) cs m.next :=
  doubleFrom.eq_8 read m c cs start left value

/-- Where a reader of double quotes stands, seen in the frame. -/
def Frame.quote (F : Frame) : QuoteState → QuoteState
  | .text spacing => .text spacing
  | .escape backslash => .escape (F.mark backslash)
  | .code start left value => .code (F.mark start) left value

theorem goes_doubleFrom (h : cs = [] ∨ F.Fits cs) :
    F.Goes F.outcome (Prod.map id F.quote)
      (fun s : List Char × QuoteState => doubleFrom s.1 s.2)
      (doubleFrom read state cs m)
      (doubleFrom read (F.quote state) (cs ++ F.behind) (F.mark m)) := by
  fun_induction doubleFrom read state cs m with
  -- The text ends in the scalar, behind a backslash or within a coded character.
  | case1 read m spacing => exact .across (read, QuoteState.text spacing) m
  | case2 read m backslash => exact .across (read, QuoteState.escape backslash) m
  | case3 read m start left value => exact .across (read, QuoteState.code start left value) m
  -- Text between the quotes.
  | case4 read m spacing rest ih =>
    have hfits := h.resolve_left (List.cons_ne_nil _ _)
    simp only [quote, List.cons_append, doubleFrom, ← mark_nextLine]
    exact ih (hfits.next (by decide)).tail
  | case5 read m spacing c rest hcrlf hbreak ih =>
    have hfits := h.resolve_left (List.cons_ne_nil _ _)
    rw [quote, hfits.doubleFrom_text_cons hcrlf, if_pos hbreak]
    exact ih hfits.tail
  | case6 read m spacing c rest hcrlf hbreak hgap ih =>
    have hfits := h.resolve_left (List.cons_ne_nil _ _)
    rw [quote, hfits.doubleFrom_text_cons hcrlf, if_neg hbreak, if_pos hgap]
    exact ih hfits.tail
  | case7 read m spacing c rest hcrlf hbreak hgap hmarker =>
    have hfits := h.resolve_left (List.cons_ne_nil _ _)
    rw [quote, hfits.doubleFrom_text_cons hcrlf, if_neg hbreak, if_neg hgap, if_pos hmarker]
    exact .error
  | case8 read m spacing rest read' hcrlf hbreak hgap hmarker =>
    have hfits := h.resolve_left (List.cons_ne_nil _ _)
    rw [quote, hfits.doubleFrom_text_cons hcrlf, if_neg hbreak, if_neg hgap, if_neg hmarker,
      if_pos rfl]
    exact .ok
  | case9 read m spacing rest read' hcrlf hbreak hgap hmarker hquote ih =>
    have hfits := h.resolve_left (List.cons_ne_nil _ _)
    rw [quote, hfits.doubleFrom_text_cons hcrlf, if_neg hbreak, if_neg hgap, if_neg hmarker,
      if_neg hquote, if_pos rfl]
    exact ih hfits.tail
  | case10 read m spacing c rest hcrlf hbreak hgap hmarker read' hquote hslash ih =>
    have hfits := h.resolve_left (List.cons_ne_nil _ _)
    rw [quote, hfits.doubleFrom_text_cons hcrlf, if_neg hbreak, if_neg hgap, if_neg hmarker,
      if_neg hquote, if_neg hslash]
    exact ih hfits.tail
  -- Behind a backslash: a break that is left out, or what stands for a character.
  | case11 read m backslash rest ih =>
    have hfits := h.resolve_left (List.cons_ne_nil _ _)
    simp only [quote, List.cons_append, doubleFrom, ← mark_nextLine]
    exact ih (hfits.next (by decide)).tail
  | case12 read m backslash c rest hcrlf hbreak ih =>
    have hfits := h.resolve_left (List.cons_ne_nil _ _)
    rw [quote, List.cons_append, doubleFrom_escape_cons (hfits.not_crlf hcrlf),
      if_pos hbreak, ← mark_nextLine]
    exact ih hfits.tail
  | case13 read m backslash c rest hcrlf hbreak d hstands ih =>
    have hfits := h.resolve_left (List.cons_ne_nil _ _)
    rw [quote, List.cons_append, doubleFrom_escape_cons (hfits.not_crlf hcrlf),
      if_neg hbreak, hstands, ← mark_next]
    exact ih hfits.tail
  | case14 read m backslash c rest hcrlf hbreak digits hcode ih =>
    have hfits := h.resolve_left (List.cons_ne_nil _ _)
    rw [quote, List.cons_append, doubleFrom_escape_cons (hfits.not_crlf hcrlf),
      if_neg hbreak, hcode, ← mark_next]
    exact ih hfits.tail
  | case15 read m backslash c rest hcrlf hbreak hnone =>
    have hfits := h.resolve_left (List.cons_ne_nil _ _)
    rw [quote, List.cons_append, doubleFrom_escape_cons (hfits.not_crlf hcrlf),
      if_neg hbreak, hnone]
    exact .error
  -- The digits of a coded character.
  | case16 read m c rest start left value hhex =>
    rw [quote, List.cons_append, doubleFrom_code_cons, hhex]
    exact .error
  | case17 read m c rest start left value digit hhex value' hleft d hvalue ih =>
    have hfits := h.resolve_left (List.cons_ne_nil _ _)
    have hvalue : scalarValue? (value * 16 + digit) = some d := hvalue
    rw [quote, List.cons_append, doubleFrom_code_cons, hhex]
    simp only [if_pos hleft, hvalue, ← mark_next]
    exact ih hfits.tail
  | case18 read m c rest start left value digit hhex value' hleft hvalue =>
    have hvalue : scalarValue? (value * 16 + digit) = none := hvalue
    rw [quote, List.cons_append, doubleFrom_code_cons, hhex]
    simp only [if_pos hleft, hvalue]
    exact .error
  | case19 read m c rest start left value digit hhex value' hleft ih =>
    have hfits := h.resolve_left (List.cons_ne_nil _ _)
    rw [quote, List.cons_append, doubleFrom_code_cons, hhex]
    simp only [if_neg hleft, ← mark_next]
    exact ih hfits.tail

end Quoted

/-! ### Block scalars -/

section Block

variable {folded : Bool} {chomping : Chomping} {margin : Nat} {b : BlockText} {state : BlockState}

theorem blockFrom_line_cons {indentation : Nat}
    (h : ∀ cs', c = '\r' → cs = '\n' :: cs' → False) :
    blockFrom folded chomping margin b (.line indentation) (c :: cs) m =
      if isBreak c then
        blockFrom folded chomping margin { b with lastBreak := some (breakValue c) }
          (.indent (some indentation) 0) cs (m.nextLine 1)
      else
        blockFrom folded chomping margin { b with read := c :: b.read } (.line indentation) cs
          m.next := by
  rw [blockFrom]
  exact h

theorem blockFrom_indent_cons {known : Option Nat} {widest : Nat}
    (h : ∀ cs', c = '\r' → cs = '\n' :: cs' → False) :
    blockFrom folded chomping margin b (.indent known widest) (c :: cs) m =
      if isBreak c then
        blockFrom folded chomping margin { b with emptyLines := breakValue c :: b.emptyLines }
          (.indent known (max widest m.column)) cs (m.nextLine 1)
      else if (known.all fun n => m.column < n) && c == ' ' then
        blockFrom folded chomping margin b (.indent known (max widest m.column)) cs m.next
      else if (known.all fun n => m.column < n) && c == '\t' then .error (.here m)
      else if m.column = known.getD (max (max (max widest m.column) margin) 1) then
        blockFrom folded chomping margin
          { b.beginLine folded (isGap c) with read := c :: (b.beginLine folded (isGap c)).read }
          (.line (known.getD (max (max (max widest m.column) margin) 1))) cs m.next
      else .ok (b.finish chomping, ⟨c :: cs, m⟩) := by
  rw [blockFrom]
  exact h

theorem goes_blockFrom (h : cs = [] ∨ F.Fits cs) :
    F.Goes F.outcome id (fun s : BlockText × BlockState => blockFrom folded chomping margin s.1 s.2)
      (blockFrom folded chomping margin b state cs m)
      (blockFrom folded chomping margin b state (cs ++ F.behind) (F.mark m)) := by
  fun_induction blockFrom folded chomping margin b state cs m with
  -- The text ends within the scalar, which goes on in the text behind.
  | case1 b state m => exact .across (b, state) m
  -- Within a line.
  | case2 b m indentation rest ih =>
    have hfits := h.resolve_left (List.cons_ne_nil _ _)
    simp only [List.cons_append, blockFrom, ← mark_nextLine]
    exact ih (hfits.next (by decide)).tail
  | case3 b m indentation c rest hcrlf hbreak ih =>
    have hfits := h.resolve_left (List.cons_ne_nil _ _)
    rw [List.cons_append, blockFrom_line_cons (hfits.not_crlf hcrlf), if_pos hbreak,
      ← mark_nextLine]
    exact ih hfits.tail
  | case4 b m indentation c rest hcrlf hbreak ih =>
    have hfits := h.resolve_left (List.cons_ne_nil _ _)
    rw [List.cons_append, blockFrom_line_cons (hfits.not_crlf hcrlf), if_neg hbreak, ← mark_next]
    exact ih hfits.tail
  -- Before the first character of a line.
  | case5 b m known widest widest' rest ih =>
    have hfits := h.resolve_left (List.cons_ne_nil _ _)
    simp only [List.cons_append, blockFrom, ← mark_nextLine, mark_column]
    exact ih (hfits.next (by decide)).tail
  | case6 b m known widest widest' c rest hcrlf hbreak ih =>
    have hfits := h.resolve_left (List.cons_ne_nil _ _)
    rw [List.cons_append, blockFrom_indent_cons (hfits.not_crlf hcrlf), if_pos hbreak,
      ← mark_nextLine]
    exact ih hfits.tail
  | case7 b m known widest outside widest' c rest hcrlf hbreak hspace ih =>
    have hfits := h.resolve_left (List.cons_ne_nil _ _)
    simp only [outside] at hspace
    rw [List.cons_append, blockFrom_indent_cons (hfits.not_crlf hcrlf), mark_column, if_neg hbreak,
      if_pos hspace, ← mark_next]
    exact ih hfits.tail
  | case8 b m known widest outside c rest hcrlf hbreak hspace htab =>
    have hfits := h.resolve_left (List.cons_ne_nil _ _)
    simp only [outside] at hspace htab
    rw [List.cons_append, blockFrom_indent_cons (hfits.not_crlf hcrlf), mark_column, if_neg hbreak,
      if_neg hspace, if_pos htab]
    exact .error
  | case9 b m known widest outside widest' c rest hcrlf hbreak hspace htab indentation hcolumn b'
      ih =>
    have hfits := h.resolve_left (List.cons_ne_nil _ _)
    simp only [outside] at hspace htab
    rw [List.cons_append, blockFrom_indent_cons (hfits.not_crlf hcrlf), mark_column, if_neg hbreak,
      if_neg hspace, if_neg htab, if_pos hcolumn, ← mark_next]
    exact ih hfits.tail
  | case10 b m known widest outside widest' c rest hcrlf hbreak hspace htab indentation hcolumn =>
    have hfits := h.resolve_left (List.cons_ne_nil _ _)
    simp only [outside] at hspace htab
    rw [List.cons_append, blockFrom_indent_cons (hfits.not_crlf hcrlf), mark_column, if_neg hbreak,
      if_neg hspace, if_neg htab, if_neg hcolumn]
    exact .ok

end Block

/-! ### White space between tokens -/

section Skip

variable {flow keyAllowed comment : Bool}

theorem skipFrom_cons (h : ∀ cs', c = '\r' → cs = '\n' :: cs' → False) :
    Lexer.skipFrom flow keyAllowed comment (c :: cs) m =
      if isBreak c then Lexer.skipFrom flow (keyAllowed || !flow) false cs (m.nextLine 1)
      else if comment then Lexer.skipFrom flow keyAllowed true cs m.next
      else if c == '#' then Lexer.skipFrom flow keyAllowed true cs m.next
      else if c == ' ' || (c == '\t' && (flow || !keyAllowed))
          || (c == byteOrderMark && m.index == 0) then
        Lexer.skipFrom flow keyAllowed false cs m.next
      else (keyAllowed, ⟨c :: cs, m⟩) := by
  rw [Lexer.skipFrom]
  exact h

/-- The frame does not move a byte order mark away from the start of a text. -/
def Frame.Clear (F : Frame) (c : Cursor) : Prop :=
  c.rest.head? = some byteOrderMark → c.mark.index = 0 → F.index = 0

theorem Frame.clear_of_pos (h : 0 < m.index) : F.Clear ⟨cs, m⟩ :=
  fun _ hindex => absurd hindex (Nat.ne_of_gt h)

theorem Frame.Clear.atMark (h : F.Clear ⟨c :: cs, m⟩) :
    (c == byteOrderMark && (F.mark m).index == 0) = (c == byteOrderMark && m.index == 0) := by
  rw [Bool.eq_iff_iff]
  simp only [Bool.and_eq_true, beq_iff_eq]
  refine and_congr_right fun hc => ⟨fun hindex => ?_, fun hindex => ?_⟩
  · exact (Nat.add_eq_zero_iff.1 hindex).1
  · exact Nat.add_eq_zero_iff.2 ⟨hindex, h (by simp [hc]) hindex⟩

/-- The lexer skips in the frame what it skips without, or comes to the end of the text, and goes on
    in the text behind. -/
theorem skipFrom_frame (h : cs = [] ∨ F.Fits cs) (hclear : F.Clear ⟨cs, m⟩) {out : Bool × Cursor}
    (hout : Lexer.skipFrom flow keyAllowed comment cs m = out) :
    (out.2.rest ≠ [] ∧ Lexer.skipFrom flow keyAllowed comment (cs ++ F.behind) (F.mark m)
      = F.outcome out) ∨
    (out.2.rest = [] ∧ ∃ comment', Lexer.skipFrom flow keyAllowed comment (cs ++ F.behind) (F.mark m)
      = Lexer.skipFrom flow out.1 comment' F.behind (F.mark out.2.mark)) := by
  subst hout
  fun_induction Lexer.skipFrom flow keyAllowed comment cs m with
  | case1 keyAllowed comment m => exact .inr ⟨rfl, comment, rfl⟩
  | case2 keyAllowed comment rest m ih =>
    have hfits := h.resolve_left (List.cons_ne_nil _ _)
    simp only [List.cons_append, Lexer.skipFrom, ← mark_nextLine]
    exact ih (hfits.next (by decide)).tail (clear_of_pos (Nat.succ_pos _))
  | case3 keyAllowed comment c rest m hcrlf hbreak ih =>
    have hfits := h.resolve_left (List.cons_ne_nil _ _)
    rw [List.cons_append, skipFrom_cons (hfits.not_crlf hcrlf), if_pos hbreak, ← mark_nextLine]
    exact ih hfits.tail (clear_of_pos (Nat.succ_pos _))
  | case4 keyAllowed c rest m hcrlf hbreak ih =>
    have hfits := h.resolve_left (List.cons_ne_nil _ _)
    rw [List.cons_append, skipFrom_cons (hfits.not_crlf hcrlf), if_neg hbreak, if_pos rfl,
      ← mark_next]
    exact ih hfits.tail (clear_of_pos (Nat.succ_pos _))
  | case5 keyAllowed comment c rest m hcrlf hbreak hcomment hhash ih =>
    have hfits := h.resolve_left (List.cons_ne_nil _ _)
    rw [List.cons_append, skipFrom_cons (hfits.not_crlf hcrlf), if_neg hbreak, if_neg hcomment,
      if_pos hhash, ← mark_next]
    exact ih hfits.tail (clear_of_pos (Nat.succ_pos _))
  -- Here the position counts: a byte order mark is skipped at the start of a text only.
  | case6 keyAllowed comment c rest m hcrlf hbreak hcomment hhash hskip ih =>
    have hfits := h.resolve_left (List.cons_ne_nil _ _)
    rw [List.cons_append, skipFrom_cons (hfits.not_crlf hcrlf), if_neg hbreak, if_neg hcomment,
      if_neg hhash, hclear.atMark, if_pos hskip, ← mark_next]
    exact ih hfits.tail (clear_of_pos (Nat.succ_pos _))
  | case7 keyAllowed comment c rest m hcrlf hbreak hcomment hhash hskip =>
    have hfits := h.resolve_left (List.cons_ne_nil _ _)
    rw [List.cons_append, skipFrom_cons (hfits.not_crlf hcrlf), if_neg hbreak, if_neg hcomment,
      if_neg hhash, hclear.atMark, if_neg hskip]
    exact .inl ⟨List.cons_ne_nil _ _, rfl⟩

end Skip

end SecretFill.Yaml
