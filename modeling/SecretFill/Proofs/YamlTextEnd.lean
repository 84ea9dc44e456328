import SecretFill.Proofs.Framing

namespace SecretFill.Yaml

/-!
# The end of a YAML text

At the end of the text the lexer gives out the tokens that it held back, ends the collections that are
open and ends the stream, or it reports a fault if a key must come.

* `Lexer.Awaits` — a key must come; `Lexer.lastLexemes` — what is given out at the end.
* `Lexer.readOn_end`, `Lexer.run_end` — what is read at the end of the text.
* `Lexer.resume_awaits`, `Lexer.resume_calm` — the same behind a lexeme.
-/

open Cursor

namespace Lexer

/-! ### One lexeme after the other -/

/-- What is read behind a lexeme. -/
def resume (fuel : Nat) (s : Lexer) : List Token × Option Fault :=
  match s.dropStale with
  | .error fault => ([], some fault)
  | .ok s =>
    let (free, s) := s.release
    if s.ended then (free, none)
    else
      let (tokens, fault) := s.run fuel
      (free ++ tokens, fault)

theorem resume_ended {s s' : Lexer} (h : s.dropStale = .ok s') (hended : s'.ended = true)
    (fuel : Nat) : s.resume fuel = (s'.release.1, none) := by
  have hended' : s'.release.2.ended = true := hended
  rw [resume, h]
  show (if s'.release.2.ended then (s'.release.1, none) else _) = _
  rw [if_pos hended']

theorem resume_run {s s' : Lexer} (h : s.dropStale = .ok s') (hended : s'.ended = false)
    (fuel : Nat) : s.resume fuel
      = (s'.release.1 ++ (s'.release.2.run fuel).1, (s'.release.2.run fuel).2) := by
  have hended' : ¬ s'.release.2.ended = true := by
    rw [show s'.release.2.ended = s'.ended from rfl, hended]
    exact Bool.false_ne_true
  rw [resume, h]
  show (if s'.release.2.ended then (s'.release.1, none) else _) = _
  rw [if_neg hended']
  rfl

/-- What is read from a lexeme on. -/
def readOn (fuel : Nat) (x : Except Fault Lexer) : List Token × Option Fault :=
  match x with
  | .error fault => ([], some fault)
  | .ok s => s.resume fuel

theorem run_succ (fuel : Nat) (s : Lexer) :
    s.run (fuel + 1) = readOn fuel s.skipSpace.proceed := by
  rw [run, fetch_eq_proceed]
  cases s.skipSpace.proceed with
  | error fault => rfl
  | ok s =>
    show (match s.dropStale with | .error fault => _ | .ok s => _) = resume fuel s
    unfold resume
    cases s.dropStale <;> rfl

/-! ### Tokens that are held back -/

section Held

variable {s : Lexer} {c : Candidate} {number : Nat} {tokens : List Token}

theorem holds_iff : s.holds number = true ↔ ∃ c, s.Knows c ∧ c.number = number := by
  simp only [holds, Knows, List.any_eq_true]
  constructor
  · rintro ⟨o, ho, hnumber⟩
    cases o with
    | none => cases hnumber
    | some c => exact ⟨c, ho, by simpa using hnumber⟩
  · rintro ⟨c, hc, rfl⟩
    exact ⟨some c, hc, by simp⟩

theorem splitHeld_append : (s.splitHeld number tokens).1 ++ (s.splitHeld number tokens).2 = tokens := by
  induction tokens generalizing number with
  | nil => rfl
  | cons token tokens ih =>
    rw [splitHeld]
    split
    · rfl
    · exact congrArg (token :: ·) ih

/-- Without candidates no token is held back. -/
theorem splitHeld_of_free (h : ∀ c, ¬ s.Knows c) : s.splitHeld number tokens = (tokens, []) := by
  induction tokens generalizing number with
  | nil => rfl
  | cons token tokens ih =>
    have hfree : s.holds number = false := by
      rw [Bool.eq_false_iff, ne_eq, holds_iff]
      rintro ⟨c, hc, -⟩
      exact h c hc
    rw [splitHeld, hfree, ih]
    rfl

/-- The first candidate holds back its token and all behind it. -/
theorem splitHeld_of_first (hc : s.Knows c) (hfirst : ∀ c', s.Knows c' → c.number ≤ c'.number)
    (hnumber : number ≤ c.number) :
    (s.splitHeld number tokens).1 = tokens.take (c.number - number) := by
  induction tokens generalizing number with
  | nil => simp [splitHeld]
  | cons token tokens ih =>
    rw [splitHeld]
    by_cases hhere : c.number = number
    · rw [if_pos (holds_iff.2 ⟨c, hc, hhere⟩), hhere, Nat.sub_self, List.take_zero]
    · have hfree : ¬ s.holds number = true := by
        rw [holds_iff]
        rintro ⟨c', hc', rfl⟩
        exact hhere (Nat.le_antisymm (hfirst c' hc') hnumber)
      have hlt : number + 1 ≤ c.number := Nat.lt_of_le_of_ne hnumber (Ne.symm hhere)
      have htake : c.number - number = c.number - (number + 1) + 1 := by omega
      rw [if_neg hfree, htake, List.take_succ_cons, ← ih hlt]

theorem release_append : s.release.1 ++ s.release.2.pending = s.pending := splitHeld_append

theorem release_nextNumber : s.release.2.nextNumber = s.nextNumber := by
  have hlength := congrArg List.length (release_append (s := s))
  rw [List.length_append] at hlength
  show s.released + s.release.1.length + s.release.2.pending.length = _
  rw [nextNumber]
  omega

/-- A token is given out before all that may begin a key. -/
theorem splitHeld_le (hc : s.Knows c) (hnumber : number ≤ c.number) :
    number + (s.splitHeld number tokens).1.length ≤ c.number := by
  induction tokens generalizing number with
  | nil => simpa [splitHeld] using hnumber
  | cons token tokens ih =>
    rw [splitHeld]
    split
    · simpa using hnumber
    · rename_i hfree
      have hne : c.number ≠ number := fun hhere => hfree (holds_iff.2 ⟨c, hc, hhere⟩)
      have hih := ih (show number + 1 ≤ c.number by omega)
      simp only [List.length_cons]
      omega

theorem Fair.release (h : s.Fair) : s.release.2.Fair where
  before := h.before
  number c hc := by
    obtain ⟨hreleased, hnumber⟩ := h.number c hc
    exact ⟨splitHeld_le hc hreleased, by rwa [release_nextNumber]⟩
  first := h.first

end Held

/-! ### At the end of a text -/

section End

variable {s s' : Lexer} {c : Candidate}

/-- A key must come. -/
def Awaits (s : Lexer) : Prop := ∃ c, s.Knows c ∧ c.required = true

theorem Narrows.awaits (h : s.Narrows s') (hawaits : s'.Awaits) : s.Awaits := by
  obtain ⟨c, hc, hrequired⟩ := hawaits
  exact ⟨c, h.knows c hc, hrequired⟩

theorem dropStale_of_not_awaits (h : ¬ s.Awaits) : s.dropStale = .ok s.refreshed := by
  rw [dropStale_eq, if_neg]
  rw [List.any_eq_true]
  rintro ⟨o, ho, hlost⟩
  cases o with
  | none => cases hlost
  | some c => exact h ⟨c, ho, (Bool.and_eq_true _ _ ▸ hlost : _ ∧ _).2⟩

theorem awaits_of_dropStale (h : s.dropStale = .ok s') (hawaits : s.Awaits) : s'.Awaits := by
  obtain ⟨c, hc, hrequired⟩ := hawaits
  obtain ⟨rfl, hlost⟩ := dropStale_eq_ok h
  refine ⟨c, knows_refreshed.2 ⟨hc, ?_⟩, hrequired⟩
  simpa [isLost, hrequired] using hlost c hc

/-- The lexemes that are left at the end of the text: those held back, the ends of collections, and
    the end of the stream. -/
def lastLexemes (s : Lexer) : List Lexeme :=
  s.pending.map (·.lexeme) ++
    (List.replicate (if s.inFlow then 0 else (leave 0 s.margin s.outerMargins).1) .blockEnd ++
      [.streamEnd])

theorem leave_leave (target margin : Nat) (outer : List Nat) :
    (leave target margin outer).1 +
      (leave 0 (leave target margin outer).2.1 (leave target margin outer).2.2).1
      = (leave 0 margin outer).1 := by
  induction outer generalizing margin with
  | nil => rfl
  | cons inner outer ih =>
    by_cases hlt : target < margin
    · have hpos : 0 < margin := Nat.zero_lt_of_lt hlt
      simp only [leave, if_pos hlt, if_pos hpos, ← ih inner]
      exact Nat.add_right_comm _ _ _
    · simp only [leave, if_neg hlt, Nat.zero_add]

theorem lastLexemes_refreshed (s : Lexer) : s.refreshed.lastLexemes = s.lastLexemes := by
  have hflow : s.refreshed.inFlow = s.inFlow := by
    simp [inFlow, refreshed]
  rw [lastLexemes, hflow]
  rfl

/-- Collections that end before the end of the text are not left over. -/
theorem lastLexemes_unroll (s : Lexer) (target : Nat) :
    (s.unroll target).lastLexemes = s.lastLexemes := by
  have hflow : (s.unroll target).inFlow = s.inFlow := by
    rw [unroll_eq]
    rfl
  rw [lastLexemes, lastLexemes, hflow]
  cases hinFlow : s.inFlow with
  | true => simp [unroll, hinFlow]
  | false =>
    have hblocks := leave_leave target s.margin s.outerMargins
    simp only [unroll, hinFlow, Bool.false_eq_true, if_false, List.map_append, List.map_replicate,
      List.append_assoc, List.append_cancel_left_eq]
    rw [← List.append_assoc, List.replicate_append_replicate]
    exact congrArg (List.replicate · Lexeme.blockEnd ++ [.streamEnd]) hblocks

/-- All collections end with the text. -/
theorem lastLexemes_eq (s : Lexer) :
    s.lastLexemes = (s.unroll 0).pending.map (·.lexeme) ++ [.streamEnd] := by
  cases hinFlow : s.inFlow with
  | true => simp [lastLexemes, unroll, hinFlow]
  | false => simp [lastLexemes, unroll, hinFlow]

/-- The start of the line that follows the text, unless a line starts there already. -/
def lineStart (mark : Mark) : Mark := if mark.column = 0 then mark else mark.nextLine 0

/-- The lexer at the end of the text, with all collections ended. -/
def unrolled (s : Lexer) : Lexer :=
  { s with cursor := { s.cursor with mark := lineStart s.cursor.mark } }.unroll 0

/-- The lexer behind the end of the text. -/
def finished (s : Lexer) : Lexer := { s.unrolled with
  candidate := none
  pending := s.unrolled.pending ++ [⟨.streamEnd, lineStart s.cursor.mark⟩]
  keyAllowed := false
  ended := true }

theorem fetchEnd_eq (s : Lexer) : s.fetchEnd =
    if s.candidate.any (·.required) then .error (.here (lineStart s.cursor.mark))
    else .ok s.finished := by
  have hcandidate : s.unrolled.candidate = s.candidate := by
    rw [unrolled, unroll_eq]
  have hmark : s.unrolled.cursor.mark = lineStart s.cursor.mark := by
    rw [unrolled, unroll_eq]
  show (s.unrolled.dropCandidate >>= fun s₁ => .ok
    { s₁.push .streamEnd (lineStart s.cursor.mark) with keyAllowed := false, ended := true }) = _
  rw [dropCandidate_eq, hcandidate, hmark]
  split <;> rfl

theorem knows_finished : s.finished.Knows c ↔ some c ∈ s.outerCandidates := by
  have houter : s.unrolled.outerCandidates = s.outerCandidates := by
    rw [unrolled, unroll_eq]
  simp [Knows, finished, houter]

theorem lexemes_finished (s : Lexer) : s.finished.pending.map (·.lexeme) = s.lastLexemes := by
  have hmoved : s.lastLexemes = { s with
      cursor := { s.cursor with mark := lineStart s.cursor.mark } }.lastLexemes := rfl
  rw [hmoved, lastLexemes_eq, finished, unrolled, List.map_append]
  rfl

/-- At the end of the text no key can come any more. -/
theorem isStale_lineStart {now : Mark} (h : c.mark.Before now) : isStale (lineStart now) c = true := by
  have hline : c.mark.line < (lineStart now).line := by
    unfold lineStart
    rcases h with hline | ⟨hline, hcolumn⟩
    · split
      · exact hline
      · exact Nat.lt_succ_of_lt hline
    · rw [if_neg (by omega)]
      exact Nat.lt_succ_of_le (Nat.le_of_eq hline)
  simp [isStale, hline]

theorem readOn_fetchEnd (hbefore : ∀ c, s.Knows c → c.mark.Before s.cursor.mark) (fuel : Nat) :
    (s.Awaits → ∃ fault, readOn fuel s.fetchEnd = ([], some fault)) ∧
    (¬ s.Awaits → readOn fuel s.fetchEnd = (s.finished.pending, none)) := by
  have hmark : s.finished.cursor.mark = lineStart s.cursor.mark := by
    rw [finished, unrolled, unroll_eq]
  have hknows : ∀ c, s.finished.Knows c → s.Knows c := fun c hc =>
    List.mem_cons_of_mem _ (knows_finished.1 hc)
  have hstale : ∀ c, s.Knows c → isStale s.finished.cursor.mark c = true := fun c hc =>
    hmark ▸ isStale_lineStart (hbefore c hc)
  rw [fetchEnd_eq]
  -- At the start of the line behind the text every candidate is too far back.
  constructor
  · rintro ⟨c, hc, hrequired⟩
    split
    · exact ⟨_, rfl⟩
    · rename_i hinner
      have houter : s.finished.Knows c := by
        refine knows_finished.2 ((List.mem_cons.1 hc).resolve_left fun heq => hinner ?_)
        rw [← heq]
        exact hrequired
      have hlost : s.finished.dropStale = .error (.here s.finished.cursor.mark) := by
        rw [dropStale_eq, if_pos]
        refine List.any_eq_true.2 ⟨some c, houter, ?_⟩
        simp [isLost, hrequired, hstale c hc]
      exact ⟨_, by rw [readOn, resume, hlost]⟩
  · intro hcalm
    have hinner : ¬ s.candidate.any (·.required) = true := by
      intro hinner
      obtain ⟨c, hc, hrequired⟩ := (Option.any_eq_true _ _).1 hinner
      exact hcalm ⟨c, List.mem_cons.2 (.inl hc.symm), hrequired⟩
    have hcalm' : ¬ s.finished.Awaits := by
      rintro ⟨c, hc, hrequired⟩
      exact hcalm ⟨c, hknows c hc, hrequired⟩
    -- Nothing is held back any more, since all candidates are stale and none is required.
    have hfree : ∀ c, ¬ s.finished.refreshed.Knows c := by
      intro c hc
      obtain ⟨hc, hfresh⟩ := knows_refreshed.1 hc
      rw [hstale c (hknows c hc)] at hfresh
      cases hfresh
    rw [if_neg hinner, readOn, resume_ended (dropStale_of_not_awaits hcalm') rfl, release,
      splitHeld_of_free hfree]
    rfl

/-- **The end of a text:** it is a fault if a key must come, and otherwise all that was held back
    is given out. -/
theorem readOn_end (hfair : s.Fair) (hrest : s.cursor.rest = []) (fuel : Nat) :
    (s.Awaits → ∃ fault, readOn fuel s.proceed = ([], some fault)) ∧
    (¬ s.Awaits → ∃ tokens, readOn fuel s.proceed = (tokens, none) ∧
      tokens.map (·.lexeme) = s.lastLexemes) := by
  cases hdrop : s.dropStale with
  | error fault =>
    refine ⟨fun _ => ⟨fault, by rw [proceed, hdrop]; rfl⟩, fun hcalm => ?_⟩
    rw [dropStale_of_not_awaits hcalm] at hdrop
    cases hdrop
  | ok s₁ =>
    obtain ⟨rfl, -⟩ := dropStale_eq_ok hdrop
    have hunroll := narrows_unroll s.refreshed (s.refreshed.cursor.mark.column + 1)
    have hknows : ∀ c, (s.refreshed.unroll (s.refreshed.cursor.mark.column + 1)).Knows c ↔
        s.refreshed.Knows c := by
      intro c
      rw [unroll_eq]
      rfl
    -- The end is chosen, because nothing is left of the text.
    have hfinish : s.proceed
        = (s.refreshed.unroll (s.refreshed.cursor.mark.column + 1)).fetchEnd := by
      have hrest' : s.refreshed.cursor.rest = [] := hrest
      rw [proceed, hdrop]
      show perform _ (choose _ _ s.refreshed.cursor.rest) = _
      rw [hrest']
      rfl
    obtain ⟨hkey, hcalm⟩ := readOn_fetchEnd
      ((hfair.narrows (narrows_refreshed s)).narrows hunroll).before fuel
    rw [hfinish]
    constructor
    · intro hawaits
      obtain ⟨c, hc, hrequired⟩ := awaits_of_dropStale hdrop hawaits
      exact hkey ⟨c, (hknows c).2 hc, hrequired⟩
    · intro hnone
      refine ⟨_, hcalm fun hawaits => hnone ((narrows_refreshed s).awaits (hunroll.awaits hawaits)),
        ?_⟩
      rw [lexemes_finished, lastLexemes_unroll, lastLexemes_refreshed]

/-- No token begins with a tab. -/
theorem readOn_tab (hhead : s.cursor.rest.head? = some '\t') (fuel : Nat) :
    ∃ fault, readOn fuel s.proceed = ([], some fault) := by
  obtain ⟨cs, hcs⟩ := List.head?_eq_some_iff.1 hhead
  rw [proceed, dropStale_eq]
  split
  · exact ⟨_, rfl⟩
  · have hchoice : ∀ flow column, choose flow column ('\t' :: cs) = .fault := by
      intro flow column
      simp [choose, chooseSign, chooseNode, beginsPlain, atDocumentStart, atDocumentEnd, isGap,
        isIndicator]
    show ∃ fault, readOn fuel (perform _ (choose _ _ s.cursor.rest)) = ([], some fault)
    rw [hcs, hchoice]
    exact ⟨_, rfl⟩

/-- **The end of a text** behind white space and comments, or a tab where no token may begin. -/
theorem run_end (hfair : s.Fair)
    (hend : s.skipSpace.cursor.rest = [] ∨ s.skipSpace.cursor.rest.head? = some '\t') (fuel : Nat) :
    ((∃ fault, s.run (fuel + 1) = ([], some fault)) ∧
      (s.skipSpace.cursor.rest = [] → s.Awaits)) ∨
    (¬ s.Awaits ∧ ∃ tokens, s.run (fuel + 1) = (tokens, none) ∧
      tokens.map (·.lexeme) = s.lastLexemes) := by
  rw [run_succ]
  rcases hend with hrest | hhead
  · obtain ⟨hkey, hcalm⟩ := readOn_end (hfair.narrows (narrows_skipSpace s)) hrest fuel
    by_cases hawaits : s.Awaits
    · exact .inl ⟨hkey hawaits, fun _ => hawaits⟩
    · exact .inr ⟨hawaits, hcalm hawaits⟩
  · refine .inl ⟨readOn_tab hhead fuel, fun hrest => ?_⟩
    rw [hrest] at hhead
    cases hhead

theorem lastLexemes_release (s : Lexer) :
    s.release.1.map (·.lexeme) ++ s.release.2.lastLexemes = s.lastLexemes := by
  have hflow : s.release.2.inFlow = s.inFlow := rfl
  rw [lastLexemes, lastLexemes, hflow, ← List.append_assoc, ← List.map_append, release_append]
  rfl

/-- White space ends at the end of the text or at a tab that may not stand there. -/
theorem skipFrom_white {flow keyAllowed comment : Bool} {cs : List Char} {m : Mark}
    (h : ∀ d ∈ cs, isWhite d = true) :
    (skipFrom flow keyAllowed comment cs m).2.rest = [] ∨
      (skipFrom flow keyAllowed comment cs m).2.rest.head? = some '\t' := by
  fun_induction skipFrom flow keyAllowed comment cs m with
  | case1 => exact .inl rfl
  | case2 keyAllowed comment rest m ih => exact ih fun d hd => h d (by simp [hd])
  | case3 keyAllowed comment c rest m hcrlf hbreak ih => exact ih fun d hd => h d (by simp [hd])
  | case4 keyAllowed c rest m hcrlf hbreak ih => exact ih fun d hd => h d (by simp [hd])
  | case5 keyAllowed comment c rest m hcrlf hbreak hcomment hhash ih =>
    exact ih fun d hd => h d (by simp [hd])
  | case6 keyAllowed comment c rest m hcrlf hbreak hcomment hhash hskip ih =>
    exact ih fun d hd => h d (by simp [hd])
  -- What is not skipped is a gap, and no space: a tab where a key may begin.
  | case7 keyAllowed comment c rest m hcrlf hbreak hcomment hhash hskip =>
    have hgap : isGap c = true := (isGap_or_isBreak (h _ List.mem_cons_self)).resolve_right hbreak
    simp only [isGap, Bool.or_eq_true, beq_iff_eq] at hgap
    rcases hgap with rfl | rfl
    · exact absurd (by simp) hskip
    · exact .inr rfl

theorem skipSpace_white (hwhite : ∀ d ∈ s.cursor.rest, isWhite d = true) :
    s.skipSpace.cursor.rest = [] ∨ s.skipSpace.cursor.rest.head? = some '\t' :=
  skipFrom_white hwhite

/-- What is read behind a lexeme, with nothing but white space left, when a key must come. -/
theorem resume_awaits (hfair : s.Fair) (hended : s.ended = false)
    (hwhite : ∀ d ∈ s.cursor.rest, isWhite d = true) (hdrop : s.dropStale = .ok s')
    (hc : s.Knows c) (hrequired : c.required = true) (fuel : Nat) :
    ∃ fault, s.resume (fuel + 1) = (s.pending.take (c.number - s.released), some fault) := by
  obtain ⟨rfl, hfresh⟩ := dropStale_eq_ok hdrop
  have hfair' := hfair.narrows (narrows_refreshed s)
  have hc' : s.refreshed.Knows c :=
    knows_refreshed.2 ⟨hc, by simpa [isLost, hrequired] using hfresh c hc⟩
  have hfree : s.refreshed.release.1 = s.pending.take (c.number - s.released) :=
    splitHeld_of_first hc' (hfair'.first c hc' hrequired) (hfair'.number c hc').1
  rw [resume_run hdrop hended, hfree]
  rcases run_end hfair'.release (skipSpace_white hwhite) fuel with ⟨⟨fault, hrun⟩, -⟩ | ⟨hcalm, -⟩
  · exact ⟨fault, by rw [hrun, List.append_nil]⟩
  · exact (hcalm ⟨c, hc', hrequired⟩).elim

/-- What is read behind a lexeme, with nothing but white space left, when no key must come. -/
theorem resume_calm (hfair : s.Fair) (hended : s.ended = false)
    (hwhite : ∀ d ∈ s.cursor.rest, isWhite d = true) (hcalm : ¬ s.Awaits) (fuel : Nat) :
    ∃ tokens fault, s.resume (fuel + 1) = (tokens, fault) ∧
      tokens.map (·.lexeme) <+: s.lastLexemes ∧
      (fault = none ∨ s.cursor.rest = [] →
        fault = none ∧ tokens.map (·.lexeme) = s.lastLexemes) := by
  have hcalm' : ¬ s.refreshed.Awaits := fun hawaits =>
    hcalm ((narrows_refreshed s).awaits hawaits)
  have hlast : s.refreshed.release.1.map (·.lexeme) ++ s.refreshed.release.2.lastLexemes
      = s.lastLexemes := by
    rw [lastLexemes_release, lastLexemes_refreshed]
  rw [resume_run (dropStale_of_not_awaits hcalm) hended]
  refine ⟨_, _, rfl, ?_⟩
  -- Behind the white space stands the end of the text, or a tab that is a fault.
  rcases run_end (hfair.narrows (narrows_refreshed s)).release (skipSpace_white hwhite) fuel with
    ⟨⟨fault, hrun⟩, hkey⟩ | ⟨-, tokens, hrun, hlexemes⟩
  · rw [hrun, List.append_nil]
    refine ⟨⟨_, hlast⟩, ?_⟩
    rintro (hnone | hrest)
    · cases hnone
    · have hskip : s.refreshed.release.2.skipSpace.cursor.rest = [] := by
        have hrest' : s.refreshed.release.2.cursor.rest = [] := hrest
        rw [skipSpace, hrest']
        rfl
      exact (hcalm' (hkey hskip)).elim
  · rw [hrun, List.map_append, hlexemes, hlast]
    exact ⟨List.prefix_refl _, fun _ => ⟨rfl, rfl⟩⟩

end End

end Lexer

end SecretFill.Yaml
