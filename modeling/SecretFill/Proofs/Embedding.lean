import SecretFill.Proofs.YamlTextEnd
import SecretFill.Proofs.Positions

namespace SecretFill.Yaml

/-!
# A text within a text

White space before and behind a text does not change its tokens, positions apart, if whole lines stand
before it and no block scalar at its end takes in what stands behind it.

* `Agrees` — the lexemes of one reading begin those of another.
* `Frame.Around` — what holds of a lexer that reads a text in a frame; `Frame.Around.run` — it reads the
  same.
* `closingBlocks` — how the block scalars at the end of a text treat its line breaks.
* `tokens_agrees` — the tokens of a text with white space around it.
-/

open Cursor Lexer SecretFill.Yaml.Frame

/-! ### The same lexemes -/

/-- The lexemes of one reading begin those of another; those of a reading without a fault are all
    of them. -/
structure Agrees (r r' : Reading) : Prop where
  /-- The lexemes of one begin those of the other. -/
  begins : r.1.map (·.lexeme) <+: r'.1.map (·.lexeme)
  /-- Without a fault they are all. -/
  whole : r.2 = none → r'.2 = none ∧ r.1.map (·.lexeme) = r'.1.map (·.lexeme)

theorem Agrees.fault (fault : Fault) (r : Reading) : Agrees ([], some fault) r :=
  ⟨List.nil_prefix, fun h => by cases h⟩

theorem Agrees.append {l l' : List Token} {r r' : Reading}
    (h : l.map (·.lexeme) = l'.map (·.lexeme)) (hagrees : Agrees r r') :
    Agrees (l ++ r.1, r.2) (l' ++ r'.1, r'.2) where
  begins := by
    simp only [List.map_append, h]
    exact (List.prefix_append_right_inj _).2 hagrees.begins
  whole hnone := by
    obtain ⟨hnone', heq⟩ := hagrees.whole hnone
    exact ⟨hnone', by simp only [List.map_append, h, heq]⟩

theorem begins_of_prefix {tokens others : List Token}
    (h : tokens.map (·.lexeme) <+: others.map (·.lexeme)) : Begins false tokens others := by
  induction tokens generalizing others with
  | nil => exact .cut rfl
  | cons token tokens ih =>
    cases others with
    | nil => cases List.prefix_nil.1 h
    | cons other others =>
      obtain ⟨heq, hrest⟩ := List.cons_prefix_cons.1 h
      obtain ⟨lexeme, mark⟩ := token
      obtain ⟨lexeme', mark'⟩ := other
      obtain rfl : lexeme = lexeme' := heq
      exact .cons (ih hrest)

theorem Agrees.tells {r r' : Reading} (h : Agrees r r') : Tells r r' := by
  cases hfault : r.2 with
  | none =>
    obtain ⟨hnone, heq⟩ := h.whole hfault
    exact .inl ⟨hfault, hnone, begins_of_lexemes heq⟩
  | some fault => exact .inr ⟨by simp [hfault], begins_of_prefix h.begins⟩

/-! ### Behind the end of the text -/

section Beyond

variable {F : Frame} {s r : Lexer} {c : Candidate}

theorem knows_lexer : (F.lexer s).Knows c ↔ ∃ c', s.Knows c' ∧ F.candidate c' = c := by
  simp only [Knows, Frame.lexer, List.mem_cons, List.mem_map]
  constructor
  · rintro (h | ⟨o, ho, h⟩)
    · obtain ⟨c', hc', rfl⟩ := Option.map_eq_some_iff.1 h.symm
      exact ⟨c', .inl hc'.symm, rfl⟩
    · obtain ⟨c', rfl, rfl⟩ := Option.map_eq_some_iff.1 h
      exact ⟨c', .inr ho, rfl⟩
  · rintro ⟨c', h | h, rfl⟩
    · exact .inl (by rw [← h]; rfl)
    · exact .inr ⟨some c', h, rfl⟩

theorem Frame.before_mark {m m' : Mark} (h : m.Before m') : (F.mark m).Before (F.mark m') := by
  simp only [Mark.Before, Frame.mark] at h ⊢
  omega

theorem fair_lexer (h : s.Fair) : (F.lexer s).Fair where
  before c hc := by
    obtain ⟨c', hc', rfl⟩ := knows_lexer.1 hc
    exact before_mark (h.before c' hc')
  number c hc := by
    obtain ⟨c', hc', rfl⟩ := knows_lexer.1 hc
    rw [lexer_nextNumber]
    exact h.number c' hc'
  first c hc hrequired d hd := by
    obtain ⟨c', hc', rfl⟩ := knows_lexer.1 hc
    obtain ⟨d', hd', rfl⟩ := knows_lexer.1 hd
    exact h.first c' hc' hrequired d' hd'

theorem map_token (F : Frame) (tokens : List Token) :
    (tokens.map F.token).map (·.lexeme) = tokens.map (·.lexeme) := by
  rw [List.map_map]
  rfl

theorem lastLexemes_lexer (s : Lexer) : (F.lexer s).lastLexemes = s.lastLexemes := by
  rw [lastLexemes, lastLexemes, lexer_inFlow, ← map_token F s.pending]
  rfl

theorem Frame.Beyond.fair (h : F.Beyond s r) (hfair : s.Fair) : r.Fair := by
  obtain ⟨cursor, keyAllowed, rfl, hmoves⟩ := h
  exact (fair_lexer hfair).narrows (narrows_move hmoves keyAllowed)

theorem Frame.Beyond.knows (h : F.Beyond s r) :
    r.Knows c ↔ ∃ c', s.Knows c' ∧ F.candidate c' = c := by
  obtain ⟨cursor, keyAllowed, rfl, hmoves⟩ := h
  exact knows_lexer

theorem Frame.Beyond.awaits (h : F.Beyond s r) : r.Awaits ↔ s.Awaits := by
  constructor
  · rintro ⟨c, hc, hrequired⟩
    obtain ⟨c', hc', rfl⟩ := h.knows.1 hc
    exact ⟨c', hc', hrequired⟩
  · rintro ⟨c, hc, hrequired⟩
    exact ⟨F.candidate c, h.knows.2 ⟨c, hc, rfl⟩, hrequired⟩

theorem Frame.Beyond.lastLexemes (h : F.Beyond s r) : r.lastLexemes = s.lastLexemes := by
  obtain ⟨cursor, keyAllowed, rfl, hmoves⟩ := h
  exact lastLexemes_lexer s

/-- What is too far back stays so. -/
theorem isStale_moves {now later : Cursor} (h : now.Moves later) (hstale : isStale now.mark c = true) :
    isStale later.mark c = true := by
  have hline : now.mark.line ≤ later.mark.line := by
    rcases h.eq_or_before with rfl | ⟨-, hbefore⟩
    · exact Nat.le_refl _
    · simp only [Mark.Before] at hbefore
      omega
  have hindex := h.index_le
  simp only [isStale, Bool.or_eq_true, decide_eq_true_eq] at hstale ⊢
  omega

theorem Frame.Beyond.dropStale (h : F.Beyond s r) {r' : Lexer} (hr : r.dropStale = .ok r') :
    s.dropStale = .ok s.refreshed := by
  obtain ⟨rfl, hfresh⟩ := dropStale_eq_ok hr
  rw [dropStale_eq, if_neg]
  rw [List.any_eq_true]
  rintro ⟨o, ho, hlost⟩
  cases o with
  | none => cases hlost
  | some c =>
    obtain ⟨hstale, hrequired⟩ : isStale s.cursor.mark c = true ∧ c.required = true :=
      Bool.and_eq_true _ _ ▸ hlost
    have hstale' : isStale r.cursor.mark (F.candidate c) = true := by
      obtain ⟨cursor, keyAllowed, rfl, hmoves⟩ := h
      exact isStale_moves hmoves ((isStale_candidate _ _).trans hstale)
    have hnot := hfresh (F.candidate c) (h.knows.2 ⟨c, ho, rfl⟩)
    simp [isLost, hstale', show (F.candidate c).required = true from hrequired] at hnot

/-- **Behind the end of the text** the reading agrees with that of the text. -/
theorem Frame.Beyond.resume (h : F.Beyond s r) (hwhite : ∀ d ∈ F.behind, isWhite d = true)
    (hfair : s.Fair) (hrest : s.cursor.rest = []) (hended : s.ended = false) (n m : Nat) :
    Agrees (r.resume (m + 1)) (s.resume (n + 1)) := by
  have hfair' := h.fair hfair
  have hended' : r.ended = false := by
    obtain ⟨cursor, keyAllowed, rfl, hmoves⟩ := h
    exact hended
  have hwhite' : ∀ d ∈ r.cursor.rest, isWhite d = true := by
    obtain ⟨cursor, keyAllowed, rfl, hmoves⟩ := h
    intro d hd
    have hmem := hmoves.suffix.subset hd
    rw [cursor_rest, hrest] at hmem
    exact hwhite d hmem
  -- A key that has to come is missed in both readings, behind the same tokens.
  by_cases hawaits : s.Awaits
  · cases hdrop : r.dropStale with
    | error fault =>
      have hfault : r.resume (m + 1) = ([], some fault) := by rw [Lexer.resume, hdrop]
      rw [hfault]
      exact .fault fault _
    | ok r' =>
      obtain ⟨c, hc, hrequired⟩ := hawaits
      obtain ⟨fault, hread⟩ := resume_awaits hfair hended (by simp [hrest])
        (h.dropStale hdrop) hc hrequired n
      obtain ⟨fault', hread'⟩ := resume_awaits hfair' hended' hwhite' hdrop
        (h.knows.2 ⟨c, hc, rfl⟩) hrequired m
      rw [hread, hread']
      refine ⟨?_, fun hnone => by cases hnone⟩
      obtain ⟨cursor, keyAllowed, rfl, hmoves⟩ := h
      show (List.take _ (s.pending.map F.token)).map _ <+: _
      rw [← List.map_take, map_token]
      exact List.prefix_refl _
  · obtain ⟨tokens, fault, hread, hprefix, hall⟩ :=
      resume_calm hfair' hended' hwhite' (fun hr => hawaits (h.awaits.1 hr)) m
    obtain ⟨tokens', fault', hread', -, hall'⟩ :=
      resume_calm hfair hended (by simp [hrest]) hawaits n
    obtain ⟨rfl, hlexemes⟩ := hall' (.inr hrest)
    rw [hread, hread']
    refine ⟨by rw [hlexemes, ← h.lastLexemes]; exact hprefix, fun hnone => ⟨rfl, ?_⟩⟩
    rw [hlexemes, ← h.lastLexemes]
    exact (hall (.inl hnone)).2

end Beyond

/-! ### One lexeme after the other -/

/-- How the block scalar at the cursor, if one stands there that reaches the end of the text, treats
    its final line breaks. -/
def Lexer.blockHere (s : Lexer) : Option Chomping :=
  match choose s.inFlow s.cursor.mark.column s.cursor.rest with
  | .block folded => blockEnd folded (s.unroll (s.cursor.mark.column + 1)).margin (s.cursor.skip 1)
  | _ => none

/-- The same for all block scalars from here on; only the last one can reach the end. -/
def Lexer.lastBlocks : Nat → Lexer → List Chomping
  | 0, _ => []
  | fuel + 1, s =>
    s.skipSpace.blockHere.toList ++
      match s.fetch >>= dropStale with
      | .error _ => []
      | .ok s => lastBlocks fuel s.release.2

section Run

variable {F : Frame} {s s' : Lexer}

theorem skipSpace_frame (h : s.cursor.rest = [] ∨ F.Fits s.cursor.rest) (hclear : F.Clear s.cursor)
    (hwhite : ∀ d ∈ F.behind, isWhite d = true) :
    (s.skipSpace.cursor.rest ≠ [] ∧ (F.lexer s).skipSpace = F.lexer s.skipSpace) ∨
    (s.skipSpace.cursor.rest = [] ∧ ((F.lexer s).skipSpace.cursor.rest = [] ∨
      (F.lexer s).skipSpace.cursor.rest.head? = some '\t')) := by
  have hskip : (F.lexer s).skipSpace = { F.lexer s with
      keyAllowed := (skipFrom s.inFlow s.keyAllowed false (s.cursor.rest ++ F.behind)
        (F.mark s.cursor.mark)).1
      cursor := (skipFrom s.inFlow s.keyAllowed false (s.cursor.rest ++ F.behind)
        (F.mark s.cursor.mark)).2 } := by
    rw [skipSpace, lexer_inFlow]
    rfl
  have hout : skipFrom s.inFlow s.keyAllowed false s.cursor.rest s.cursor.mark
      = (s.skipSpace.keyAllowed, s.skipSpace.cursor) := rfl
  rcases skipFrom_frame h hclear hout with ⟨hrest, hframe⟩ | ⟨hrest, comment, hframe⟩
  · exact .inl ⟨hrest, by rw [hskip, hframe]; rfl⟩
  · refine .inr ⟨hrest, ?_⟩
    rw [hskip, hframe]
    exact skipFrom_white hwhite

theorem blockHere_refreshed (s : Lexer) : s.refreshed.blockHere = s.blockHere := by
  have hflow : s.refreshed.inFlow = s.inFlow := by simp [inFlow, refreshed]
  have hmargin : ∀ target, (s.refreshed.unroll target).margin = (s.unroll target).margin := by
    intro target
    unfold unroll
    rw [hflow]
    split <;> rfl
  rw [blockHere, hflow, hmargin]
  rfl

theorem follows_proceed (hwhite : ∀ d ∈ F.behind, isWhite d = true) (h : F.Fits s.cursor.rest)
    (hne : s.cursor.rest ≠ []) (hharmless : F.Harmless s.blockHere) :
    F.Follows s.proceed (F.lexer s).proceed := by
  refine (mirrors_dropStale s).bind fun s₁ hdrop => ?_
  obtain ⟨rfl, -⟩ := dropStale_eq_ok hdrop
  rw [← blockHere_refreshed] at hharmless
  have hcursor : s.refreshed.cursor = s.cursor := rfl
  rw [lexer_unroll, lexer_inFlow, lexer_cursor, cursor_rest, hcursor, h.choose hne]
  refine follows_perform hwhite ?_ ?_ ?_ ?_
  · rw [unroll_cursor]
    exact h
  · rw [unroll_cursor]
    exact hne
  · rw [unroll_eq]
    exact suits_choose
  · unfold blockHere at hharmless
    rw [hcursor] at hharmless
    generalize choose s.refreshed.inFlow s.cursor.mark.column s.cursor.rest = choice
      at hharmless ⊢
    cases choice with
    | block folded =>
      have hcursor' : (s.refreshed.unroll (s.cursor.mark.column + 1)).cursor = s.cursor :=
        unroll_cursor _ _
      rw [Admits, hcursor']
      exact hharmless
    | _ => trivial

/-- A lexeme is read from a state that the white space and the margins before it leave. -/
theorem passes_proceed (hne : s.cursor.rest ≠ []) (h : s.proceed = .ok s') :
    ∃ s₂, s.Narrows s₂ ∧ s₂.cursor = s.cursor ∧ s₂.Passes s' := by
  obtain ⟨s₁, hdrop, h⟩ := Json.exists_of_bind h
  obtain ⟨rfl, -⟩ := dropStale_eq_ok hdrop
  have hcursor : ∀ target, (s.refreshed.unroll target).cursor = s.cursor := fun target =>
    unroll_cursor _ target
  have hflow : ∀ target, (s.refreshed.unroll target).inFlow = s.refreshed.inFlow := by
    intro target
    rw [unroll_eq]
    rfl
  refine ⟨_, (narrows_refreshed s).trans (narrows_unroll _ _), hcursor _, perform_passes ?_ ?_ h⟩
  · rw [hcursor]
    exact hne
  · rw [hcursor, hflow]
    exact suits_choose

theorem holds_lexer (s : Lexer) (number : Nat) : (F.lexer s).holds number = s.holds number := by
  rw [Bool.eq_iff_iff, holds_iff, holds_iff]
  constructor
  · rintro ⟨c, hc, rfl⟩
    obtain ⟨c', hc', rfl⟩ := knows_lexer.1 hc
    exact ⟨c', hc', rfl⟩
  · rintro ⟨c, hc, rfl⟩
    exact ⟨F.candidate c, knows_lexer.2 ⟨c, hc, rfl⟩, rfl⟩

theorem splitHeld_lexer (s : Lexer) (number : Nat) (tokens : List Token) :
    (F.lexer s).splitHeld number (tokens.map F.token)
      = ((s.splitHeld number tokens).1.map F.token, (s.splitHeld number tokens).2.map F.token) := by
  induction tokens generalizing number with
  | nil => rfl
  | cons token tokens ih =>
    rw [List.map_cons, splitHeld, splitHeld, holds_lexer, ih]
    split <;> rfl

theorem release_lexer (s : Lexer) :
    (F.lexer s).release = (s.release.1.map F.token, F.lexer s.release.2) := by
  have hsplit := splitHeld_lexer (F := F) s s.released s.pending
  rw [release, show (F.lexer s).pending = s.pending.map F.token from rfl,
    show (F.lexer s).released = s.released from rfl, hsplit]
  simp [Frame.lexer, release]

/-- What holds of a lexer that reads a text in a frame. -/
structure Frame.Around (F : Frame) (s : Lexer) : Prop where
  /-- The text behind does not go on with the last word. -/
  fits : s.cursor.rest = [] ∨ F.Fits s.cursor.rest
  /-- A byte order mark stands at the start of both texts or of none. -/
  clear : F.Clear s.cursor
  /-- The candidates stand before the cursor. -/
  fair : s.Fair
  /-- The end was not read. -/
  ended : s.ended = false

theorem Frame.Around.moves (h : F.Around s) (hmoves : s.cursor.Moves s'.cursor) (hfair : s'.Fair)
    (hended : s'.ended = s.ended) : F.Around s' where
  fits := by
    by_cases hrest : s'.cursor.rest = []
    · exact .inl hrest
    · have hne : s.cursor.rest ≠ [] := fun hnil =>
        hrest (List.suffix_nil.1 (hnil ▸ hmoves.suffix))
      exact .inr ((h.fits.resolve_left hne).suffix hmoves.suffix hrest)
  clear := by
    rcases hmoves.eq_or_before with heq | ⟨hshorter, -⟩
    · rw [heq]
      exact h.clear
    · have hindex := hmoves.index
      have hpos : 0 < s'.cursor.mark.index := by omega
      exact clear_of_pos hpos
  fair := hfair
  ended := hended.trans h.ended

theorem Frame.Around.narrows (h : F.Around s) (hnarrows : s.Narrows s') : F.Around s' :=
  h.moves hnarrows.moves (h.fair.narrows hnarrows) hnarrows.same.2

/-- A lexeme that is read leaves the lexer within the frame. -/
theorem Frame.Around.proceed (h : F.Around s) (hne : s.cursor.rest ≠ [])
    (hread : s.proceed = .ok s') :
    F.Around s' ∧ s'.cursor.rest.length < s.cursor.rest.length := by
  obtain ⟨s₂, hnarrows, hcursor, hpasses⟩ := passes_proceed hne hread
  exact ⟨h.moves (hcursor ▸ hpasses.moves) ((h.fair.narrows hnarrows).passes hpasses)
    (hpasses.same.2.trans hnarrows.same.2), hcursor ▸ hpasses.shorter⟩

theorem Frame.Around.release (h : F.Around s) : F.Around s.release.2 :=
  ⟨h.fits, h.clear, h.fair.release, h.ended⟩

/-- What is read on behind a lexeme is the same in the frame: a candidate that is needed is too far
    back, or the tokens that are no longer held back come first, and both lexers go on. -/
theorem Frame.Around.resume_cases (h : F.Around s) (n m : Nat) :
    (∃ fault fault', s.resume n = ([], some fault) ∧ (F.lexer s).resume m = ([], some fault')) ∨
    ∃ s₁, s.dropStale = .ok s₁ ∧ F.Around s₁.release.2 ∧ s₁.release.2.cursor = s.cursor ∧
      s.resume n = (s₁.release.1 ++ (s₁.release.2.run n).1, (s₁.release.2.run n).2) ∧
      (F.lexer s).resume m = (s₁.release.1.map F.token ++ ((F.lexer s₁.release.2).run m).1,
        ((F.lexer s₁.release.2).run m).2) := by
  have hmirrors := mirrors_dropStale (F := F) s
  cases hdrop : s.dropStale with
  | error fault =>
    rw [hdrop] at hmirrors
    obtain ⟨fault', hfault⟩ := hmirrors
    exact .inl ⟨fault, fault', by rw [resume, hdrop], by rw [resume, hfault]⟩
  | ok s₁ =>
    obtain ⟨rfl, -⟩ := dropStale_eq_ok hdrop
    rw [hdrop] at hmirrors
    refine .inr ⟨_, rfl, (h.narrows (narrows_refreshed s)).release, rfl, resume_run hdrop h.ended n, ?_⟩
    rw [resume_run hmirrors h.ended, release_lexer]

/-- At the end of the text both readings end, unless a fault stands in the text behind. -/
theorem Frame.Around.run_end (h : F.Around s) (hrest : s.skipSpace.cursor.rest = [])
    (hend : (F.lexer s).skipSpace.cursor.rest = [] ∨
      (F.lexer s).skipSpace.cursor.rest.head? = some '\t') (n m : Nat) :
    Agrees ((F.lexer s).run (m + 1)) (s.run (n + 1)) := by
  rcases Lexer.run_end (fair_lexer h.fair) hend m with
    ⟨⟨fault, hrun⟩, -⟩ | ⟨hcalm, tokens, hrun, hlexemes⟩
  · rw [hrun]
    exact .fault fault _
  · rcases Lexer.run_end h.fair (.inl hrest) n with ⟨-, hkey⟩ | ⟨-, tokens', hrun', hlexemes'⟩
    · exact (hcalm ((Beyond.refl s).awaits.2 (hkey hrest))).elim
    · have hsame : tokens.map (·.lexeme) = tokens'.map (·.lexeme) := by
        rw [hlexemes, hlexemes', lastLexemes_lexer]
      rw [hrun, hrun']
      exact ⟨by rw [hsame], fun _ => ⟨rfl, hsame⟩⟩

/-- **A text in a frame** is read like the text alone, if its last block scalar is none that the
    text behind goes on with. -/
theorem Frame.Around.run (hwhite : ∀ d ∈ F.behind, isWhite d = true) {n m : Nat} (h : F.Around s)
    (hn : s.cursor.rest.length < n) (hm : (s.cursor.rest ++ F.behind).length < m)
    (hblocks : ∀ c ∈ s.lastBlocks n, F.Harmless (some c)) :
    Agrees ((F.lexer s).run m) (s.run n) := by
  -- The induction is on the lexemes that may still come, one for each character that is left.
  induction n generalizing m s with
  | zero => cases hn
  | succ n ih =>
    obtain ⟨m, rfl⟩ := Nat.exists_eq_add_one_of_ne_zero (Nat.ne_zero_of_lt hm)
    rcases skipSpace_frame h.fits h.clear hwhite with ⟨hne, hskip⟩ | ⟨hrest, hend⟩
    · have hskipped := h.narrows (narrows_skipSpace s)
      have hfits := hskipped.fits.resolve_left hne
      have hlength := (narrows_skipSpace s).moves.length_le
      have hblock : F.Harmless s.skipSpace.blockHere := fun c hc =>
        hblocks c (List.mem_append_left _ (Option.mem_toList.2 hc)) c rfl
      have hfollows := follows_proceed hwhite hfits hne hblock
      rw [run_succ, run_succ, hskip]
      cases hread : s.skipSpace.proceed with
      | error fault =>
        rw [hread] at hfollows
        obtain ⟨fault', hfault⟩ := hfollows
        rw [hfault]
        exact .fault fault' _
      | ok s' =>
        obtain ⟨haround, hshorter⟩ := hskipped.proceed hne hread
        rw [hread] at hfollows
        by_cases hrest : s'.cursor.rest = []
        · -- The lexeme was the last one of the text.
          obtain ⟨n, rfl⟩ : ∃ n', n = n' + 1 := Nat.exists_eq_add_one_of_ne_zero (by omega)
          obtain ⟨m, rfl⟩ : ∃ m', m = m' + 1 :=
            Nat.exists_eq_add_one_of_ne_zero (by simp only [List.length_append] at hm; omega)
          cases hraw : (F.lexer s.skipSpace).proceed with
          | error fault => exact .fault fault _
          | ok r =>
            exact (hfollows.beyond hraw).resume hwhite haround.fair hrest haround.ended n m
        · rw [hfollows.resolve_right fun hbeyond => hrest hbeyond.1]
          show Agrees ((F.lexer s').resume m) (s'.resume n)
          rcases haround.resume_cases n m with
            ⟨-, fault, -, hfault⟩ | ⟨s₁, hdrop, haround₁, hcursor, hresume, hresume'⟩
          · rw [hfault]
            exact .fault fault _
          · rw [hresume, hresume']
            refine .append (map_token F _)
              (ih haround₁ (by rw [hcursor]; omega) ?_ fun c hc => hblocks c ?_)
            · rw [hcursor]
              simp only [List.length_append] at hm ⊢
              omega
            · -- The block scalars still to come are among those of the whole text.
              refine List.mem_append_right _ ?_
              rw [fetch_eq_proceed, hread]
              show c ∈ (match s'.dropStale with | .error _ => _ | .ok s => _)
              rw [hdrop]
              exact hc
    · exact h.run_end hrest hend n m

end Run

/-! ### Whole texts -/

section Texts

variable {lead text cs x : List Char} {m : Mark}

/-- White space before a text is skipped up to the start of the line where the text starts, unless a
    tab stands there. -/
theorem skipFrom_lead {flow keyAllowed comment : Bool} (hflow : flow = false)
    (hallowed : keyAllowed = true) (hcomment : comment = false)
    (hwhite : ∀ d ∈ cs, isWhite d = true) (hlast : ∀ d, cs.getLast? = some d → isBreak d = true)
    (hx : x.head? ≠ some '\n') :
    (skipFrom flow keyAllowed comment (cs ++ x) m).2.rest.head? = some '\t' ∨
    ∃ mark, skipFrom flow keyAllowed comment (cs ++ x) m = skipFrom false true false x mark ∧
      mark.index = m.index + cs.length ∧ (m.column = 0 ∨ cs ≠ [] → mark.column = 0) := by
  have htail : ∀ {c : Char} {rest : List Char},
      (∀ d, (c :: rest).getLast? = some d → isBreak d = true) →
      ∀ d, rest.getLast? = some d → isBreak d = true := by
    intro c rest hlast d hd
    exact hlast d (by rw [List.getLast?_cons, hd]; rfl)
  fun_induction skipFrom flow keyAllowed comment cs m with
  | case1 keyAllowed comment m =>
    subst hflow hallowed hcomment
    exact .inr ⟨m, rfl, rfl, fun h => h.resolve_right fun h => h rfl⟩
  | case2 keyAllowed comment rest m ih =>
    rcases ih (by simp [hallowed]) rfl (fun d hd => hwhite d (by simp [hd])) (htail (htail hlast))
      with hstuck | ⟨mark, hskip, hindex, hcolumn⟩
    · exact .inl hstuck
    · simp only [Mark.nextLine] at hindex
      exact .inr ⟨mark, hskip, by simp only [List.length_cons]; omega, fun _ => hcolumn (.inl rfl)⟩
  | case3 keyAllowed comment c rest m hcrlf hbreak ih =>
    -- The break stays one of its own, since no line feed stands in front of the text.
    have hcrlf' : ∀ cs', c = '\r' → rest ++ x = '\n' :: cs' → False := by
      intro cs' hc heq
      cases rest with
      | nil => exact hx (by rw [show x = '\n' :: cs' from heq]; rfl)
      | cons d rest => exact hcrlf rest hc (by rw [(List.cons.inj heq).1])
    rw [List.cons_append, skipFrom_cons hcrlf', if_pos hbreak]
    rcases ih (by simp [hallowed]) rfl (fun d hd => hwhite d (by simp [hd])) (htail hlast)
      with hstuck | ⟨mark, hskip, hindex, hcolumn⟩
    · exact .inl hstuck
    · simp only [Mark.nextLine] at hindex
      exact .inr ⟨mark, hskip, by simp only [List.length_cons]; omega, fun _ => hcolumn (.inl rfl)⟩
  | case4 => cases hcomment
  | case5 keyAllowed comment c rest m hcrlf hbreak hcomment' hhash =>
    obtain rfl : c = '#' := by simpa using hhash
    exact absurd (hwhite _ List.mem_cons_self) (by decide)
  | case6 keyAllowed comment c rest m hcrlf hbreak hcomment' hhash hskip ih =>
    -- A blank is not the last character, so a break follows it.
    have hne : rest ≠ [] := by
      rintro rfl
      exact hbreak (hlast c rfl)
    have hcrlf' : ∀ cs', c = '\r' → rest ++ x = '\n' :: cs' → False := by
      intro cs' hc _
      subst hc
      exact hbreak rfl
    rw [List.cons_append, skipFrom_cons hcrlf', if_neg hbreak, if_neg hcomment', if_neg hhash,
      if_pos hskip]
    rcases ih hallowed rfl (fun d hd => hwhite d (by simp [hd])) (htail hlast)
      with hstuck | ⟨mark, hskip, hindex, hcolumn⟩
    · exact .inl hstuck
    · simp only [Mark.next] at hindex
      exact .inr ⟨mark, hskip, by simp only [List.length_cons]; omega, fun _ => hcolumn (.inr hne)⟩
  | case7 keyAllowed comment c rest m hcrlf hbreak hcomment' hhash hskip =>
    have hcrlf' : ∀ cs', c = '\r' → rest ++ x = '\n' :: cs' → False := by
      intro cs' hc _
      subst hc
      exact hbreak rfl
    have hgap : isGap c = true :=
      (isGap_or_isBreak (hwhite _ List.mem_cons_self)).resolve_right hbreak
    simp only [isGap, Bool.or_eq_true, beq_iff_eq] at hgap
    rcases hgap with rfl | rfl
    · exact absurd (by simp) hskip
    · rw [List.cons_append, skipFrom_cons hcrlf', if_neg hbreak, if_neg hcomment', if_neg hhash,
        if_neg hskip]
      exact .inl rfl

theorem skipSpace_start (text : List Char) : (Lexer.start text).skipSpace = { Lexer.start text with
    keyAllowed := (skipFrom false true false text .origin).1
    cursor := (skipFrom false true false text .origin).2 } := rfl

theorem fair_start (text : List Char) : (Lexer.start text).Fair := by
  have hnone : ∀ c, ¬ (Lexer.start text).Knows c := fun c hc => by simp [Knows, Lexer.start] at hc
  exact ⟨fun c hc => (hnone c hc).elim, fun c hc => (hnone c hc).elim,
    fun c hc => (hnone c hc).elim⟩

theorem around_start {F : Frame} (hwhite : ∀ d ∈ F.behind, isWhite d = true)
    (hlast : ∀ d, text.getLast? = some d → isWhite d = false)
    (hclear : text.head? = some byteOrderMark → F.index = 0) : F.Around (Lexer.start text) where
  fits := .inr (.white hwhite hlast)
  clear hhead _ := hclear hhead
  fair := fair_start text
  ended := rfl

theorem isAllowed_of_isWhite {d : Char} (h : isWhite d = true) : isAllowed d = true := by
  simp only [isWhite, isGap, isBreak, Bool.or_eq_true, beq_iff_eq] at h
  rcases h with (rfl | rfl) | (((rfl | rfl) | rfl) | rfl) | rfl <;> decide

/-- How the block scalars that reach the end of a text treat their final line breaks; there is one
    at most. -/
def closingBlocks (text : List Char) : List Chomping := (Lexer.start text).lastBlocks (text.length + 1)

/-- **White space around a text** does not change its tokens.  It starts with whole lines, as far as
    it stands before the text, and the text does not end in a block scalar that takes it in. -/
theorem tokens_agrees {behind : List Char} (hlead : ∀ d ∈ lead, isWhite d = true)
    (hbehind : ∀ d ∈ behind, isWhite d = true)
    (hline : ∀ d, lead.getLast? = some d → isBreak d = true)
    (hhead : ∀ d, text.head? = some d → isWhite d = false)
    (hmark : text.head? = some byteOrderMark → lead = [])
    (hlast : ∀ d, text.getLast? = some d → isWhite d = false)
    (hblocks : ∀ c ∈ closingBlocks text,
      behind = [] ∨ c = .strip ∧ ∀ d ∈ behind, isBreak d = true) (hne : text ≠ []) :
    Agrees (Yaml.tokens (lead ++ (text ++ behind))) (Yaml.tokens text) := by
  have hallowed : (lead ++ (text ++ behind)).all isAllowed = text.all isAllowed := by
    have hwhite : ∀ cs : List Char, (∀ d ∈ cs, isWhite d = true) → cs.all isAllowed = true :=
      fun cs hcs => List.all_eq_true.2 fun d hd => isAllowed_of_isWhite (hcs d hd)
    rw [List.all_append, List.all_append, hwhite lead hlead, hwhite behind hbehind, Bool.true_and,
      Bool.and_true]
  rw [Yaml.tokens, Yaml.tokens, hallowed]
  split
  · have hx : (text ++ behind).head? ≠ some '\n' := by
      obtain ⟨c, rest, rfl⟩ := List.exists_cons_of_ne_nil hne
      intro hc
      exact absurd (hhead _ hc) (by decide)
    rcases skipFrom_lead (m := .origin) rfl rfl rfl hlead hline hx with
      hstuck | ⟨mark, hskip, hindex, hcolumn⟩
    · obtain ⟨fault, hfault⟩ := readOn_tab (s := (Lexer.start (lead ++ (text ++ behind))).skipSpace)
        hstuck (lead ++ (text ++ behind)).length
      rw [run_succ, hfault]
      exact .fault fault _
    · let F : Frame := ⟨lead.length, mark.line, behind⟩
      have horigin : mark = F.mark .origin := by
        obtain ⟨index, line, column⟩ := mark
        obtain rfl : column = 0 := hcolumn (.inl rfl)
        obtain rfl : index = 0 + lead.length := hindex
        simp [F, Frame.mark, Mark.origin]
      have hstart : (Lexer.start (lead ++ (text ++ behind))).skipSpace
          = (F.lexer (Lexer.start text)).skipSpace := by
        rw [skipSpace_start, hskip, horigin]
        rfl
      rw [run_succ, hstart, ← run_succ]
      refine (around_start hbehind hlast fun hhead => by simp [F, hmark hhead]).run hbehind
        (Nat.lt_succ_self _) ?_ fun c hc d hd => ?_
      · show (text ++ behind).length < _
        simp only [List.length_append]
        omega
      · obtain rfl := Option.some.inj hd
        exact hblocks c hc
  · exact .fault _ _

end Texts

end SecretFill.Yaml
