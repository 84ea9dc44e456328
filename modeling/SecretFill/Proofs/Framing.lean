import Mathlib.Data.List.InsertIdx
import SecretFill.Proofs.Lexemes

namespace SecretFill.Yaml

/-!
# Lexers in a frame

The lexer does in a frame what it does over the text alone, positions apart, until the text ends.

* `Frame.lexer` — a lexer, seen in the frame.
* `Frame.Mirrors`, `Frame.Follows` — a step does the same in the frame, always or unless the text ends.
* `Frame.Leaves` — a step that stays within the text does.
* `Frame.Harmless` — what stands behind the text adds nothing to a block scalar that reaches the end.
* `follows_perform` — every lexeme is read alike.
-/

open Cursor Lexer

/-- Adds a lexeme that stands at the cursor, and moves behind it. -/
def Lexer.write (s : Lexer) (lexeme : Lexeme) (keyAllowed : Bool) (cursor : Cursor) : Lexer :=
  { s.push lexeme s.cursor.mark with keyAllowed, cursor }

namespace Frame

variable {F : Frame}

/-! ### The state of a lexer -/

/-- A candidate in a frame. -/
def candidate (F : Frame) (c : Candidate) : Candidate := { c with mark := F.mark c.mark }

/-- A token in a frame. -/
def token (F : Frame) (t : Token) : Token := { t with start := F.mark t.start }

/-- A lexer in a frame. -/
def lexer (F : Frame) (s : Lexer) : Lexer := { s with
  cursor := F.cursor s.cursor
  candidate := s.candidate.map F.candidate
  outerCandidates := s.outerCandidates.map (·.map F.candidate)
  pending := s.pending.map F.token }

section Lexer

variable (s : Lexer)

@[simp] theorem lexer_cursor : (F.lexer s).cursor = F.cursor s.cursor := rfl

@[simp] theorem lexer_inFlow : (F.lexer s).inFlow = s.inFlow := by
  simp [inFlow, lexer]

@[simp] theorem lexer_nextNumber : (F.lexer s).nextNumber = s.nextNumber := by
  simp [nextNumber, lexer]

@[simp] theorem lexer_here : (F.lexer s).here = F.candidate s.here := by
  simp [here, candidate]
  rfl

theorem lexer_take {lexeme : Lexeme} {n : Nat} (h : n ≤ s.cursor.rest.length) :
    (F.lexer s).take lexeme n = F.lexer (s.take lexeme n) := by
  simp [take, push, lexer, token, cursor_skip h]

theorem lexer_take_one {lexeme : Lexeme} (hne : s.cursor.rest ≠ []) :
    (F.lexer s).take lexeme 1 = F.lexer (s.take lexeme 1) :=
  lexer_take s (List.length_pos_iff.2 hne)

theorem lexer_write (lexeme : Lexeme) (keyAllowed : Bool) (c : Cursor) :
    (F.lexer s).write lexeme keyAllowed (F.cursor c) = F.lexer (s.write lexeme keyAllowed c) := by
  simp [Lexer.write, push, lexer, token]

theorem lexer_unroll (target : Nat) : (F.lexer s).unroll target = F.lexer (s.unroll target) := by
  unfold unroll
  rw [lexer_inFlow]
  split
  · rfl
  · simp [lexer, token]

theorem lexer_roll (lexeme : Lexeme) (mark : Mark) (number : Nat) :
    (F.lexer s).roll lexeme (F.mark mark) number = F.lexer (s.roll lexeme mark number) := by
  have hinside : ((F.lexer s).inFlow || decide ((F.mark mark).column < (F.lexer s).margin))
      = (s.inFlow || decide (mark.column < s.margin)) := by
    rw [lexer_inFlow]
    rfl
  by_cases hroll : (s.inFlow || decide (mark.column < s.margin)) = true
  · rw [roll, roll, if_pos hroll, if_pos (hinside ▸ hroll)]
  · rw [roll, roll, if_neg hroll, if_neg (hinside ▸ hroll)]
    simp [lexer, token, List.map_insertIdx]

theorem isStale_candidate (now : Mark) (c : Candidate) :
    isStale (F.mark now) (F.candidate c) = isStale now c := by
  have hline : c.mark.line + F.line < now.line + F.line ↔ c.mark.line < now.line := by omega
  have hindex : c.mark.index + F.index + 1024 < now.index + F.index ↔
      c.mark.index + 1024 < now.index := by omega
  simp only [isStale, candidate, mark, hline, hindex]

theorem filter_candidate (now : Mark) (o : Option Candidate) :
    (o.map F.candidate).filter (!isStale (F.mark now) ·)
      = (o.filter (!isStale now ·)).map F.candidate := by
  cases o with
  | none => rfl
  | some c =>
    cases hstale : isStale now c <;> simp [Option.filter, isStale_candidate, hstale]

theorem lexer_refreshed : (F.lexer s).refreshed = F.lexer s.refreshed := by
  simp [refreshed, lexer, filter_candidate]

end Lexer

/-! ### Steps that do not look at the text -/

/-- A step of the lexer does in the frame what it does without. -/
def Mirrors (F : Frame) (x y : Except Fault Lexer) : Prop :=
  match x with
  | .error _ => ∃ fault, y = .error fault
  | .ok s => y = .ok (F.lexer s)

section Mirrors

variable {s : Lexer}

theorem mirrors_dropStale (s : Lexer) : F.Mirrors s.dropStale (F.lexer s).dropStale := by
  have hlost : ∀ o : Option Candidate,
      (o.map F.candidate).any (isLost (F.mark s.cursor.mark)) = o.any (isLost s.cursor.mark) := by
    intro o
    cases o with
    | none => rfl
    | some c =>
      show (isStale _ (F.candidate c) && c.required) = (isStale _ c && c.required)
      rw [isStale_candidate]
  have hany : ((F.lexer s).candidate :: (F.lexer s).outerCandidates).any
        (·.any (isLost (F.lexer s).cursor.mark))
      = (s.candidate :: s.outerCandidates).any (·.any (isLost s.cursor.mark)) := by
    simp [lexer, hlost, Function.comp_def]
  rw [dropStale_eq, dropStale_eq, hany]
  split
  · exact ⟨_, rfl⟩
  · exact congrArg Except.ok (lexer_refreshed s)

theorem any_required (o : Option Candidate) :
    (o.map F.candidate).any (·.required) = o.any (·.required) := by
  cases o <;> rfl

theorem mirrors_dropCandidate (s : Lexer) :
    F.Mirrors s.dropCandidate (F.lexer s).dropCandidate := by
  have hany : (F.lexer s).candidate.any (·.required) = s.candidate.any (·.required) :=
    any_required s.candidate
  rw [dropCandidate_eq, dropCandidate_eq, hany]
  split
  · exact ⟨_, rfl⟩
  · rfl

theorem mirrors_noteCandidate (s : Lexer) :
    F.Mirrors s.noteCandidate (F.lexer s).noteCandidate := by
  have hany : (F.lexer s).candidate.any (·.required) = s.candidate.any (·.required) :=
    any_required s.candidate
  have hallowed : (F.lexer s).keyAllowed = s.keyAllowed := rfl
  rw [noteCandidate_eq, noteCandidate_eq, hany, hallowed]
  split
  · rfl
  · split
    · exact ⟨_, rfl⟩
    · rw [lexer_here]
      rfl

end Mirrors

/-! ### Steps that read a lexeme -/

/-- What the lexer may come to behind the end of a text: it moved on over the text behind, and may
    have found that a key may begin there. -/
def Beyond (F : Frame) (s r : Lexer) : Prop :=
  ∃ cursor keyAllowed, r = { F.lexer s with cursor, keyAllowed } ∧ (F.cursor s.cursor).Moves cursor

/-- A step of the lexer does in the frame what it does without, unless the text ends behind it. -/
def Follows (F : Frame) (x y : Except Fault Lexer) : Prop :=
  match x with
  | .error _ => ∃ fault, y = .error fault
  | .ok s => y = .ok (F.lexer s) ∨ s.cursor.rest = [] ∧ ∀ r, y = .ok r → F.Beyond s r

/-- A step of the lexer that stays within the text does the same in the frame. -/
def Leaves (F : Frame) (x y : Except Fault Lexer) : Prop :=
  match x with
  | .error _ => ∃ fault, y = .error fault
  | .ok s => y = .ok (F.lexer s) ∧ F.Fits s.cursor.rest

section Follows

variable {s : Lexer} {x y : Except Fault Lexer}

theorem Leaves.follows (h : F.Leaves x y) : F.Follows x y := by
  cases x with
  | error => exact h
  | ok s => exact .inl h.1

theorem Leaves.error {fault fault' : Fault} : F.Leaves (.error fault) (.error fault') := ⟨_, rfl⟩

theorem Mirrors.leaves (h : F.Mirrors x y) {f g : Lexer → Except Fault Lexer}
    (hf : ∀ s, x = .ok s → F.Leaves (f s) (g (F.lexer s))) : F.Leaves (x >>= f) (y >>= g) := by
  cases x with
  | error =>
    obtain ⟨fault, rfl⟩ := h
    exact .error
  | ok s =>
    obtain rfl : y = .ok (F.lexer s) := h
    exact hf s rfl

theorem Beyond.refl (s : Lexer) : F.Beyond s (F.lexer s) := ⟨_, _, rfl, .refl _⟩

/-- Where the text ends, the lexer in the frame may have gone on over the text behind. -/
theorem Follows.beyond {r : Lexer} (h : F.Follows (.ok s) y) (hread : y = .ok r) : F.Beyond s r := by
  rcases h with hsame | ⟨-, hbeyond⟩
  · obtain rfl := Except.ok.inj (hread.symm.trans hsame)
    exact .refl s
  · exact hbeyond r hread

theorem Mirrors.follows (h : F.Mirrors x y) : F.Follows x y := by
  cases x with
  | error => exact h
  | ok s => exact .inl h

theorem Follows.error {fault fault' : Fault} : F.Follows (.error fault) (.error fault') := ⟨_, rfl⟩

theorem Follows.ok {s s' : Lexer} (h : s' = F.lexer s) : F.Follows (.ok s) (.ok s') :=
  .inl (congrArg Except.ok h)

theorem Mirrors.bind (h : F.Mirrors x y) {f g : Lexer → Except Fault Lexer}
    (hf : ∀ s, x = .ok s → F.Follows (f s) (g (F.lexer s))) : F.Follows (x >>= f) (y >>= g) := by
  cases x with
  | error =>
    obtain ⟨fault, rfl⟩ := h
    exact .error
  | ok s =>
    obtain rfl : y = .ok (F.lexer s) := h
    exact hf s rfl

/-- A lexeme whose reader may come to the end of the text. -/
theorem Trails.follows {α : Type} {c : Cursor} {x y : Except Fault (α × Cursor)}
    (h : F.Trails c x y) {f g : α × Cursor → Except Fault Lexer} (lexeme : α → Lexeme)
    (keyAllowed : Bool) (hf : ∀ a c', f (a, c') = .ok (s.write (lexeme a) keyAllowed c'))
    (hg : ∀ a c', g (a, c') = .ok ((F.lexer s).write (lexeme a) keyAllowed c')) :
    F.Follows (x >>= f) (y >>= g) := by
  cases x with
  | error =>
    obtain ⟨fault, rfl⟩ := h
    exact .error
  | ok out =>
    obtain ⟨a, c'⟩ := out
    obtain ⟨-, rfl | ⟨hrest, hbeyond⟩⟩ := h
    · show F.Follows (f (a, c')) (g (a, F.cursor c'))
      rw [hf, hg]
      exact .ok (lexer_write _ _ _ _)
    · -- The text ends behind the lexeme, so its reader may have gone on over white space.
      show F.Follows (f (a, c')) (y >>= g)
      rw [hf]
      refine .inr ⟨hrest, fun r hr => ?_⟩
      obtain ⟨⟨a', c''⟩, rfl, hread⟩ := Json.exists_of_bind hr
      obtain ⟨rfl, hmoves⟩ := hbeyond a' c'' rfl
      rw [hg] at hread
      obtain rfl := Except.ok.inj hread
      exact ⟨c'', keyAllowed, by rw [← lexer_write]; rfl, hmoves⟩

/-- A lexeme that lies within the text. -/
theorem Reads.leaves {α : Type} {c : Cursor} {x y : Except Fault (α × Cursor)}
    (h : F.Reads c x y) {f g : α × Cursor → Except Fault Lexer} (lexeme : α → Lexeme)
    (keyAllowed : Bool) (hf : ∀ a c', f (a, c') = .ok (s.write (lexeme a) keyAllowed c'))
    (hg : ∀ a c', g (a, c') = .ok ((F.lexer s).write (lexeme a) keyAllowed c')) :
    F.Leaves (x >>= f) (y >>= g) := by
  cases x with
  | error =>
    obtain ⟨fault, rfl⟩ := h
    exact .error
  | ok out =>
    obtain ⟨a, c'⟩ := out
    obtain ⟨-, hfits, rfl⟩ := h
    show F.Leaves (f (a, c')) (g (a, F.cursor c'))
    rw [hf, hg]
    exact ⟨congrArg Except.ok (lexer_write _ _ _ _), hfits⟩

end Follows

end Frame

open SecretFill.Yaml.Frame

/-! ### Scalars before white space -/

variable {F : Frame}

theorem isGap_or_isBreak {c : Char} (h : isWhite c = true) : isGap c = true ∨ isBreak c = true :=
  Bool.or_eq_true _ _ ▸ h

section White

variable {cs : List Char} {m : Mark}

/-- White space does not close a quote. -/
theorem singleFrom_white {read : List Char} {spacing : Spacing}
    (h : ∀ d ∈ cs, isWhite d = true) : ∃ fault, singleFrom read spacing cs m = .error fault := by
  fun_induction singleFrom read spacing cs m with
  | case1 => exact ⟨_, rfl⟩
  | case2 read spacing rest m ih => exact ih fun d hd => h d (by simp [hd])
  | case3 read spacing c rest m hcrlf hbreak ih => exact ih fun d hd => h d (by simp [hd])
  | case4 read spacing c rest m hcrlf hbreak hgap ih => exact ih fun d hd => h d (by simp [hd])
  | _ =>
    rcases isGap_or_isBreak (h _ List.mem_cons_self) with hgap | hbreak <;> contradiction

theorem doubleFrom_white {read : List Char} {state : QuoteState}
    (h : ∀ d ∈ cs, isWhite d = true) : ∃ fault, doubleFrom read state cs m = .error fault := by
  fun_induction doubleFrom read state cs m with
  -- The text ends before the closing quote.
  | case1 => exact ⟨_, rfl⟩
  | case2 => exact ⟨_, rfl⟩
  | case3 => exact ⟨_, rfl⟩
  -- White space is kept back, or left out behind a backslash.
  | case4 read m spacing rest ih => exact ih fun d hd => h d (by simp [hd])
  | case5 read m spacing c rest hcrlf hbreak ih => exact ih fun d hd => h d (by simp [hd])
  | case6 read m spacing c rest hcrlf hbreak hgap ih => exact ih fun d hd => h d (by simp [hd])
  | case11 read m backslash rest ih => exact ih fun d hd => h d (by simp [hd])
  | case12 read m backslash c rest hcrlf hbreak ih => exact ih fun d hd => h d (by simp [hd])
  | case13 read m backslash c rest hcrlf hbreak d hstands ih =>
    exact ih fun d hd => h d (by simp [hd])
  | case14 read m backslash c rest hcrlf hbreak digits hcode ih =>
    exact ih fun d hd => h d (by simp [hd])
  -- White space codes no character and is no digit; the other cases are of other characters.
  | case15 => exact ⟨_, rfl⟩
  | case16 => exact ⟨_, rfl⟩
  | case17 read m c rest start left value digit hhex =>
    rw [hexValue?_of_isWhite (h _ List.mem_cons_self)] at hhex
    cases hhex
  | case18 => exact ⟨_, rfl⟩
  | case19 read m c rest start left value digit hhex =>
    rw [hexValue?_of_isWhite (h _ List.mem_cons_self)] at hhex
    cases hhex
  | _ =>
    rcases isGap_or_isBreak (h _ List.mem_cons_self) with hgap | hbreak <;> contradiction

/-- White space adds nothing to a plain scalar. -/
theorem plainFrom_white {flow : Bool} {margin : Nat} {read : List Char} {spacing : Spacing}
    {p : PlainScalar} (h : ∀ d ∈ cs, isWhite d = true)
    (hread : plainFrom flow margin read spacing cs m = .ok p) : p.text = read.reverse := by
  fun_induction plainFrom flow margin read spacing cs m with
  | case1 => exact Except.ok.inj hread ▸ rfl
  | case2 read spacing rest m ih => exact ih (fun d hd => h d (by simp [hd])) hread
  | case3 read spacing c rest m hcrlf hbreak ih =>
    exact ih (fun d hd => h d (by simp [hd])) hread
  | case4 => cases hread
  | case5 read spacing c rest m hcrlf hbreak hgap htab ih =>
    exact ih (fun d hd => h d (by simp [hd])) hread
  | _ =>
    rcases isGap_or_isBreak (h _ List.mem_cons_self) with hgap | hbreak <;> contradiction

/-- Line breaks add nothing to a block scalar that strips them. -/
theorem blockFrom_breaks {folded : Bool} {margin : Nat} {b : BlockText} {state : BlockState}
    (h : ∀ d ∈ cs, isBreak d = true) :
    ∃ c', blockFrom folded .strip margin b state cs m = .ok (b.finish .strip, c') := by
  fun_induction blockFrom folded .strip margin b state cs m with
  | case1 => exact ⟨_, rfl⟩
  | case2 b m indentation rest ih => exact ih fun d hd => h d (by simp [hd])
  | case3 b m indentation c rest hcrlf hbreak ih => exact ih fun d hd => h d (by simp [hd])
  | case5 b m known widest widest' rest ih => exact ih fun d hd => h d (by simp [hd])
  | case6 b m known widest widest' c rest hcrlf hbreak ih => exact ih fun d hd => h d (by simp [hd])
  | _ =>
    have hbreak := h _ List.mem_cons_self
    contradiction

end White

/-- How a block scalar that reaches the end of the text treats its final line breaks; it is read
    behind its sign. -/
def blockEnd (folded : Bool) (margin : Nat) (c : Cursor) : Option Chomping :=
  match blockHeader c with
  | .error _ => none
  | .ok (header, c) =>
    match blockFrom folded header.chomping margin .empty
        (.indent (header.indentation.map (margin - 1 + ·)) 0) c.rest c.mark with
    | .error _ => none
    | .ok (_, c) => if c.rest.isEmpty then some header.chomping else none

/-- What stands behind the text adds nothing to a block scalar that reaches the end. -/
def Frame.Harmless (F : Frame) (chomping : Option Chomping) : Prop :=
  ∀ c ∈ chomping, F.behind = [] ∨ c = .strip ∧ ∀ d ∈ F.behind, isBreak d = true

section Readers

variable {c : Cursor}

theorem trails_singleQuoted (hwhite : ∀ d ∈ F.behind, isWhite d = true)
    (h : c.rest = [] ∨ F.Fits c.rest) :
    F.Trails c (singleQuoted c) (singleQuoted (F.cursor c)) := by
  have hgoes : F.Goes F.outcome id (fun s : List Char × Spacing => singleFrom s.1 s.2)
    (singleQuoted c) (singleQuoted (F.cursor c)) := goes_singleFrom h
  generalize hx : singleQuoted c = x at hgoes
  generalize singleQuoted (F.cursor c) = y at hgoes
  cases hgoes with
  | error => exact ⟨_, rfl⟩
  | @ok out => exact ⟨moves_singleFrom hx, .inl rfl⟩
  | across s m => exact singleFrom_white hwhite

theorem trails_doubleQuoted (hwhite : ∀ d ∈ F.behind, isWhite d = true)
    (h : c.rest = [] ∨ F.Fits c.rest) :
    F.Trails c (doubleQuoted c) (doubleQuoted (F.cursor c)) := by
  have hgoes : F.Goes F.outcome (Prod.map id F.quote)
    (fun s : List Char × QuoteState => doubleFrom s.1 s.2)
    (doubleQuoted c) (doubleQuoted (F.cursor c)) := goes_doubleFrom h
  generalize hx : doubleQuoted c = x at hgoes
  generalize doubleQuoted (F.cursor c) = y at hgoes
  cases hgoes with
  | error => exact ⟨_, rfl⟩
  | @ok out => exact ⟨moves_doubleFrom hx, .inl rfl⟩
  | across s m =>
    obtain ⟨fault, hfault⟩ : ∃ fault, doubleFrom s.1 s.2 [] m = .error fault :=
      doubleFrom_white (by simp)
    simp only [hfault]
    exact doubleFrom_white hwhite

/-- A block scalar that reaches the end of the text goes on harmlessly over what stands behind. -/
theorem Frame.Harmless.blockFrom {folded : Bool} {margin : Nat} {chomping : Chomping}
    {b : BlockText} {state : BlockState} {m : Mark} {cs : List Char}
    (h : F.Harmless (some chomping)) (hcs : cs <:+ F.behind) :
    ∃ c', blockFrom folded chomping margin b state cs m = .ok (b.finish chomping, c') := by
  rcases h chomping rfl with hbehind | ⟨rfl, hbreaks⟩
  · rw [hbehind] at hcs
    obtain rfl := List.suffix_nil.1 hcs
    exact ⟨_, rfl⟩
  · exact blockFrom_breaks fun d hd => hbreaks d (hcs.subset hd)

theorem trails_blockFrom {folded : Bool} {chomping : Chomping} {margin : Nat} {b : BlockText}
    {state : BlockState} (h : c.rest = [] ∨ F.Fits c.rest)
    (hharmless : ∀ text c', blockFrom folded chomping margin b state c.rest c.mark = .ok (text, c') →
      c'.rest = [] → F.Harmless (some chomping)) :
    F.Trails c (blockFrom folded chomping margin b state c.rest c.mark)
      (blockFrom folded chomping margin b state (F.cursor c).rest (F.cursor c).mark) := by
  have hgoes : F.Goes F.outcome id
      (fun s : BlockText × BlockState => blockFrom folded chomping margin s.1 s.2)
      (blockFrom folded chomping margin b state c.rest c.mark)
      (blockFrom folded chomping margin b state (F.cursor c).rest (F.cursor c).mark) :=
    goes_blockFrom h
  generalize hx : blockFrom folded chomping margin b state c.rest c.mark = x at hgoes hharmless
  generalize blockFrom folded chomping margin b state (F.cursor c).rest (F.cursor c).mark = y
    at hgoes
  cases hgoes with
  | error => exact ⟨_, rfl⟩
  | @ok out => exact ⟨moves_blockFrom hx, .inl rfl⟩
  -- Whatever line breaks of the text behind the scalar takes in, its own text stays the same.
  | across s m =>
    have hend : blockFrom folded chomping margin s.1 s.2 [] m
        = .ok (s.1.finish chomping, ⟨[], m⟩) := rfl
    rw [hend] at hx hharmless
    refine ⟨moves_blockFrom hx, .inr ⟨rfl, fun text c'' hy => ?_⟩⟩
    obtain ⟨c₁, hc₁⟩ : ∃ c', blockFrom folded chomping margin s.1 s.2 F.behind (F.mark m)
        = .ok (s.1.finish chomping, c') :=
      (hharmless _ _ rfl rfl).blockFrom (List.suffix_refl _)
    have hmoves : (F.cursor ⟨[], m⟩).Moves c'' := moves_blockFrom hy
    exact ⟨(Prod.mk.inj (Except.ok.inj (hy.symm.trans hc₁))).1, hmoves⟩

theorem trails_blockScalar {folded : Bool} {margin : Nat} (h : F.Fits c.rest)
    (hharmless : F.Harmless (blockEnd folded margin c)) :
    F.Trails c (blockScalar folded margin c) (blockScalar folded margin (F.cursor c)) := by
  have hheader := trails_blockHeader h
  unfold blockScalar
  unfold blockEnd at hharmless
  cases hx : blockHeader c with
  | error fault =>
    rw [hx] at hheader
    obtain ⟨fault', hfault⟩ := hheader
    rw [hfault]
    exact ⟨_, rfl⟩
  | ok out =>
    obtain ⟨header, c₁⟩ := out
    rw [hx] at hheader hharmless
    obtain ⟨hmoves, hexact | ⟨hrest, hbeyond⟩⟩ := hheader
    · rw [hexact]
      have hfits : c₁.rest = [] ∨ F.Fits c₁.rest := or_iff_not_imp_left.2 (h.suffix hmoves.suffix)
      refine .after hmoves (trails_blockFrom hfits fun text c' hread hrest => ?_)
      simpa [hread, hrest] using hharmless
    · -- The text ends behind the header.
      obtain ⟨rest, mark⟩ := c₁
      obtain rfl : rest = [] := hrest
      refine ⟨hmoves, .inr ⟨rfl, fun text c'' hy => ?_⟩⟩
      obtain ⟨⟨header', c₂⟩, hheader', hy⟩ := Json.exists_of_bind hy
      obtain ⟨rfl, hmoves'⟩ := hbeyond header' c₂ hheader'
      obtain ⟨c₃, hc₃⟩ : ∃ c', blockFrom folded header'.chomping margin .empty
          (.indent (header'.indentation.map (margin - 1 + ·)) 0) c₂.rest c₂.mark
          = .ok (BlockText.empty.finish header'.chomping, c') :=
        Frame.Harmless.blockFrom (F := F) hharmless hmoves'.suffix
      exact ⟨(Prod.mk.inj (Except.ok.inj (hy.symm.trans hc₃))).1,
        hmoves'.trans (moves_blockFrom hy)⟩

end Readers

/-! ### Lexemes -/

section Lexemes

variable {s : Lexer}

theorem follows_fetchDirective (h : F.Fits s.cursor.rest) (hhead : s.cursor.rest.head? = some '%') :
    F.Follows s.fetchDirective (F.lexer s).fetchDirective := by
  unfold fetchDirective
  rw [lexer_unroll]
  refine (mirrors_dropCandidate _).bind fun s₁ hdrop => ?_
  have hcursor : s₁.cursor = s.cursor := (dropCandidate_cursor hdrop).trans (unroll_cursor s 0)
  rw [← hcursor] at h hhead
  obtain ⟨hskip, hfits, -⟩ := cursor_skip_one h hhead (by decide)
  rw [lexer_cursor, hskip]
  exact (trails_directive hfits).follows id false (fun _ _ => rfl)
    fun _ _ => rfl

theorem follows_fetchMarker {lexeme : Lexeme} (h : 3 ≤ s.cursor.rest.length) :
    F.Follows (s.fetchMarker lexeme) ((F.lexer s).fetchMarker lexeme) := by
  unfold fetchMarker
  rw [lexer_unroll]
  refine (mirrors_dropCandidate _).bind fun s₁ hdrop => ?_
  have hcursor : s₁.cursor = s.cursor := (dropCandidate_cursor hdrop).trans (unroll_cursor s 0)
  rw [← hcursor] at h
  simp only [lexer_take _ h]
  exact .ok rfl

theorem follows_fetchOpen {lexeme : Lexeme} (hne : s.cursor.rest ≠ []) :
    F.Follows (s.fetchOpen lexeme) ((F.lexer s).fetchOpen lexeme) := by
  unfold fetchOpen
  refine (mirrors_noteCandidate _).bind fun s₁ hnote => ?_
  rw [← noteCandidate_cursor hnote] at hne
  rw [lexer_take_one s₁ hne]
  exact .ok rfl

theorem lexer_shut (s : Lexer) : (F.lexer s).shut = F.lexer s.shut := by
  have houter : (F.lexer s).outerCandidates = s.outerCandidates.map (·.map F.candidate) := rfl
  unfold shut
  rw [houter]
  cases s.outerCandidates with
  | nil => rfl
  | cons candidate outer => rfl

theorem follows_fetchClose {lexeme : Lexeme} (hne : s.cursor.rest ≠ []) :
    F.Follows (s.fetchClose lexeme) ((F.lexer s).fetchClose lexeme) := by
  rw [fetchClose_eq, fetchClose_eq]
  refine (mirrors_dropCandidate _).bind fun s₁ hdrop => ?_
  rw [← dropCandidate_cursor hdrop] at hne
  refine .ok ?_
  rw [← lexer_shut, lexer_take_one s₁ hne]
  rfl

theorem follows_fetchComma (hne : s.cursor.rest ≠ []) :
    F.Follows s.fetchComma (F.lexer s).fetchComma := by
  unfold fetchComma
  refine (mirrors_dropCandidate _).bind fun s₁ hdrop => ?_
  rw [← dropCandidate_cursor hdrop] at hne
  rw [lexer_take_one s₁ hne]
  exact .ok rfl

theorem follows_fetchEntry (hne : s.cursor.rest ≠ []) :
    F.Follows s.fetchEntry (F.lexer s).fetchEntry := by
  unfold fetchEntry
  simp only [lexer_inFlow, lexer_nextNumber, lexer_cursor, cursor_mark, lexer_roll]
  have hallowed : (F.lexer s).keyAllowed = s.keyAllowed := rfl
  rw [hallowed]
  split
  · exact .error
  · refine (mirrors_dropCandidate _).bind fun s₁ hdrop => ?_
    rw [← roll_cursor, ← dropCandidate_cursor hdrop] at hne
    rw [lexer_take_one s₁ hne]
    exact .ok rfl

theorem follows_fetchKey (hne : s.cursor.rest ≠ []) :
    F.Follows s.fetchKey (F.lexer s).fetchKey := by
  unfold fetchKey
  simp only [lexer_inFlow, lexer_nextNumber, lexer_cursor, cursor_mark, lexer_roll]
  have hallowed : (F.lexer s).keyAllowed = s.keyAllowed := rfl
  rw [hallowed]
  split
  · exact .error
  · refine (mirrors_dropCandidate _).bind fun s₁ hdrop => ?_
    rw [← roll_cursor, ← dropCandidate_cursor hdrop] at hne
    rw [lexer_take_one s₁ hne, lexer_inFlow]
    exact .ok rfl

theorem follows_fetchValue (hne : s.cursor.rest ≠ []) :
    F.Follows s.fetchValue (F.lexer s).fetchValue := by
  have hcandidate : (F.lexer s).candidate = s.candidate.map F.candidate := rfl
  have hroll : ∀ (s₁ : Lexer) mark number, s₁.cursor = s.cursor →
      ((F.lexer s₁).roll .blockMappingStart (F.mark mark) number).take .value 1
        = F.lexer ((s₁.roll .blockMappingStart mark number).take .value 1) := by
    intro s₁ mark number hcursor
    rw [← hcursor, ← roll_cursor s₁ .blockMappingStart mark number] at hne
    rw [lexer_roll, lexer_take_one _ hne]
  unfold fetchValue
  rw [hcandidate]
  -- Either the lexeme before is a key, or the key of this value is empty.
  cases hc : s.candidate with
  | some c =>
    let s₁ : Lexer := { s with
      candidate := none
      pending := s.pending.insertIdx (c.number - s.released) ⟨.key, c.mark⟩ }
    have hs₁ : F.lexer s₁ = { F.lexer s with
        candidate := none
        pending := (F.lexer s).pending.insertIdx (c.number - s.released) ⟨.key, F.mark c.mark⟩ } := by
      simp [s₁, lexer, List.map_insertIdx, token]
    refine .ok ?_
    have h := hroll s₁ c.mark c.number rfl
    rw [hs₁] at h
    exact congrArg (fun s : Lexer => { s with keyAllowed := false }) h
  | none =>
    have hallowed : (F.lexer s).keyAllowed = s.keyAllowed := rfl
    simp only [Option.map_none, lexer_inFlow, lexer_nextNumber, lexer_cursor, cursor_mark, hallowed]
    split
    · exact .error
    · refine .ok ?_
      rw [lexer_roll, lexer_inFlow, ← lexer_roll, hroll s _ _ rfl]
      rfl

theorem Frame.Fits.endsName {cs : List Char} (h : F.Fits cs) :
    endsName (cs ++ F.behind) = endsName cs := by
  cases cs with
  | cons => rfl
  | nil =>
    have hsep : Yaml.atSeparation ([] ++ F.behind) = true := h.atSeparation
    rw [Lexer.endsName, hsep]
    rfl

theorem leaves_fetchName {lexeme : List Char → Lexeme} (h : F.Fits s.cursor.rest)
    {d : Char} (hhead : s.cursor.rest.head? = some d) (hd : d ≠ '\n') :
    F.Leaves (s.fetchName lexeme) ((F.lexer s).fetchName lexeme) := by
  unfold fetchName
  refine (mirrors_noteCandidate _).leaves fun s₁ hnote => ?_
  rw [← noteCandidate_cursor hnote] at h hhead
  obtain ⟨hskip, hfits, -⟩ := cursor_skip_one h hhead hd
  have hname := (hfits.takeWhile fun d => isName_of_isWhite).1
  have hfits' := hfits.skipWhile fun d => isName_of_isWhite
  simp only [lexer_cursor, hskip, cursor_rest, hname,
    cursor_skipWhile hfits fun d => isName_of_isWhite, hfits'.endsName]
  split
  · exact .error
  · exact ⟨congrArg Except.ok (lexer_write _ _ _ _), hfits'⟩

theorem leaves_fetchTag (h : F.Fits s.cursor.rest) (hhead : s.cursor.rest.head? = some '!') :
    F.Leaves s.fetchTag (F.lexer s).fetchTag := by
  unfold fetchTag
  refine (mirrors_noteCandidate _).leaves fun s₁ hnote => ?_
  rw [← noteCandidate_cursor hnote] at h hhead
  rw [lexer_inFlow]
  exact (reads_tag h hhead).leaves (fun parts => .tag parts.1 parts.2) false (fun _ _ => rfl)
    fun _ _ => rfl

theorem follows_fetchBlock {folded : Bool} (h : F.Fits s.cursor.rest) {d : Char}
    (hhead : s.cursor.rest.head? = some d) (hd : d ≠ '\n')
    (hharmless : F.Harmless (blockEnd folded s.margin (s.cursor.skip 1))) :
    F.Follows (s.fetchBlock folded) ((F.lexer s).fetchBlock folded) := by
  unfold fetchBlock
  refine (mirrors_dropCandidate _).bind fun s₁ hdrop => ?_
  have hmargin : s₁.margin = s.margin := by rw [dropCandidate_eq_ok hdrop]
  rw [← dropCandidate_cursor hdrop] at h hhead hharmless
  rw [← hmargin] at hharmless
  obtain ⟨hskip, hfits, -⟩ := cursor_skip_one h hhead hd
  rw [lexer_cursor, hskip]
  exact (trails_blockScalar hfits hharmless).follows (.scalar · false) true (fun _ _ => rfl)
    fun _ _ => rfl

/-- Behind one character the text ends, or its line goes on. -/
theorem Frame.Fits.skip_one {c : Cursor} (h : F.Fits c.rest) (hne : c.rest ≠ []) :
    (c.skip 1).rest = [] ∨ F.Fits (c.skip 1).rest := by
  obtain ⟨d, cs, hcons⟩ := List.exists_cons_of_ne_nil hne
  simp only [Cursor.skip, hcons]
  exact (hcons ▸ h).tail

theorem follows_fetchQuoted (hwhite : ∀ d ∈ F.behind, isWhite d = true) {double : Bool}
    (h : F.Fits s.cursor.rest) (hne : s.cursor.rest ≠ []) :
    F.Follows (s.fetchQuoted (if double then doubleQuoted else singleQuoted))
      ((F.lexer s).fetchQuoted (if double then doubleQuoted else singleQuoted)) := by
  unfold fetchQuoted
  refine (mirrors_noteCandidate _).bind fun s₁ hnote => ?_
  rw [← noteCandidate_cursor hnote] at h hne
  have hfits := h.skip_one hne
  rw [lexer_cursor, cursor_skip (List.length_pos_iff.2 hne : 1 ≤ _)]
  cases double with
  | true =>
    exact (trails_doubleQuoted hwhite hfits).follows (.scalar · false) false (fun _ _ => rfl)
      fun _ _ => rfl
  | false =>
    exact (trails_singleQuoted hwhite hfits).follows (.scalar · false) false (fun _ _ => rfl)
      fun _ _ => rfl

theorem follows_fetchPlain (hwhite : ∀ d ∈ F.behind, isWhite d = true) (h : F.Fits s.cursor.rest) :
    F.Follows s.fetchPlain (F.lexer s).fetchPlain := by
  unfold fetchPlain
  refine (mirrors_noteCandidate _).bind fun s₁ hnote => ?_
  rw [← noteCandidate_cursor hnote] at h
  have hmargin : (F.lexer s₁).margin = s₁.margin := rfl
  rw [lexer_inFlow, hmargin]
  have hgoes : F.Goes F.plain id
      (fun t : List Char × Spacing => plainFrom s₁.inFlow s₁.margin t.1 t.2)
      (plainScalar s₁.inFlow s₁.margin s₁.cursor)
      (plainScalar s₁.inFlow s₁.margin (F.lexer s₁).cursor) := goes_plainFrom (.inr h)
  generalize plainScalar s₁.inFlow s₁.margin s₁.cursor = x at hgoes
  generalize plainScalar s₁.inFlow s₁.margin (F.lexer s₁).cursor = y at hgoes
  cases hgoes with
  | error => exact .error
  | @ok p => exact .ok (lexer_write _ _ _ _)
  -- White space behind the text adds nothing to the scalar.
  | across t m =>
    refine .inr ⟨rfl, fun r hr => ?_⟩
    obtain ⟨p, hread, hr⟩ := Json.exists_of_bind hr
    obtain rfl := Except.ok.inj hr
    have htext : p.text = t.1.reverse := plainFrom_white hwhite hread
    have hmoves : (F.cursor ⟨[], m⟩).Moves p.after := moves_plainFrom hread
    refine ⟨p.after, p.endsLine, ?_, hmoves⟩
    show (F.lexer s₁).write (.scalar p.text true) p.endsLine p.after
      = { F.lexer (s₁.write (.scalar t.1.reverse true) t.2.isAcross ⟨[], m⟩) with
          cursor := p.after, keyAllowed := p.endsLine }
    rw [htext, ← lexer_write]
    rfl

end Lexemes

/-! ### The lexeme at the cursor -/

section Choices

variable {flow : Bool} {column : Nat} {c : Char} {rest cs : List Char}

theorem Frame.Fits.beginsPlain (h : F.Fits rest)
    (hentry : ¬ (c = '-' ∧ Yaml.atSeparation rest = true)) :
    beginsPlain flow (c :: (rest ++ F.behind)) = beginsPlain flow (c :: rest) := by
  simp only [Lexer.beginsPlain, h.atSeparation]
  cases rest with
  | cons => rfl
  | nil =>
    have hc : (c == '-') = false := beq_false_of_ne fun hc => hentry ⟨hc, rfl⟩
    simp [hc]

theorem Frame.Fits.chooseSign (h : F.Fits rest) :
    chooseSign flow c (rest ++ F.behind) = chooseSign flow c rest := by
  simp only [Lexer.chooseSign, h.atSeparation]
  by_cases hentry : c = '-' ∧ Yaml.atSeparation rest = true
  · obtain ⟨rfl, hseparation⟩ := hentry
    simp [hseparation]
  · simp only [if_neg hentry, chooseNode, h.beginsPlain hentry]

/-- The frame does not change what the lexer reads next. -/
theorem Frame.Fits.choose (h : F.Fits cs) (hne : cs ≠ []) :
    choose flow column (cs ++ F.behind) = choose flow column cs := by
  obtain ⟨c, rest, rfl⟩ := List.exists_cons_of_ne_nil hne
  have hsign : Lexer.chooseSign flow c (rest ++ F.behind) = Lexer.chooseSign flow c rest := by
    by_cases hc : c = '\n'
    · simp [hc, Lexer.chooseSign, chooseNode, Lexer.beginsPlain, isIndicator, isGap]
    · exact (h.next hc).chooseSign
  have hstart := h.atDocumentStart
  have hend := h.atDocumentEnd
  rw [List.cons_append] at hstart hend ⊢
  rw [Lexer.choose, Lexer.choose, hstart, hend, hsign]

end Choices

/-- What is asked of the text behind before a lexeme. -/
def Frame.Admits (F : Frame) (s : Lexer) : Choice → Prop
  | .block folded => F.Harmless (blockEnd folded s.margin (s.cursor.skip 1))
  | _ => True

section Lexemes

variable {s : Lexer}

theorem follows_perform (hwhite : ∀ d ∈ F.behind, isWhite d = true) (h : F.Fits s.cursor.rest)
    (hne : s.cursor.rest ≠ []) {choice : Choice} (hchoice : choice.Suits s.inFlow s.cursor.rest)
    (hadmits : F.Admits s choice) : F.Follows (s.perform choice) ((F.lexer s).perform choice) := by
  cases choice with
  | finish => exact (hne hchoice).elim
  | directive => exact follows_fetchDirective h hchoice
  | marker lexeme => exact follows_fetchMarker hchoice
  | opening lexeme => exact follows_fetchOpen hne
  | closing lexeme => exact follows_fetchClose hne
  | comma => exact follows_fetchComma hne
  | entry => exact follows_fetchEntry hne
  | key => exact follows_fetchKey hne
  | value => exact follows_fetchValue hne
  | name lexeme =>
    obtain ⟨d, hd, hhead⟩ := hchoice
    exact (leaves_fetchName h hhead hd).follows
  | tag => exact (leaves_fetchTag h hchoice).follows
  | block folded =>
    obtain ⟨d, hd, hhead⟩ := hchoice
    exact follows_fetchBlock h hhead hd hadmits
  | quoted double => exact follows_fetchQuoted hwhite h hne
  | plain => exact follows_fetchPlain hwhite h
  | fault => exact .error

end Lexemes

end SecretFill.Yaml
