import Mathlib.Data.List.Infix
import SecretFill.Proofs.Encoding
import SecretFill.Yaml.Lexer

namespace SecretFill.Yaml

/-!
# How far the scanners move

A scanner moves its cursor over characters of a line and over line breaks, and never back.

* `Mark.Before` — one position is before another one, line by line.
* `Cursor.Moves` — a cursor moves on over its text.
* `moves_plainFrom`, `moves_doubleFrom`, `moves_blockFrom`, `moves_skipFrom` — so does every scanner.
-/

/-- One position is before another one, line by line. -/
def Mark.Before (m m' : Mark) : Prop :=
  m.line < m'.line ∨ m.line = m'.line ∧ m.column < m'.column

theorem Mark.Before.trans {m m' m'' : Mark} (h : m.Before m') (h' : m'.Before m'') :
    m.Before m'' := by
  simp only [Mark.Before] at *
  omega

namespace Cursor

/-- A cursor moves on over its text: over a character of a line, or over a line break. -/
inductive Moves : Cursor → Cursor → Prop where
  /-- It stays. -/
  | refl (c : Cursor) : Moves c c
  /-- Over a character. -/
  | next {d : Char} {cs : List Char} {m : Mark} {c : Cursor} :
    Moves ⟨cs, m.next⟩ c → Moves ⟨d :: cs, m⟩ c
  /-- Over a line break of one character. -/
  | nextLine {d : Char} {cs : List Char} {m : Mark} {c : Cursor} :
    Moves ⟨cs, m.nextLine 1⟩ c → Moves ⟨d :: cs, m⟩ c
  /-- Over a line break of two characters. -/
  | nextLine_two {d e : Char} {cs : List Char} {m : Mark} {c : Cursor} :
    Moves ⟨cs, m.nextLine 2⟩ c → Moves ⟨d :: e :: cs, m⟩ c

variable {c c' c'' : Cursor} {cs : List Char} {m : Mark}

theorem Moves.trans (h : c.Moves c') (h' : c'.Moves c'') : c.Moves c'' := by
  induction h with
  | refl => exact h'
  | next _ ih => exact .next (ih h')
  | nextLine _ ih => exact .nextLine (ih h')
  | nextLine_two _ ih => exact .nextLine_two (ih h')

/-- What is left is the end of what was left. -/
theorem Moves.suffix (h : c.Moves c') : c'.rest <:+ c.rest := by
  induction h with
  | refl => exact List.suffix_refl _
  | next _ ih => exact ih.trans (List.suffix_cons _ _)
  | nextLine _ ih => exact ih.trans (List.suffix_cons _ _)
  | nextLine_two _ ih => exact ih.trans ((List.suffix_cons _ _).trans (List.suffix_cons _ _))

/-- The index counts the characters. -/
theorem Moves.index (h : c.Moves c') :
    c'.mark.index + c'.rest.length = c.mark.index + c.rest.length := by
  induction h with
  | refl => rfl
  | next _ ih | nextLine _ ih | nextLine_two _ ih =>
    rw [ih]
    simp only [Mark.next, Mark.nextLine, List.length_cons]
    omega

/-- A cursor that moves at all leaves less text, and its position comes later. -/
theorem Moves.eq_or_before (h : c.Moves c') :
    c' = c ∨ c'.rest.length < c.rest.length ∧ c.mark.Before c'.mark := by
  -- Every step takes characters off and moves the position on, so any number of steps does.
  induction h with
  | refl => exact .inl rfl
  | @next _ _ m _ _ ih =>
    have hm : m.Before m.next := .inr ⟨rfl, Nat.lt_succ_self _⟩
    rcases ih with rfl | ⟨hlt, hbefore⟩
    · exact .inr ⟨Nat.lt_succ_self _, hm⟩
    · exact .inr ⟨Nat.lt_succ_of_lt hlt, hm.trans hbefore⟩
  | @nextLine _ _ m _ _ ih =>
    have hm : m.Before (m.nextLine 1) := .inl (Nat.lt_succ_self _)
    rcases ih with rfl | ⟨hlt, hbefore⟩
    · exact .inr ⟨Nat.lt_succ_self _, hm⟩
    · exact .inr ⟨Nat.lt_succ_of_lt hlt, hm.trans hbefore⟩
  | @nextLine_two _ _ cs m _ _ ih =>
    have hm : m.Before (m.nextLine 2) := .inl (Nat.lt_succ_self _)
    have hlength : cs.length < cs.length + 2 := by omega
    rcases ih with rfl | ⟨hlt, hbefore⟩
    · exact .inr ⟨hlength, hm⟩
    · exact .inr ⟨hlt.trans hlength, hm.trans hbefore⟩

theorem Moves.length_le (h : c.Moves c') : c'.rest.length ≤ c.rest.length := h.suffix.length_le

theorem Moves.index_le (h : c.Moves c') : c.mark.index ≤ c'.mark.index := by
  have hindex := h.index
  have hlength := h.length_le
  omega

/-- Over some characters of a line. -/
theorem moves_skip {n : Nat} (h : n ≤ cs.length) : Moves ⟨cs, m⟩ ⟨cs.drop n, m.skip n⟩ := by
  induction n generalizing cs m with
  | zero => exact .refl _
  | succ n ih =>
    cases cs with
    | nil => cases h
    | cons d cs =>
      have hmark : m.skip (n + 1) = m.next.skip n := by
        simp [Mark.skip, Mark.next, Nat.add_comm, Nat.add_left_comm]
      rw [hmark]
      exact .next (ih (Nat.le_of_succ_le_succ h))

theorem skip_takeWhile (c : Cursor) (p : Char → Bool) :
    c.skip (c.rest.takeWhile p).length = c.skipWhile p := by
  have hdrop : c.rest.drop (c.rest.takeWhile p).length = c.rest.dropWhile p := by
    conv => lhs; rhs; rw [← List.takeWhile_append_dropWhile (p := p) (l := c.rest)]
    rw [List.drop_left]
  rw [skip, skipWhile, hdrop]

theorem moves_skipWhile (p : Char → Bool) : c.Moves (c.skipWhile p) := by
  rw [← skip_takeWhile]
  exact moves_skip (List.takeWhile_sublist p).length_le

theorem moves_skipBreak : c.Moves c.skipBreak := by
  obtain ⟨rest, mark⟩ := c
  unfold skipBreak
  split
  · rename_i heq
    obtain rfl := heq
    exact .nextLine_two (.refl _)
  · rename_i heq
    obtain rfl := heq
    split
    · exact .nextLine (.refl _)
    · exact .refl _
  · exact .refl _

/-- Over a comment, if one stands here. -/
def skipComment (c : Cursor) : Cursor :=
  if c.rest.head? = some '#' then c.skipWhile fun d => !isBreak d else c

theorem finishLine_eq (c : Cursor) :
    c.finishLine = if atLineEnd (c.skipWhile isGap).skipComment.rest
      then .ok (c.skipWhile isGap).skipComment.skipBreak
      else .error (.here (c.skipWhile isGap).skipComment.mark) := rfl

theorem moves_skipComment : c.Moves c.skipComment := by
  unfold skipComment
  split
  · exact moves_skipWhile _
  · exact .refl _

theorem moves_finishLine (h : c.finishLine = .ok c') : c.Moves c' := by
  rw [finishLine_eq] at h
  split at h
  · obtain rfl := Except.ok.inj h
    exact (moves_skipWhile _).trans (moves_skipComment.trans moves_skipBreak)
  · cases h

end Cursor

open Cursor

variable {c c' : Cursor} {cs : List Char} {m : Mark}

theorem moves_plainFrom {flow : Bool} {margin : Nat} {read : List Char} {spacing : Spacing}
    {p : PlainScalar} (h : plainFrom flow margin read spacing cs m = .ok p) :
    Moves ⟨cs, m⟩ p.after := by
  fun_induction plainFrom flow margin read spacing cs m with
  | case2 _ _ _ _ ih => exact .nextLine_two (ih h)
  | case3 _ _ _ _ _ _ _ ih => exact .nextLine (ih h)
  | case5 | case9 =>
    rename_i ih
    exact .next (ih h)
  | case4 | case7 => cases h
  | case1 | case6 | case8 =>
    obtain rfl := Except.ok.inj h
    exact .refl _

theorem moves_singleFrom {read : List Char} {spacing : Spacing} {text : List Char}
    (h : singleFrom read spacing cs m = .ok (text, c')) : Moves ⟨cs, m⟩ c' := by
  fun_induction singleFrom read spacing cs m with
  -- The cases that go on take one character or two; only the closing quote ends the scalar.
  | case2 =>
    rename_i ih
    exact .nextLine_two (ih h)
  | case3 =>
    rename_i ih
    exact .nextLine (ih h)
  | case4 | case8 =>
    rename_i ih
    exact .next (ih h)
  | case6 =>
    rename_i ih
    exact .next (.next (ih h))
  | case7 =>
    obtain ⟨-, rfl⟩ := Prod.mk.inj (Except.ok.inj h)
    exact .next (.refl _)
  | case1 | case5 => cases h

theorem moves_doubleFrom {read : List Char} {state : QuoteState} {text : List Char}
    (h : doubleFrom read state cs m = .ok (text, c')) : Moves ⟨cs, m⟩ c' := by
  fun_induction doubleFrom read state cs m with
  | case4 | case11 =>
    rename_i ih
    exact .nextLine_two (ih h)
  | case5 | case12 =>
    rename_i ih
    exact .nextLine (ih h)
  | case6 | case9 | case10 | case13 | case14 | case17 | case19 =>
    rename_i ih
    exact .next (ih h)
  | case8 =>
    obtain ⟨-, rfl⟩ := Prod.mk.inj (Except.ok.inj h)
    exact .next (.refl _)
  | case1 | case2 | case3 | case7 | case15 | case16 | case18 => cases h

theorem moves_blockFrom {folded : Bool} {chomping : Chomping} {margin : Nat} {b : BlockText}
    {state : BlockState} {text : List Char}
    (h : blockFrom folded chomping margin b state cs m = .ok (text, c')) : Moves ⟨cs, m⟩ c' := by
  fun_induction blockFrom folded chomping margin b state cs m with
  | case2 | case5 =>
    rename_i ih
    exact .nextLine_two (ih h)
  | case3 | case6 =>
    rename_i ih
    exact .nextLine (ih h)
  | case4 | case7 | case9 =>
    rename_i ih
    exact .next (ih h)
  | case1 | case10 =>
    obtain ⟨-, rfl⟩ := Prod.mk.inj (Except.ok.inj h)
    exact .refl _
  | case8 => cases h

theorem moves_skipFrom {flow keyAllowed comment : Bool} :
    Moves ⟨cs, m⟩ (Lexer.skipFrom flow keyAllowed comment cs m).2 := by
  fun_induction Lexer.skipFrom flow keyAllowed comment cs m with
  | case2 _ _ _ _ ih => exact .nextLine_two ih
  | case3 =>
    rename_i ih
    exact .nextLine ih
  | case4 | case5 | case6 =>
    rename_i ih
    exact .next ih
  | case1 | case7 => exact .refl _

end SecretFill.Yaml
