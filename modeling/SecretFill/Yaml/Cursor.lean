import SecretFill.Yaml.Character

namespace SecretFill.Yaml

/-!
# Positions and cursors

* `Mark` — a position in a stream, counted from zero in characters.
* `Fault` — that a stream is no YAML.  It knows its position and nothing else, because the stream
  is a secret and no part of it may reach a message.
* `Cursor` — a position together with the text that is left.
-/

/-- A position: characters from the start, lines, and characters from the start of the line. -/
structure Mark where
  /-- The characters before the position. -/
  index : Nat
  /-- The line breaks before the position. -/
  line : Nat
  /-- The characters between the start of the line and the position. -/
  column : Nat
deriving DecidableEq, Repr, Inhabited

namespace Mark

/-- The start of a stream. -/
def origin : Mark := ⟨0, 0, 0⟩

/-- The position behind one character that is no line break. -/
def next (m : Mark) : Mark := ⟨m.index + 1, m.line, m.column + 1⟩

/-- The position behind `n` characters none of which is a line break. -/
def skip (m : Mark) (n : Nat) : Mark := ⟨m.index + n, m.line, m.column + n⟩

/-- The position behind a line break of `width` characters. -/
def nextLine (m : Mark) (width : Nat) : Mark := ⟨m.index + width, m.line + 1, 0⟩

end Mark

/-- That a stream cannot be read as YAML, and where, if the place is known. -/
structure Fault where
  /-- The position of the fault. -/
  place : Option Mark
deriving DecidableEq, Repr, Inhabited

/-- A fault at a known position. -/
def Fault.here (mark : Mark) : Fault := ⟨some mark⟩

/-- A fault without a position. -/
def Fault.nowhere : Fault := ⟨none⟩

/-- A position with the text behind it. -/
structure Cursor where
  /-- The text that is left. -/
  rest : List Char
  /-- The position. -/
  mark : Mark
deriving DecidableEq, Repr, Inhabited

namespace Cursor

/-- Moves behind `n` characters none of which is a line break. -/
def skip (c : Cursor) (n : Nat) : Cursor := ⟨c.rest.drop n, c.mark.skip n⟩

/-- Moves behind the characters of a class that holds no line break. -/
def skipWhile (p : Char → Bool) (c : Cursor) : Cursor :=
  ⟨c.rest.dropWhile p, c.mark.skip (c.rest.takeWhile p).length⟩

/-- Moves behind the line break that stands here, if one does. -/
def skipBreak (c : Cursor) : Cursor :=
  match c.rest with
  | '\r' :: '\n' :: rest => ⟨rest, c.mark.nextLine 2⟩
  | b :: rest => if isBreak b then ⟨rest, c.mark.nextLine 1⟩ else c
  | [] => c

/-- Moves to the end of the line: gaps, then a comment, then the line break.  Anything else on the
    line is a fault. -/
def finishLine (c : Cursor) : Except Fault Cursor :=
  let c := c.skipWhile isGap
  let c := if c.rest.head? = some '#' then c.skipWhile fun d => !isBreak d else c
  if atLineEnd c.rest then .ok c.skipBreak else .error (.here c.mark)

end Cursor

end SecretFill.Yaml
