import SecretFill.Yaml.Character

namespace SecretFill.Yaml

/-!
# Line folding

Between two words of a flow scalar stands white space that may hold line breaks.  Without a break
it is kept as it is.  With breaks the gaps are dropped; the first break is dropped too if it is a
line feed, and stands for a space when no other break follows.

* `Spacing` — the white space read since the last word.
* `Spacing.gap`, `Spacing.lineBreak` — reading one more character of it.
* `Spacing.text` — what it stands for once the next word begins.
-/

/-- White space between two words; both lists hold the latest character first. -/
inductive Spacing where
  /-- No line break so far, only these gaps. -/
  | within (gaps : List Char)
  /-- A first break, absent where a backslash took it away, and the breaks after it. -/
  | across (first : Option Char) (others : List Char)
deriving DecidableEq, Repr, Inhabited

namespace Spacing

/-- No white space. -/
def empty : Spacing := within []

/-- Whether no white space was read. -/
def isEmpty : Spacing → Bool
  | within gaps => gaps.isEmpty
  | across .. => false

/-- Whether a line break was read. -/
def isAcross : Spacing → Bool
  | within _ => false
  | across .. => true

/-- Reads a gap. -/
def gap (c : Char) : Spacing → Spacing
  | within gaps => within (c :: gaps)
  | across first others => across first others

/-- Reads a line break. -/
def lineBreak (c : Char) : Spacing → Spacing
  | within _ => across (some (breakValue c)) []
  | across first others => across first (breakValue c :: others)

/-- What the white space stands for, the latest character first. -/
def text : Spacing → List Char
  | within gaps => gaps
  | across (some '\n') [] => [' ']
  | across (some '\n') others => others
  | across (some c) others => others ++ [c]
  | across none others => others

end Spacing

end SecretFill.Yaml
