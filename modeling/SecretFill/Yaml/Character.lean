namespace SecretFill.Yaml

/-!
# Characters of YAML

The classes of characters that the reader of YAML tells apart, and the look-ahead tests built on
them.  The end of the text counts as the end of a line.

* `isAllowed` — the characters that may stand in a stream at all.
* `isBreak`, `isGap` — line breaks; spaces and tabs.
* `atLineEnd`, `atSeparation` — what follows is a break, or a break or gap, or the end.
* `atDocumentMarker` — what follows is `---` or `...` and a separation.
-/

/-- The characters that may stand in a stream. -/
def isAllowed (c : Char) : Bool :=
  let n := c.toNat
  n == 0x09 || n == 0x0A || n == 0x0D || (0x20 ≤ n && n ≤ 0x7E) || n == 0x85
    || (0xA0 ≤ n && n ≤ 0xD7FF) || (0xE000 ≤ n && n ≤ 0xFFFD) || 0x10000 ≤ n

/-- The byte order mark. -/
def byteOrderMark : Char := '\uFEFF'

/-- The characters that end a line; a carriage return and a line feed together end one line. -/
def isBreak (c : Char) : Bool :=
  c == '\n' || c == '\r' || c == '\u0085' || c == '\u2028' || c == '\u2029'

/-- The character that a line break stands for in a scalar: the two Unicode separators are kept,
    every other break is a line feed. -/
def breakValue (c : Char) : Char :=
  if c == '\u2028' || c == '\u2029' then c else '\n'

/-- A space or a tab. -/
def isGap (c : Char) : Bool := c == ' ' || c == '\t'

/-- The characters of names: ASCII letters and digits, the low line and the hyphen. -/
def isName (c : Char) : Bool := c.isAlphanum || c == '_' || c == '-'

/-- The value of a hexadecimal digit. -/
def hexValue? (c : Char) : Option Nat :=
  if c.isDigit then some (c.toNat - '0'.toNat)
  else if 'a' ≤ c && c ≤ 'f' then some (c.toNat - 'a'.toNat + 10)
  else if 'A' ≤ c && c ≤ 'F' then some (c.toNat - 'A'.toNat + 10)
  else none

/-- Whether a line ends here. -/
def atLineEnd : List Char → Bool
  | [] => true
  | c :: _ => isBreak c

/-- Whether a space, a tab or the end of a line stands here. -/
def atSeparation : List Char → Bool
  | [] => true
  | c :: _ => isGap c || isBreak c

/-- Whether `---` stands here as a word of its own. -/
def atDocumentStart : List Char → Bool
  | '-' :: '-' :: '-' :: rest => atSeparation rest
  | _ => false

/-- Whether `...` stands here as a word of its own. -/
def atDocumentEnd : List Char → Bool
  | '.' :: '.' :: '.' :: rest => atSeparation rest
  | _ => false

/-- Whether a document marker stands here. -/
def atDocumentMarker (cs : List Char) : Bool := atDocumentStart cs || atDocumentEnd cs

/-! ### Ranges of characters -/

/-- A character of a class is none that is outside of it. -/
theorem ne_of_class {p : Char → Bool} {c d : Char} (hc : p c = true) (hd : p d = false) : c ≠ d := by
  rintro rfl
  rw [hc] at hd
  cases hd

section Ranges

variable {c : Char}

theorem isLower_iff : c.isLower = true ↔ 0x61 ≤ c.toNat ∧ c.toNat ≤ 0x7A := by
  show (decide (c.val ≥ 97) && decide (c.val ≤ 122)) = true ↔ _
  simp only [Bool.and_eq_true, decide_eq_true_eq, ge_iff_le, UInt32.le_iff_toNat_le]
  exact Iff.rfl

theorem isAlphanum_iff : c.isAlphanum = true ↔ ((0x41 ≤ c.toNat ∧ c.toNat ≤ 0x5A) ∨
    (0x61 ≤ c.toNat ∧ c.toNat ≤ 0x7A)) ∨ (0x30 ≤ c.toNat ∧ c.toNat ≤ 0x39) := by
  show ((decide (c.val ≥ 65 ∧ c.val ≤ 90) || c.isLower) || c.isDigit) = true ↔ _
  simp only [Bool.or_eq_true, decide_eq_true_eq, ge_iff_le, UInt32.le_iff_toNat_le, isLower_iff,
    Char.isDigit_iff_toNat]
  exact Iff.rfl

end Ranges

end SecretFill.Yaml
