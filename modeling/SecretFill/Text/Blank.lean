namespace SecretFill.Text

/-!
# White space and trimming

White space is the Unicode property `White_Space`, which has twenty-five characters.

* `isBlank` — membership in the property.
* `trimChars`, `trim` — a text without the white space at its two ends.
-/

/-- The characters with the Unicode property `White_Space`. -/
def isBlank (c : Char) : Bool :=
  let n := c.toNat
  (0x09 ≤ n && n ≤ 0x0D) || n == 0x20 || n == 0x85 || n == 0xA0 || n == 0x1680
    || (0x2000 ≤ n && n ≤ 0x200A) || n == 0x2028 || n == 0x2029 || n == 0x202F
    || n == 0x205F || n == 0x3000

/-- Drops the white space at both ends of a list of characters. -/
def trimChars (cs : List Char) : List Char :=
  ((cs.dropWhile isBlank).reverse.dropWhile isBlank).reverse

/-- Drops the white space at both ends of a text. -/
def trim (s : String) : String := String.ofList (trimChars s.toList)

/-- A text of white space only. -/
def isAllBlank (s : String) : Bool := s.toList.all isBlank

end SecretFill.Text
