namespace SecretFill.Json

/-!
# JSON strings

* `escape` — the characters that stand for one character of a text.
* `quote` — a text as a JSON string.
-/

/-- A hexadecimal digit. -/
def hexDigit (n : Nat) : Char := Nat.digitChar (n % 16)

/-- The characters that stand for one character: quotes, backslashes and the control characters below
    U+0020 are escaped, the last in their short form where they have one. -/
def escape (c : Char) : List Char :=
  if c = '"' then ['\\', '"']
  else if c = '\\' then ['\\', '\\']
  else if c = '\x08' then ['\\', 'b']
  else if c = '\t' then ['\\', 't']
  else if c = '\n' then ['\\', 'n']
  else if c = '\x0C' then ['\\', 'f']
  else if c = '\r' then ['\\', 'r']
  else if c.toNat < 0x20 then ['\\', 'u', '0', '0', hexDigit (c.toNat / 16), hexDigit c.toNat]
  else [c]

/-- A row of characters as a JSON string. -/
def quoteChars (cs : List Char) : List Char := '"' :: (cs.flatMap escape ++ ['"'])

/-- A text as a JSON string. -/
def quote (s : String) : String := String.ofList (quoteChars s.toList)

end SecretFill.Json
