import SecretFill.Log.Record

namespace SecretFill.Log

/-!
# Lines of the log

* `Level.label` — the name of a level, right-aligned.
* `escape` — the characters of a message; those that a terminal would obey are escaped.
* `Record.line` — a record as a line.
-/

/-- The name of a level, filled up to five characters. -/
def Level.label : Level → String
  | error => "ERROR"
  | warn => " WARN"
  | info => " INFO"
  | debug => "DEBUG"
  | trace => "TRACE"

/-- A number below 256 in two hexadecimal digits. -/
def twoDigits (n : Nat) : List Char := [Nat.digitChar (n / 16), Nat.digitChar (n % 16)]

/-- The control characters that are written as two digits: bell, backspace, form feed, escape and
    delete. -/
def isShortControl (c : Char) : Bool :=
  c == '\x07' || c == '\x08' || c == '\x0C' || c == '\x1B' || c == '\x7F'

/-- The characters that stand for one character of a message. -/
def escape (c : Char) : List Char :=
  if isShortControl c then '\\' :: 'x' :: twoDigits c.toNat
  else if 0x80 ≤ c.toNat && c.toNat < 0xA0 then
    '\\' :: 'u' :: '{' :: (twoDigits c.toNat ++ ['}'])
  else [c]

/-- A record as a line. -/
def Record.line (r : Record) : String :=
  let message := String.ofList (r.message.toList.flatMap escape)
  s!"{r.level.label} {r.target}: {message}\n"

end SecretFill.Log
