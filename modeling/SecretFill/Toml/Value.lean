import SecretFill.Number.Binary64

namespace SecretFill.Toml

/-!
# TOML values

A document is a table whose entries keep their order.  Every key and every value knows where it
stands in the text, because a setting of the wrong shape is shown in its line.

* `Span` — a part of the text.
* `Value` — the values; `Value.span`, `Value.typeName`.
* `Origin` — how a table came to be, which decides what may still be added to it.
-/

/-- A part of a text, kept as the numbers of characters that are left at its two ends. -/
structure Span where
  /-- The characters left at the start. -/
  atStart : Nat
  /-- The characters left at the end. -/
  atEnd : Nat
deriving DecidableEq, Repr, Inhabited

/-- A key with its place. -/
structure Key where
  /-- The place. -/
  span : Span
  /-- The text without quotes. -/
  text : String
deriving DecidableEq, Repr, Inhabited

/-- How a table came to be. -/
inductive Origin where
  /-- By a header of its own; the whole document counts as such a table. -/
  | header
  /-- By the header of a table inside it. -/
  | path
  /-- By a dotted key. -/
  | dotted
  /-- In braces. -/
  | braces
deriving DecidableEq, Repr, Inhabited

/-- A value. -/
inductive Value where
  /-- A text. -/
  | string (span : Span) (text : String)
  /-- An integer of any size. -/
  | integer (span : Span) (n : Int)
  /-- A floating point number; absent if it is too large. -/
  | float (span : Span) (x : Option Binary64)
  /-- A truth value. -/
  | boolean (span : Span) (b : Bool)
  /-- A date, a time or both. -/
  | moment (span : Span)
  /-- An array; one that is made of headers grows with each of them. -/
  | array (span : Span) (grows : Bool) (items : List Value)
  /-- A table. -/
  | table (span : Span) (origin : Origin) (entries : List (Key × Value))
deriving Repr, Inhabited

/-- The entries of a table in the order of the text. -/
abbrev Entries := List (Key × Value)

namespace Value

/-- The place of a value.  A table or an array of headers stands at its first header, a table that
    only a longer key or header implies stands at its part of that. -/
def span : Value → Span
  | string span _ | integer span _ | float span _ | boolean span _ | moment span
  | array span _ _ | table span _ _ => span

/-- The name of the type of a value. -/
def typeName : Value → String
  | string .. => "string"
  | integer .. => "integer"
  | float .. => "float"
  | boolean .. => "boolean"
  | moment .. => "datetime"
  | array .. => "array"
  | table .. => "table"

mutual

/-- Whether all numbers fit into words of 64 bits, signed ones for integers. -/
def fits : Value → Bool
  | integer _ n => -2 ^ 63 ≤ n && n < 2 ^ 63
  | float _ x => x.isSome
  | array _ _ items => allFit items
  | table _ _ entries => entriesFit entries
  | _ => true

/-- `fits` for a row of values. -/
def allFit : List Value → Bool
  | [] => true
  | v :: rest => v.fits && allFit rest

/-- `fits` for the entries of a table. -/
def entriesFit : List (Key × Value) → Bool
  | [] => true
  | (_, v) :: rest => v.fits && entriesFit rest

end

end Value

end SecretFill.Toml
