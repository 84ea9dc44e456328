import SecretFill.Number.Numeral

namespace SecretFill.Yaml

/-!
# Values of YAML

* `Value` — a value; the entries of a mapping keep their order.
* `Value.same` — equality of values, by which keys are told apart.
* `Value.kind` — what a value is called in messages.
* `Value.keyText?` — the text by which a scalar key can be asked for.
-/

/-- A value.  Integers lie in the ranges of signed and unsigned 64-bit words; a tag is kept without
    the exclamation mark that is written before it. -/
inductive Value where
  /-- Nothing. -/
  | null
  /-- A truth value. -/
  | bool (b : Bool)
  /-- An integer. -/
  | int (n : Int)
  /-- A floating point number. -/
  | float (x : Binary64)
  /-- A text. -/
  | string (s : String)
  /-- A sequence. -/
  | sequence (items : List Value)
  /-- A mapping. -/
  | mapping (entries : List (Value × Value))
  /-- A value with a tag of the application. -/
  | tagged (tag : String) (value : Value)
deriving Repr, Inhabited

/-- A tag without its one leading exclamation mark; the tag that is nothing else stays. -/
def bareTag (tag : String) : String :=
  match tag.toList with
  | '!' :: c :: rest => String.ofList (c :: rest)
  | _ => tag

namespace Value

mutual

/-- Equality of values: an integer is no floating point number, and the order of the entries of a
    mapping does not matter. -/
def same : Value → Value → Bool
  | null, null => true
  | bool a, bool b => a == b
  | int m, int n => m == n
  | float x, float y => x.same y
  | string s, string t => s == t
  | sequence items, sequence others => sameItems items others
  | mapping entries, mapping others =>
    entries.length == others.length && sameEntries entries others
  | tagged tag value, tagged other value' => tag == other && same value value'
  | _, _ => false

/-- Equality of sequences. -/
def sameItems : List Value → List Value → Bool
  | [], [] => true
  | item :: items, other :: others => same item other && sameItems items others
  | _, _ => false

/-- Whether every entry of the first mapping has an equal one in the second. -/
def sameEntries : List (Value × Value) → List (Value × Value) → Bool
  | [], _ => true
  | (key, value) :: entries, others =>
    (match others.find? fun other => same key other.1 with
    | some other => same value other.2
    | none => false) && sameEntries entries others

end

/-- What a value is called in messages. -/
def kind : Value → String
  | null => "null"
  | bool _ => "a boolean"
  | int _ | float _ => "a number"
  | string _ => "a plain string"
  | sequence _ => "a list"
  | mapping _ => "a mapping"
  | tagged .. => "a tagged value"

/-- The layout of floating point numbers in YAML. -/
def numeralStyle : NumeralStyle := .compact false

/-- The text of a floating point number. -/
def floatText : Binary64 → String
  | .nan => ".nan"
  | .infinite negative => if negative then "-.inf" else ".inf"
  | .finite negative significand exponent =>
    String.ofList (Binary64.numeral numeralStyle negative significand exponent)

/-- The text of a truth value. -/
def boolText (b : Bool) : String := if b then "true" else "false"

/-- The text by which a scalar key can be asked for: a string as it is, a number or a truth value as
    it is printed. -/
def keyText? : Value → Option String
  | string s => some s
  | int n => some (toString n)
  | float x => some (floatText x)
  | bool b => some (boolText b)
  | _ => none

end Value

end SecretFill.Yaml
