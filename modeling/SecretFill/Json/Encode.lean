import SecretFill.Json.Quote
import SecretFill.Yaml.Value

namespace SecretFill.Json

/-!
# Values as JSON text

* `KeyFault` — why a key has no JSON form; nothing else can fail.
* `keyChars` — a key as a JSON string.
* `encode` — the compact JSON text of a value.
-/

open Yaml (Value)

/-- Why a key of a mapping has no JSON form. -/
inductive KeyFault where
  /-- It is neither a string nor a number nor a truth value. -/
  | notText
  /-- It is a floating point number that is not finite. -/
  | notFinite
deriving DecidableEq, Repr

/-- The wording of a key fault. -/
def KeyFault.message : KeyFault → String
  | notText => "key must be a string"
  | notFinite => "float key must be finite (got NaN or +/-inf)"

/-- The layout of floating point numbers in JSON. -/
def numeralStyle : NumeralStyle := .compact true

/-- The text of an integer. -/
def intChars (n : Int) : List Char :=
  (if n < 0 then ['-'] else []) ++ decimalDigits n.natAbs

/-- A floating point number; one that is not finite has no numeral and becomes null. -/
def floatChars : Binary64 → List Char
  | .finite negative significand exponent =>
    Binary64.numeral numeralStyle negative significand exponent
  | _ => "null".toList

/-- A key as a JSON string: numbers and truth values become their text. -/
def keyChars : Value → Except KeyFault (List Char)
  | .string s => .ok (quoteChars s.toList)
  | .int n => .ok ('"' :: (intChars n ++ ['"']))
  | .bool b => .ok ('"' :: ((Value.boolText b).toList ++ ['"']))
  | .float (.finite negative significand exponent) =>
    .ok ('"' :: (Binary64.numeral numeralStyle negative significand exponent ++ ['"']))
  | .float _ => .error .notFinite
  | _ => .error .notText

/-- The texts of the members of a collection with commas between them. -/
def commaSeparated : List (List Char) → List Char
  | [] => []
  | [text] => text
  | text :: texts => text ++ ',' :: commaSeparated texts

mutual

/-- The compact JSON text of a value; a tagged value is an object whose one key is the tag. -/
def chars : Value → Except KeyFault (List Char)
  | .null => .ok "null".toList
  | .bool b => .ok (Value.boolText b).toList
  | .int n => .ok (intChars n)
  | .float x => .ok (floatChars x)
  | .string s => .ok (quoteChars s.toList)
  | .sequence items => do return '[' :: (commaSeparated (← itemChars items) ++ [']'])
  | .mapping entries => do return '{' :: (commaSeparated (← entryChars entries) ++ ['}'])
  | .tagged tag value => do
    return '{' :: (quoteChars ('!' :: tag.toList) ++ ':' :: ((← chars value) ++ ['}']))

/-- The texts of the items of a sequence. -/
def itemChars : List Value → Except KeyFault (List (List Char))
  | [] => .ok []
  | item :: items => do
    let text ← chars item
    return text :: (← itemChars items)

/-- The texts of the entries of a mapping; of each entry the key comes first. -/
def entryChars : List (Value × Value) → Except KeyFault (List (List Char))
  | [] => .ok []
  | (key, value) :: entries => do
    let key ← keyChars key
    let value ← chars value
    return (key ++ ':' :: value) :: (← entryChars entries)

end

/-- The compact JSON text of a value. -/
def encode (value : Value) : Except KeyFault String := (chars value).map String.ofList

end SecretFill.Json
