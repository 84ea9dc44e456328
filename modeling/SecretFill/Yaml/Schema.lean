import SecretFill.Number.Radix
import SecretFill.Yaml.Value

namespace SecretFill.Yaml

/-!
# The types of plain scalars

A scalar without quotes and without a tag is typed by its text: nothing, a truth value, an
integer, a floating point number or else a string.

* `nullText`, `boolValue?`, `integer?`, `floatValue?` — the spellings of the types.
* `plainValue?` — the value of a plain scalar.
-/

/-- The spellings of the absent value, apart from the empty text. -/
def isNullText (cs : List Char) : Bool :=
  cs == "null".toList || cs == "Null".toList || cs == "NULL".toList || cs == "~".toList

/-- The spellings of the truth values. -/
def boolValue? (cs : List Char) : Option Bool :=
  if cs == "true".toList || cs == "True".toList || cs == "TRUE".toList then some true
  else if cs == "false".toList || cs == "False".toList || cs == "FALSE".toList then some false
  else none

/-- Whether a text is a row of digits with a leading zero that is not needed; such a text is no
    number. -/
def isZeroPadded (cs : List Char) : Bool :=
  match (match cs with | '-' :: ds | '+' :: ds => ds | ds => ds) with
  | '0' :: d :: ds => (d :: ds).all Char.isDigit
  | _ => false

/-- A row of digits with the mark of its base: `0x`, `0o` or `0b`. -/
def readBased? : List Char → Option Nat
  | '0' :: 'x' :: ds => readNat? 16 ds
  | '0' :: 'o' :: ds => readNat? 8 ds
  | '0' :: 'b' :: ds => readNat? 2 ds
  | _ => none

/-- The integer that a text spells, of any size. -/
def integer? (cs : List Char) : Option Int :=
  match cs with
  | '-' :: ds =>
    ((readBased? ds).or (if isZeroPadded cs then none else readNat? 10 ds)).map fun n => -(n : Int)
  | cs =>
    let ds := match cs with | '+' :: ds => ds | ds => ds
    ((readBased? ds).or (if isZeroPadded cs then none else readNat? 10 ds)).map Int.ofNat

/-- What becomes of an integer: it is kept, it is refused, or its text is no integer after all. -/
inductive IntegerFit where
  /-- It fits into a 64-bit word. -/
  | fits
  /-- It fits into a word of 128 bits only. -/
  | wide
  /-- It is larger still. -/
  | huge
deriving DecidableEq, Repr

/-- How an integer fits; the non-negative words are unsigned. -/
def integerFit (n : Int) : IntegerFit :=
  if -(Nat.pow 2 63) ≤ n ∧ n < Nat.pow 2 64 then .fits
  else if -(Nat.pow 2 127) ≤ n ∧ n < Nat.pow 2 128 then .wide
  else .huge

/-- The floating point number that a text spells.  A finite decimal that is too large is none. -/
def floatValue? (cs : List Char) : Option Binary64 :=
  let isInf := fun ds : List Char => ds == ".inf".toList || ds == ".Inf".toList || ds == ".INF".toList
  let unsigned? : Option (List Char) :=
    match cs with
    | '+' :: ds => if ds.head? = some '+' ∨ ds.head? = some '-' then none else some ds
    | cs => some cs
  match unsigned? with
  | none => none
  | some ds =>
    if isInf ds then some (.infinite false)
    else if cs.head? = some '-' && isInf (cs.drop 1) then some (.infinite true)
    else if cs == ".nan".toList || cs == ".NaN".toList || cs == ".NAN".toList then some .nan
    else (readDecimal? ds).filter Binary64.isFinite

/-- A number or a string: what a text is that spells no absent value and no truth value.  An integer
    that only fits into a wide word is refused. -/
def numberOrString? (cs : List Char) : Option Value :=
  let other :=
    match if isZeroPadded cs then none else floatValue? cs with
    | some x => Value.float x
    | none => Value.string (String.ofList cs)
  match integer? cs with
  | none => some other
  | some n =>
    match integerFit n with
    | .fits => some (.int n)
    | .wide => none
    | .huge => some other

/-- The value of a plain scalar. -/
def plainValue? (cs : List Char) : Option Value :=
  if cs.isEmpty || isNullText cs then some .null
  else
    match boolValue? cs with
    | some b => some (.bool b)
    | none => numberOrString? cs

end SecretFill.Yaml
