import SecretFill.Number.Numeral
import SecretFill.Number.Radix
import SecretFill.Text.Components
import SecretFill.Toml.Value

namespace SecretFill.Toml

/-!
# Scalars without quotes

The type of a scalar follows from its text: a truth value, an integer, a floating point number, or
a date, a time or both.

* `ungroup?` — digits between which underscores may stand.
* `integer?`, `decimal?`, `isMoment` — the texts of the types.
* `scalar?` — the value of a text.
-/

/-- The digits of a text in which single underscores may stand between digits. -/
def ungroup? (isDigit : Char → Bool) (cs : List Char) : Option (List Char) :=
  let groups := components '_' cs
  if groups.all fun group => !group.isEmpty && group.all isDigit then some groups.flatten else none

/-- The digits of a decimal integer, which has no leading zero. -/
def wholeDigits? (cs : List Char) : Option (List Char) :=
  (ungroup? Char.isDigit cs).filter fun ds => ds.length == 1 || ds.head? != some '0'

/-- Splits off a sign: whether it is a minus, and what follows. -/
def splitSign : List Char → Bool × List Char
  | '-' :: rest => (true, rest)
  | '+' :: rest => (false, rest)
  | cs => (false, cs)

/-- A number in a base that is marked by two characters. -/
def based? (base : Nat) (cs : List Char) : Option Int :=
  let isDigit := fun c => (digitValue? base c).isSome
  ((ungroup? isDigit cs).bind (readNat? base)).map Int.ofNat

/-- The integer that a text writes. -/
def integer? (cs : List Char) : Option Int :=
  match cs with
  | '0' :: 'x' :: ds => based? 16 ds
  | '0' :: 'o' :: ds => based? 8 ds
  | '0' :: 'b' :: ds => based? 2 ds
  | cs =>
    let (negative, ds) := splitSign cs
    ((wholeDigits? ds).map digitsValue).map fun n => if negative then -(n : Int) else n

/-- The fraction behind a decimal point; without a point it is empty. -/
def fraction? : List Char → Option (List Char)
  | [] => some []
  | '.' :: cs => ungroup? Char.isDigit cs
  | _ => none

/-- The exponent behind its mark; without a mark it is zero. -/
def power? : List Char → Option Int
  | [] => some 0
  | _ :: cs =>
    let (negative, ds) := splitSign cs
    ((ungroup? Char.isDigit ds).map digitsValue).map fun n => if negative then -(n : Int) else n

/-- The floating point number that a text writes; one that is too large is an infinity. -/
def decimal? (cs : List Char) : Option Binary64 :=
  let (negative, ds) := splitSign cs
  let isMark := fun c => c == 'e' || c == 'E'
  let mantissa := ds.takeWhile fun c => !isMark c
  let whole := mantissa.takeWhile (· ≠ '.')
  match wholeDigits? whole, fraction? (mantissa.dropWhile (· ≠ '.')),
      power? (ds.dropWhile fun c => !isMark c) with
  | some whole, some fraction, some power =>
    some (Binary64.ofDecimal negative (digitsValue (whole ++ fraction)) (power - fraction.length))
  | _, _, _ => none

/-- The floating point number of a text; `some none` stands for one that is too large. -/
def float? (cs : List Char) : Option (Option Binary64) :=
  let (negative, ds) := splitSign cs
  if ds = "inf".toList then some (some (.infinite negative))
  else if ds = "nan".toList then some (some .nan)
  else (decimal? cs).map fun x => if x.isFinite then some x else none

/-- The number of two digits. -/
def twoDigits? : List Char → Option Nat
  | [a, b] => if a.isDigit && b.isDigit then some (digitsValue [a, b]) else none
  | _ => none

/-- The days of a month. -/
def monthDays (year month : Nat) : Nat :=
  if month = 2 then
    if year % 4 = 0 ∧ (year % 100 ≠ 0 ∨ year % 400 = 0) then 29 else 28
  else if month = 4 ∨ month = 6 ∨ month = 9 ∨ month = 11 then 30
  else 31

/-- A date, `YYYY-MM-DD`. -/
def isDate (cs : List Char) : Bool :=
  match components '-' cs with
  | [year, month, day] =>
    match twoDigits? month, twoDigits? day with
    | some m, some d =>
      year.length == 4 && year.all Char.isDigit && 1 ≤ m && m ≤ 12 && 1 ≤ d
        && d ≤ monthDays (digitsValue year) m
    | _, _ => false
  | _ => false

/-- Whether two digits write a number up to a bound. -/
def isUpTo (bound : Nat) (cs : List Char) : Bool := (twoDigits? cs).any (· ≤ bound)

/-- The seconds of a time, perhaps with a fraction. -/
def areSeconds (cs : List Char) : Bool :=
  isUpTo 60 (cs.take 2) &&
    match cs.drop 2 with
    | [] => true
    | c :: fraction => c == '.' && !fraction.isEmpty && fraction.all Char.isDigit

/-- A time, `hh:mm` or `hh:mm:ss`. -/
def isTime (cs : List Char) : Bool :=
  match components ':' cs with
  | [hour, minute] => isUpTo 23 hour && isUpTo 59 minute
  | [hour, minute, seconds] => isUpTo 23 hour && isUpTo 59 minute && areSeconds seconds
  | _ => false

/-- A time with an offset from universal time, `Z` or `+hh:mm`, or without one. -/
def isTimeWithOffset (cs : List Char) : Bool :=
  let isOffset := fun c => c == 'Z' || c == 'z' || c == '+' || c == '-'
  isTime (cs.takeWhile fun c => !isOffset c) &&
    match cs.dropWhile fun c => !isOffset c with
    | [] => true
    | c :: offset =>
      if c == 'Z' || c == 'z' then offset.isEmpty
      else
        match components ':' offset with
        | [hour, minute] => isUpTo 23 hour && isUpTo 59 minute
        | _ => false

/-- Whether a text is a date, a time, or a date and a time with `T` or a space between. -/
def isMoment (cs : List Char) : Bool :=
  isTime cs || isDate cs ||
    isDate (cs.take 10) &&
      match cs.drop 10 with
      | c :: time => (c == 'T' || c == 't' || c == ' ') && isTimeWithOffset time
      | [] => false

/-- The value of a scalar. -/
def scalar? (span : Span) (cs : List Char) : Option Value :=
  if cs = "true".toList then some (.boolean span true)
  else if cs = "false".toList then some (.boolean span false)
  else
    match integer? cs, float? cs with
    | some n, _ => some (.integer span n)
    | none, some x => some (.float span x)
    | none, none => if isMoment cs then some (.moment span) else none

/-- The characters of scalars. -/
def isScalarCharacter (c : Char) : Bool :=
  c.isAlphanum || c == '_' || c == '-' || c == '+' || c == '.' || c == ':'

/-- Splits off the text of a scalar.  A space joins a date and a time. -/
def splitScalar (cs : List Char) : List Char × List Char :=
  let word := cs.takeWhile isScalarCharacter
  let rest := cs.dropWhile isScalarCharacter
  match rest with
  | ' ' :: c :: rest' =>
    if isDate word && c.isDigit then
      (word ++ ' ' :: (c :: rest').takeWhile isScalarCharacter, rest'.dropWhile isScalarCharacter)
    else (word, rest)
  | rest => (word, rest)

end SecretFill.Toml
