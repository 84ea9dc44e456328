namespace SecretFill

/-!
# Double precision numbers

A binary64 number is kept as an exact dyadic rational, so that reading, comparing and printing
are arithmetic on natural numbers.

* `Binary64` — a number, an infinity or not-a-number.
* `Binary64.ofRatio` — the nearest number to a quotient, ties to the even significand.
* `Binary64.ofDecimal` — the nearest number to `digits · 10 ^ exponent`.
* `Binary64.same` — the equality that keys are compared with.
-/

/-- A double precision number.  A finite one is `significand · 2 ^ exponent`, where the significand
    has 53 bits or the exponent is the least one, −1074; zero has the exponent −1074. -/
inductive Binary64 where
  /-- Not a number. -/
  | nan
  /-- An infinity with its sign. -/
  | infinite (negative : Bool)
  /-- A finite number with its sign. -/
  | finite (negative : Bool) (significand : Nat) (exponent : Int)
deriving DecidableEq, Repr, Inhabited

namespace Binary64

/-- The least exponent. -/
def minExponent : Int := -1074

/-- The greatest exponent of a finite number. -/
def maxExponent : Int := 971

/-- Multiplies a quotient by `2 ^ (-exponent)`, as a numerator and a denominator. -/
def scale (num den : Nat) (exponent : Int) : Nat × Nat :=
  match exponent with
  | .ofNat e => (num, den * Nat.pow 2 e)
  | .negSucc e => (num * Nat.pow 2 (e + 1), den)

/-- The integer nearest to a quotient, a half going to the even neighbour. -/
def roundHalfEven (num den : Nat) : Nat :=
  let q := num / den
  let r := num % den
  if 2 * r < den then q
  else if den < 2 * r then q + 1
  else if q % 2 = 0 then q
  else q + 1

/-- The exponent at which a positive quotient has a significand of 53 bits, or the least one. -/
def exponentFor (num den : Nat) : Int :=
  let guess : Int := (Nat.log2 num : Int) - (Nat.log2 den : Int) - 52
  let (n, d) := scale num den guess
  max minExponent (if n / d < Nat.pow 2 52 then guess - 1 else guess)

/-- The nearest number to `num / den`, for a positive denominator. -/
def ofRatio (negative : Bool) (num den : Nat) : Binary64 :=
  if num = 0 then finite negative 0 minExponent
  else
    let exponent := exponentFor num den
    let (n, d) := scale num den exponent
    let significand := roundHalfEven n d
    let (significand, exponent) :=
      if significand = Nat.pow 2 53 then (Nat.pow 2 52, exponent + 1) else (significand, exponent)
    if maxExponent < exponent then infinite negative
    else finite negative significand exponent

/-- The nearest number to `digits · 10 ^ exponent`.  Far outside the range of binary64 the power is
    not computed. -/
def ofDecimal (negative : Bool) (digits : Nat) (exponent : Int) : Binary64 :=
  let magnitude : Int := (Nat.toDigits 10 digits).length + exponent
  if digits = 0 ∨ magnitude < -400 then finite negative 0 minExponent
  else if 400 < magnitude then infinite negative
  else
    match exponent with
    | .ofNat e => ofRatio negative (digits * Nat.pow 10 e) 1
    | .negSucc e => ofRatio negative digits (Nat.pow 10 (e + 1))

/-- Whether a number is finite. -/
def isFinite : Binary64 → Bool
  | finite .. => true
  | _ => false

/-- Equality of keys: not-a-number equals itself, and the two zeros are equal. -/
def same : Binary64 → Binary64 → Bool
  | nan, nan => true
  | infinite s, infinite t => s == t
  | finite s m e, finite t n f => m == n && e == f && (s == t || m == 0)
  | _, _ => false

end Binary64

end SecretFill
