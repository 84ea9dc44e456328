import SecretFill.Number.Binary64

namespace SecretFill

/-!
# The shortest decimal of a number

Among the decimals that read back as a given binary64 number, those with the fewest digits are
the shortest, and of these the one nearest to the number is taken, a tie going to the even digit.

* `Rounding` — a positive number and the interval of the reals that round to it.
* `Rounding.onGrid` — the decimal of an interval on one decimal grid.
* `Binary64.shortest` — digits and exponent of the shortest decimal.
-/

/-- A positive number with its rounding interval; all three points are multiples of one unit,
    `unitNum / unitDen`. -/
structure Rounding where
  /-- The lower end of the interval. -/
  low : Nat
  /-- The number itself. -/
  value : Nat
  /-- The upper end of the interval. -/
  high : Nat
  /-- Whether the two ends round to the number too. -/
  closed : Bool
  /-- The numerator of the unit. -/
  unitNum : Nat
  /-- The denominator of the unit. -/
  unitDen : Nat

namespace Rounding

/-- The rounding interval of `significand · 2 ^ exponent`.  Below a power of two the neighbours are
    twice as dense; the ends belong to an even significand. -/
def of (significand : Nat) (exponent : Int) : Rounding :=
  let boundary := significand = Nat.pow 2 52 ∧ Binary64.minExponent < exponent
  let (unitNum, unitDen) :=
    match exponent - 2 with
    | .ofNat e => (Nat.pow 2 e, 1)
    | .negSucc e => (1, Nat.pow 2 (e + 1))
  { low := if boundary then 4 * significand - 1 else 4 * significand - 2
    value := 4 * significand
    high := 4 * significand + 2
    closed := significand % 2 = 0
    unitNum
    unitDen }

/-- Whether `digits · gridNum / gridDen` lies in the interval. -/
def contains (r : Rounding) (gridNum gridDen digits : Nat) : Bool :=
  let point := digits * gridNum * r.unitDen
  let low := r.low * r.unitNum * gridDen
  let high := r.high * r.unitNum * gridDen
  if r.closed then low ≤ point && point ≤ high else low < point && point < high

/-- The digits of the decimal on the grid of spacing `gridNum / gridDen` that lies in the interval
    and is nearest to the number: only its two neighbours on the grid can be. -/
def onGrid (r : Rounding) (gridNum gridDen : Nat) : Option Nat :=
  let num := r.value * r.unitNum * gridDen
  let den := gridNum * r.unitDen
  let below := num / den
  let twice := 2 * (num % den)
  let nearest := if twice < den ∨ (twice = den ∧ below % 2 = 0) then below else below + 1
  let other := if nearest = below then below + 1 else below
  if r.contains gridNum gridDen nearest then some nearest
  else if r.contains gridNum gridDen other then some other
  else none

end Rounding

/-- A power of ten as a numerator and a denominator. -/
def powerOfTen : Int → Nat × Nat
  | .ofNat e => (Nat.pow 10 e, 1)
  | .negSucc e => (1, Nat.pow 10 (e + 1))

/-- The exponent of the leading decimal digit of a positive quotient. -/
def leadingExponent (num den : Nat) : Int :=
  if den ≤ num then (Nat.toDigits 10 (num / den)).length - 1
  else
    let inverse := (Nat.toDigits 10 (den / num)).length
    if num * Nat.pow 10 (inverse - 1) < den then -inverse else -(inverse - 1 : Nat)

namespace Binary64

/-- Tries the grids of `count`, `count + 1`, … digits, at most `fuel` of them. -/
def shortestFrom (r : Rounding) (leading : Int) (count : Nat) : Nat → Nat × Int
  | 0 => (0, 0)
  | fuel + 1 =>
    let exponent := leading - count + 1
    let (gridNum, gridDen) := powerOfTen exponent
    match r.onGrid gridNum gridDen with
    | some digits => (digits, exponent)
    | none => shortestFrom r leading (count + 1) fuel

/-- Digits and exponent of the shortest decimal of `significand · 2 ^ exponent`.  Seventeen digits
    always read back. -/
def shortest (significand : Nat) (exponent : Int) : Nat × Int :=
  if significand = 0 then (0, 0)
  else
    let r := Rounding.of significand exponent
    let leading := leadingExponent (r.value * r.unitNum) r.unitDen
    shortestFrom r leading 1 17

end Binary64

end SecretFill
