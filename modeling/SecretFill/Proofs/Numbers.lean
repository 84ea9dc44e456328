import Mathlib.Data.List.Basic
import SecretFill.Json.Encode

namespace SecretFill

/-!
# Numbers in JSON

A number is an integer or a decimal, and the two are told apart by their numerals: those of decimals
have a point or a power of ten.

* `Json.Decimal`, `Json.Number` — the numbers, with their numerals.
* `Json.Decimal.chars_of` — a decimal number is laid out from its digits.
* `Json.readNumber?` — reads a number by the grammar of JSON.
-/

/-! ### Rows of digits -/

section Digits

variable {n : Nat} {c : Char}

theorem isDigit_of_mem_decimalDigits (h : c ∈ decimalDigits n) : c.isDigit = true :=
  Nat.isDigit_of_mem_toDigits (by decide) (by decide) h

theorem decimalDigits_ne_nil : decimalDigits n ≠ [] := Nat.toDigits_ne_nil

/-- Only the digits of zero begin with a zero. -/
theorem head?_decimalDigits (h : n ≠ 0) : (decimalDigits n).head? ≠ some '0' := by
  induction n using Nat.strongRecOn with
  | _ n ih =>
    rw [decimalDigits, Nat.toDigits_eq_if (by decide)]
    split
    · rename_i hlt
      have hsmall : ∀ m < 10, m ≠ 0 → [Nat.digitChar m].head? ≠ some '0' := by decide
      exact hsmall n hlt h
    · rename_i hge
      rw [List.head?_append_of_ne_nil _ Nat.toDigits_ne_nil]
      exact ih (n / 10) (by omega) (by omega)

/-- A power of ten adds zeros at the end. -/
theorem decimalDigits_mul_pow (h : n ≠ 0) (k : Nat) :
    decimalDigits (n * Nat.pow 10 k) = decimalDigits n ++ List.replicate k '0' := by
  induction k with
  | zero => simp
  | succ k ih =>
    have hpos : 0 < n * Nat.pow 10 k :=
      Nat.mul_pos (Nat.pos_of_ne_zero h) (Nat.pow_pos (by decide))
    have hten : n * Nat.pow 10 (k + 1) = 10 * (n * Nat.pow 10 k) + 0 := by
      show n * (Nat.pow 10 k * 10) = _
      rw [← Nat.mul_assoc]
      omega
    rw [hten, decimalDigits, ← Nat.toDigits_append_toDigits (by decide) hpos (by decide),
      List.replicate_succ', ← List.append_assoc, ← ih]
    rfl

theorem isDigit_of_mem_zeros {k : Nat} (h : c ∈ List.replicate k '0') : c.isDigit = true := by
  rw [List.eq_of_mem_replicate h]
  rfl

theorem digitsValue_decimalDigits : digitsValue (decimalDigits n) = n := by
  have hvalue : ∀ cs, digitsValue cs = Nat.ofDigitChars 10 cs 0 := by
    intro cs
    simp only [digitsValue, Nat.ofDigitChars_eq_foldl, Nat.mul_comm]
  rw [hvalue]
  exact Nat.ofDigitChars_ten_toDigits

/-- Zeros at the beginning add nothing. -/
theorem digitsValue_zeros (k : Nat) (ds : List Char) :
    digitsValue (List.replicate k '0' ++ ds) = digitsValue ds := by
  induction k with
  | zero => rfl
  | succ k ih => exact ih

end Digits

namespace Json

/-! ### Decimals -/

/-- The power of ten of the leading digit of `digits · 10 ^ exponent`. -/
def leadingPower (digits : Nat) (exponent : Int) : Int :=
  (decimalDigits digits).length - 1 + exponent

section Layouts

variable {style : NumeralStyle} {digits : Nat} {exponent : Int}

/-- Without a digit behind the point zeros are put at the end, one of them behind the point. -/
theorem layOut_whole (h : style.isPositional (leadingPower digits exponent) = true)
    (hexponent : 0 ≤ exponent) : layOut style (decimalDigits digits) exponent
      = decimalDigits digits ++ List.replicate exponent.toNat '0' ++ ['.', '0'] := by
  simp only [leadingPower] at h
  simp only [layOut, h, hexponent, if_true]

/-- Else the point stands among the digits, -/
theorem layOut_among (h : style.isPositional (leadingPower digits exponent) = true)
    (hexponent : exponent < 0) (hleading : 0 ≤ leadingPower digits exponent) :
    layOut style (decimalDigits digits) exponent
      = (decimalDigits digits).take ((leadingPower digits exponent).toNat + 1)
        ++ '.' :: (decimalDigits digits).drop ((leadingPower digits exponent).toNat + 1) := by
  have hfraction : ¬ 0 ≤ exponent := Int.not_le.2 hexponent
  simp only [leadingPower] at h hleading ⊢
  simp only [layOut, h, hfraction, hleading, if_true, if_false]

/-- or before all of them. -/
theorem layOut_before (h : style.isPositional (leadingPower digits exponent) = true)
    (hexponent : exponent < 0) (hleading : leadingPower digits exponent < 0) :
    layOut style (decimalDigits digits) exponent = '0' :: '.' ::
      (List.replicate (-leadingPower digits exponent - 1).toNat '0' ++ decimalDigits digits) := by
  have hfraction : ¬ 0 ≤ exponent := Int.not_le.2 hexponent
  have hbefore : ¬ 0 ≤ leadingPower digits exponent := Int.not_le.2 hleading
  simp only [leadingPower] at h hbefore ⊢
  simp only [layOut, h, hfraction, hbefore, if_true, if_false]

/-- What stands behind the point tells the power of ten: the digits, -/
theorem length_behind_among (hexponent : exponent < 0)
    (hleading : 0 ≤ leadingPower digits exponent) :
    (((decimalDigits digits).drop ((leadingPower digits exponent).toNat + 1)).length : Int)
      = -exponent := by
  have hsum : leadingPower digits exponent = (decimalDigits digits).length - 1 + exponent := rfl
  rw [List.length_drop]
  omega

/-- or zeros and all the digits. -/
theorem length_behind_before (hleading : leadingPower digits exponent < 0) :
    ((List.replicate (-leadingPower digits exponent - 1).toNat '0' ++ decimalDigits digits).length
      : Int) = -exponent := by
  have hsum : leadingPower digits exponent = (decimalDigits digits).length - 1 + exponent := rfl
  rw [List.length_append, List.length_replicate]
  omega

end Layouts

/-- A decimal number `digits · 10 ^ exponent`, with digits as they are written. -/
structure Decimal where
  /-- Whether it has a sign. -/
  negative : Bool
  /-- All its digits. -/
  digits : Nat
  /-- The power of ten of the last digit. -/
  exponent : Int
  /-- There is always a digit behind the point where no power of ten is written. -/
  hasFraction : 0 ≤ exponent → numeralStyle.isPositional (leadingPower digits exponent) = false
deriving DecidableEq

/-- The sign of a number. -/
def signChars (negative : Bool) : List Char := if negative then ['-'] else []

namespace Decimal

/-- A decimal number; one that has no digit behind the point gets a zero there. -/
def of (negative : Bool) (digits : Nat) (exponent : Int) : Decimal :=
  if h : 0 ≤ exponent ∧ numeralStyle.isPositional (leadingPower digits exponent) = true then
    ⟨negative, digits * Nat.pow 10 (exponent.toNat + 1), -1, fun h => absurd h (by decide)⟩
  else ⟨negative, digits, exponent, fun hexponent => by simpa [hexponent] using h⟩

/-- The numeral of a decimal number. -/
def chars (d : Decimal) : List Char :=
  signChars d.negative ++ layOut numeralStyle (decimalDigits d.digits) d.exponent

/-- The power of ten of the leading digit. -/
def leading (d : Decimal) : Int := leadingPower d.digits d.exponent

section Layout

variable (d : Decimal)

theorem of_self : of d.negative d.digits d.exponent = d := by
  rw [of, dif_neg]
  rintro ⟨hexponent, hpositional⟩
  rw [d.hasFraction hexponent] at hpositional
  exact absurd hpositional (by decide)

/-- Where no power of ten is written, there are digits behind the point. -/
theorem exponent_neg (h : numeralStyle.isPositional d.leading = true) : d.exponent < 0 := by
  by_contra hexponent
  have hnot : numeralStyle.isPositional d.leading = false := d.hasFraction (by omega)
  rw [h] at hnot
  exact absurd hnot (by decide)

end Layout

variable {negative : Bool} {digits : Nat} {exponent : Int}

/-- **A decimal is laid out** from its digits; the zero behind the point is written anyway. -/
theorem chars_of (h : digits ≠ 0) : (of negative digits exponent).chars
    = signChars negative ++ layOut numeralStyle (decimalDigits digits) exponent := by
  by_cases hwhole :
      0 ≤ exponent ∧ numeralStyle.isPositional (leadingPower digits exponent) = true
  · obtain ⟨hexponent, hpositional⟩ := hwhole
    -- The zeros for which the exponent stands, and the one behind the point, are digits of the
    -- decimal.
    let d : Decimal :=
      ⟨negative, digits * Nat.pow 10 (exponent.toNat + 1), -1, fun h => absurd h (by decide)⟩
    have hd : of negative digits exponent = d := dif_pos ⟨hexponent, hpositional⟩
    have hdigits : decimalDigits d.digits
        = (decimalDigits digits ++ List.replicate exponent.toNat '0') ++ ['0'] := by
      rw [decimalDigits_mul_pow h, List.replicate_succ', List.append_assoc]
    have hlength : 0 < (decimalDigits digits).length := Nat.length_toDigits_pos
    have hleading : d.leading = leadingPower digits exponent := by
      simp only [leading, leadingPower, hdigits, List.length_append, List.length_replicate,
        List.length_singleton, d]
      omega
    have hcut : d.leading.toNat + 1
        = (decimalDigits digits ++ List.replicate exponent.toNat '0').length := by
      simp only [hleading, leadingPower, List.length_append, List.length_replicate]
      omega
    have hnonneg : 0 ≤ d.leading := by
      simp only [hleading, leadingPower]
      omega
    have hpositional' : numeralStyle.isPositional d.leading = true := hleading ▸ hpositional
    have hamong : layOut numeralStyle (decimalDigits d.digits) d.exponent
        = (decimalDigits d.digits).take (d.leading.toNat + 1)
          ++ '.' :: (decimalDigits d.digits).drop (d.leading.toNat + 1) :=
      layOut_among hpositional' (d.exponent_neg hpositional') hnonneg
    rw [hd, chars, hamong, layOut_whole hpositional hexponent, hcut, hdigits, List.take_left,
      List.drop_left]
  · rw [of, dif_neg hwhole]
    rfl

end Decimal

/-! ### Numbers -/

/-- A number. -/
inductive Number where
  /-- An integer. -/
  | int (n : Int)
  /-- A decimal number. -/
  | decimal (d : Decimal)
deriving DecidableEq

namespace Number

/-- The numeral of a number. -/
def chars : Number → List Char
  | int n => intChars n
  | decimal d => d.chars

/-- The number that is written with a sign, some digits before and some behind the point, and a
    power of ten. -/
def of (negative : Bool) (whole fraction : List Char) (power : Option Int) : Number :=
  if fraction.isEmpty && power.isNone then
    .int (if negative then -(digitsValue whole) else digitsValue whole)
  else .decimal (.of negative (digitsValue (whole ++ fraction)) (power.getD 0 - fraction.length))

end Number

/-! ### Reading a number -/

/-- Whether a row of digits may stand before the point: a zero is the only digit where it is the
    first. -/
def isWhole : List Char → Bool
  | [] => false
  | '0' :: ds => ds.isEmpty
  | _ => true

/-- Reads a sign. -/
def readSign : List Char → Bool × List Char
  | '-' :: cs => (true, cs)
  | cs => (false, cs)

/-- Reads a point with at least one digit behind it, or nothing. -/
def readFraction? : List Char → Option (List Char × List Char)
  | '.' :: cs =>
    if (cs.takeWhile Char.isDigit).isEmpty then none
    else some (cs.takeWhile Char.isDigit, cs.dropWhile Char.isDigit)
  | cs => some ([], cs)

/-- Reads at least one digit behind the sign of a power of ten. -/
def readPowerDigits? (negative : Bool) (cs : List Char) : Option (Option Int × List Char) :=
  if (cs.takeWhile Char.isDigit).isEmpty then none
  else
    let n : Int := digitsValue (cs.takeWhile Char.isDigit)
    some (some (if negative then -n else n), cs.dropWhile Char.isDigit)

/-- Reads a power of ten, or nothing. -/
def readPower? : List Char → Option (Option Int × List Char)
  | 'e' :: '-' :: cs | 'E' :: '-' :: cs => readPowerDigits? true cs
  | 'e' :: '+' :: cs | 'E' :: '+' :: cs => readPowerDigits? false cs
  | 'e' :: cs | 'E' :: cs => readPowerDigits? false cs
  | cs => some (none, cs)

/-- Reads a number. -/
def readNumber? (cs : List Char) : Option (Number × List Char) := do
  let (negative, cs) := readSign cs
  let whole := cs.takeWhile Char.isDigit
  if !isWhole whole then none
  let (fraction, cs) ← readFraction? (cs.dropWhile Char.isDigit)
  let (power, cs) ← readPower? cs
  return (.of negative whole fraction power, cs)

end Json

end SecretFill
