import SecretFill.Number.Shortest

namespace SecretFill

/-!
# Numerals of floating point numbers

The text of a finite number has the digits of its shortest decimal; a `NumeralStyle` fixes how
they are laid out.  Reading takes the usual decimal grammar with an optional exponent.

* `Binary64.numeral` — the numeral of a finite number.
* `readDecimal?` — reads a decimal numeral.
-/

/-- The layout of a numeral. -/
structure NumeralStyle where
  /-- The least and the greatest power of ten of the leading digit that are written without an
      exponent; all are without bounds. -/
  positional : Option (Int × Int)
  /-- Whether a positive exponent has a plus sign. -/
  signedExponent : Bool

/-- The style of data formats: small numbers have an exponent below 10⁻⁵, large ones from 10¹⁶ on. -/
def NumeralStyle.compact (signedExponent : Bool) : NumeralStyle := ⟨some (-5, 15), signedExponent⟩

/-- The style without exponents. -/
def NumeralStyle.plain : NumeralStyle := ⟨none, false⟩

/-- Whether a number is written without an exponent, by the power of ten of its leading digit. -/
def NumeralStyle.isPositional (style : NumeralStyle) (leading : Int) : Bool :=
  match style.positional with
  | none => true
  | some (least, greatest) => least ≤ leading && leading ≤ greatest

/-- Drops trailing zeros of a positive number, counting them. -/
def dropZeros (digits : Nat) (exponent : Int) : Nat → Nat × Int
  | 0 => (digits, exponent)
  | fuel + 1 =>
    if digits % 10 = 0 ∧ digits ≠ 0 then dropZeros (digits / 10) (exponent + 1) fuel
    else (digits, exponent)

/-- The digits of a natural number in base ten. -/
def decimalDigits (n : Nat) : List Char := Nat.toDigits 10 n

/-- Lays out `digits · 10 ^ exponent`, where the digits have no trailing zero. -/
def layOut (style : NumeralStyle) (digits : List Char) (exponent : Int) : List Char :=
  let leading : Int := digits.length - 1 + exponent
  if style.isPositional leading then
    if 0 ≤ exponent then digits ++ List.replicate exponent.toNat '0' ++ ['.', '0']
    else if 0 ≤ leading then
      digits.take (leading.toNat + 1) ++ '.' :: digits.drop (leading.toNat + 1)
    else '0' :: '.' :: (List.replicate (-leading - 1).toNat '0' ++ digits)
  else
    let mark := if 0 ≤ leading && style.signedExponent then ['e', '+'] else ['e']
    let power := (if leading < 0 then ['-'] else []) ++ decimalDigits leading.natAbs
    match digits with
    | [] => []
    | [d] => d :: (mark ++ power)
    | d :: ds => d :: '.' :: (ds ++ mark ++ power)

/-- The numeral of a finite number; the sign of zero is kept. -/
def Binary64.numeral (style : NumeralStyle) (negative : Bool) (significand : Nat)
    (exponent : Int) : List Char :=
  let (digits, power) := Binary64.shortest significand exponent
  let (digits, power) := dropZeros digits power 17
  (if negative then ['-'] else []) ++
    if digits = 0 then ['0', '.', '0'] else layOut style (decimalDigits digits) power

/-- The value of a row of decimal digits. -/
def digitsValue (cs : List Char) : Nat :=
  cs.foldl (fun n c => n * 10 + (c.toNat - '0'.toNat)) 0

/-- Reads the exponent part of a numeral: nothing, or `e`, an optional sign and digits. -/
def readExponent? : List Char → Option Int
  | [] => some 0
  | e :: cs =>
    if e = 'e' ∨ e = 'E' then
      let (negative, ds) :=
        match cs with
        | '-' :: ds => (true, ds)
        | '+' :: ds => (false, ds)
        | ds => (false, ds)
      if ds.isEmpty || !ds.all Char.isDigit then none
      else
        let n : Int := digitsValue ds
        some (if negative then -n else n)
    else none

/-- Reads a decimal numeral without a sign: digits with at most one point among or beside them, and
    an optional exponent. -/
def readUnsigned? (negative : Bool) (cs : List Char) : Option Binary64 :=
  let whole := cs.takeWhile Char.isDigit
  let (fraction, rest) :=
    match cs.dropWhile Char.isDigit with
    | '.' :: rest => (rest.takeWhile Char.isDigit, rest.dropWhile Char.isDigit)
    | rest => ([], rest)
  if whole.isEmpty && fraction.isEmpty then none
  else
    (readExponent? rest).map fun power =>
      Binary64.ofDecimal negative (digitsValue (whole ++ fraction)) (power - fraction.length)

/-- Reads a decimal numeral with an optional sign. -/
def readDecimal? : List Char → Option Binary64
  | '-' :: cs => readUnsigned? true cs
  | '+' :: cs => readUnsigned? false cs
  | cs => readUnsigned? false cs

end SecretFill
