import SecretFill.Proofs.Numbers

namespace SecretFill.Json

/-!
# Numerals

A numeral has a sign, digits before and behind a point, and a power of ten.  Each number has one,
and if something stands behind it that no numeral goes on with, the number is read back.

* `Numeral` — the parts of a numeral.
* `Numeral.readNumber?_chars` — a numeral is read back.
* `Number.exists_numeral` — every number has one.
* `readNumber?_chars` — so every number is read back.
-/

/-! ### Numerals -/

/-- The parts of a numeral. -/
structure Numeral where
  /-- Whether it has a sign. -/
  negative : Bool
  /-- The digits before the point. -/
  whole : List Char
  /-- The digits behind the point; without any there is no point. -/
  fraction : List Char
  /-- The power of ten, if there is one. -/
  power : Option Int
  /-- There is no zero too many before the point, -/
  isWhole : isWhole whole = true
  /-- where all are digits. -/
  wholeDigits : ∀ c ∈ whole, c.isDigit = true
  /-- So they are behind the point. -/
  fractionDigits : ∀ c ∈ fraction, c.isDigit = true

/-- The point and the digits behind it. -/
def fractionChars : List Char → List Char
  | [] => []
  | ds => '.' :: ds

theorem fractionChars_of_ne_nil {ds : List Char} (h : ds ≠ []) : fractionChars ds = '.' :: ds := by
  cases ds with
  | nil => exact absurd rfl h
  | cons d ds => rfl

/-- A power of ten with its sign. -/
def powerChars : Option Int → List Char
  | none => []
  | some n => 'e' :: (if 0 ≤ n then '+' else '-') :: decimalDigits n.natAbs

/-- A power of ten with its sign, if the style wants one. -/
def styledPower (style : NumeralStyle) (leading : Int) : List Char :=
  (if 0 ≤ leading && style.signedExponent then ['e', '+'] else ['e'])
    ++ ((if leading < 0 then ['-'] else []) ++ decimalDigits leading.natAbs)

theorem powerChars_eq (leading : Int) :
    powerChars (some leading) = styledPower numeralStyle leading := by
  by_cases hleading : 0 ≤ leading
  · simp [powerChars, styledPower, hleading, Int.not_lt.2 hleading, numeralStyle,
      NumeralStyle.compact]
  · simp [powerChars, styledPower, hleading, Int.not_le.1 hleading]

/-- The point stands behind the first digit where a power of ten is written. -/
theorem layOut_power {style : NumeralStyle} {digits : Nat} {exponent : Int} {c : Char}
    {ds : List Char} (h : style.isPositional (leadingPower digits exponent) = false)
    (hdigits : decimalDigits digits = c :: ds) :
    layOut style (decimalDigits digits) exponent
      = c :: (fractionChars ds ++ styledPower style (leadingPower digits exponent)) := by
  simp only [leadingPower, hdigits] at h ⊢
  simp only [layOut, h, styledPower]
  cases ds <;> simp [fractionChars]

/-- The text of a numeral. -/
def Numeral.chars (n : Numeral) : List Char :=
  signChars n.negative ++ (n.whole ++ (fractionChars n.fraction ++ powerChars n.power))

/-- Whether a character may stand in a numeral. -/
def isNumeralChar (c : Char) : Bool := c.isDigit || ['-', '.', 'e', '+'].contains c

/-- The number that a numeral writes. -/
def Numeral.number (n : Numeral) : Number := .of n.negative n.whole n.fraction n.power

/-- What a number cannot go on with stands first here, or nothing does. -/
def EndsNumber (rest : List Char) : Prop :=
  ∀ c ∈ rest.head?, c.isDigit = false ∧ c ≠ '.' ∧ c ≠ 'e' ∧ c ≠ 'E'

variable {ds rest : List Char}

/-- A row of digits is read as far as it goes. -/
theorem span_digits (hds : ∀ c ∈ ds, c.isDigit = true)
    (hrest : ∀ c ∈ rest.head?, c.isDigit = false) :
    (ds ++ rest).takeWhile Char.isDigit = ds ∧ (ds ++ rest).dropWhile Char.isDigit = rest := by
  rw [List.takeWhile_append_of_pos hds, List.dropWhile_append_of_pos hds]
  cases rest with
  | nil => simp
  | cons c cs =>
    have hc : ¬ c.isDigit = true := by simp [hrest c rfl]
    simp [List.takeWhile_cons_of_neg hc, List.dropWhile_cons_of_neg hc]

theorem readPower?_chars (power : Option Int) (h : EndsNumber rest) :
    readPower? (powerChars power ++ rest) = some (power, rest) := by
  cases power with
  | none =>
    cases rest with
    | nil => rfl
    | cons c cs =>
      obtain ⟨-, -, he, hE⟩ := h c rfl
      simp [powerChars, readPower?, he, hE]
  | some n =>
    obtain ⟨htake, hdrop⟩ := span_digits
      (fun c (hc : c ∈ decimalDigits n.natAbs) => isDigit_of_mem_decimalDigits hc)
      fun c hc => (h c hc).1
    -- The digits end where the numeral does.
    have hdigits : ∀ negative, readPowerDigits? negative (decimalDigits n.natAbs ++ rest)
        = some (some (if negative then -(n.natAbs : Int) else n.natAbs), rest) := by
      intro negative
      simp [readPowerDigits?, htake, hdrop, decimalDigits_ne_nil, digitsValue_decimalDigits]
    by_cases hn : 0 ≤ n
    · rw [powerChars, if_pos hn]
      show readPowerDigits? false (decimalDigits n.natAbs ++ rest) = _
      rw [hdigits]
      simp [Int.natAbs_of_nonneg hn]
    · rw [powerChars, if_neg hn]
      show readPowerDigits? true (decimalDigits n.natAbs ++ rest) = _
      have hneg : -(n.natAbs : Int) = n := by omega
      rw [hdigits, if_pos rfl, hneg]

/-- What stands behind the digits after the point is neither a digit nor a point. -/
theorem head?_powerChars (power : Option Int) (h : EndsNumber rest) :
    ∀ c ∈ (powerChars power ++ rest).head?, c.isDigit = false ∧ c ≠ '.' := by
  cases power with
  | none => exact fun c hc => ⟨(h c hc).1, (h c hc).2.1⟩
  | some n =>
    intro c hc
    obtain rfl : 'e' = c := Option.some.inj hc
    decide

theorem readFraction?_chars {fraction : List Char} (hdigits : ∀ c ∈ fraction, c.isDigit = true)
    (hrest : ∀ c ∈ rest.head?, c.isDigit = false ∧ c ≠ '.') :
    readFraction? (fractionChars fraction ++ rest) = some (fraction, rest) := by
  cases fraction with
  | nil =>
    cases rest with
    | nil => rfl
    | cons c cs => simp [fractionChars, readFraction?, (hrest c rfl).2]
  | cons d ds =>
    obtain ⟨htake, hdrop⟩ := span_digits hdigits fun c hc => (hrest c hc).1
    show readFraction? ('.' :: ((d :: ds) ++ rest)) = _
    rw [readFraction?, htake, hdrop]
    rfl

/-- What stands behind the digits before the point is no digit. -/
theorem head?_fractionChars (fraction : List Char)
    (hrest : ∀ c ∈ rest.head?, c.isDigit = false ∧ c ≠ '.') :
    ∀ c ∈ (fractionChars fraction ++ rest).head?, c.isDigit = false := by
  cases fraction with
  | nil => exact fun c hc => (hrest c hc).1
  | cons d ds =>
    intro c hc
    obtain rfl : '.' = c := Option.some.inj hc
    decide

/-- The sign is read where a digit follows. -/
theorem readSign_chars (negative : Bool) {cs : List Char}
    (h : ∃ c ds, cs = c :: ds ∧ c.isDigit = true) :
    readSign (signChars negative ++ cs) = (negative, cs) := by
  cases negative with
  | true => rfl
  | false =>
    obtain ⟨c, ds, rfl, hc⟩ := h
    have hminus : c ≠ '-' := by
      rintro rfl
      exact absurd hc (by decide)
    simp [signChars, readSign, hminus]

namespace Numeral

/-- There is a digit before the point. -/
theorem exists_whole (n : Numeral) : ∃ c ds, n.whole = c :: ds ∧ c.isDigit = true := by
  have hwhole := n.isWhole
  cases h : n.whole with
  | nil =>
    rw [h] at hwhole
    exact absurd hwhole (by decide)
  | cons c ds => exact ⟨c, ds, rfl, n.wholeDigits c (h ▸ List.mem_cons_self)⟩

/-- A numeral has the characters of numerals only. -/
theorem isNumeralChar_of_mem (n : Numeral) {c : Char} (h : c ∈ n.chars) :
    isNumeralChar c = true := by
  have hdigit : c.isDigit = true → isNumeralChar c = true := by
    intro hc
    simp [isNumeralChar, hc]
  have hsign : ∀ negative, c ∈ signChars negative → c = '-' := by
    rintro (- | -) <;> simp [signChars]
  have hfraction : c ∈ fractionChars n.fraction → c = '.' ∨ c ∈ n.fraction := by
    cases n.fraction <;> simp [fractionChars]
  have hpower : ∀ power, c ∈ powerChars power → c ∈ ['e', '+', '-'] ∨ c.isDigit = true := by
    rintro (- | power) hc
    · exact absurd hc (by simp [powerChars])
    · simp only [powerChars, List.mem_cons] at hc
      rcases hc with rfl | rfl | hc
      · exact .inl (by decide)
      · exact .inl (by split <;> decide)
      · exact .inr (isDigit_of_mem_decimalDigits hc)
  simp only [chars, List.mem_append] at h
  rcases h with h | h | h | h
  · rw [hsign _ h]
    rfl
  · exact hdigit (n.wholeDigits c h)
  · rcases hfraction h with rfl | h
    · rfl
    · exact hdigit (n.fractionDigits c h)
  · rcases hpower _ h with h | h
    · have hall : ∀ d ∈ ['e', '+', '-'], isNumeralChar d = true := by simp [isNumeralChar]
      exact hall c h
    · exact hdigit h

/-- **A numeral is read back.** -/
theorem readNumber?_chars (n : Numeral) (h : EndsNumber rest) :
    readNumber? (n.chars ++ rest) = some (n.number, rest) := by
  have hpower := head?_powerChars n.power h
  obtain ⟨htake, hdrop⟩ := span_digits n.wholeDigits (head?_fractionChars n.fraction hpower)
  have hsign : readSign (n.chars ++ rest) = (n.negative,
      n.whole ++ (fractionChars n.fraction ++ (powerChars n.power ++ rest))) := by
    obtain ⟨c, ds, hwhole, hc⟩ := n.exists_whole
    simp only [chars, List.append_assoc]
    exact readSign_chars n.negative ⟨c, _, by rw [hwhole]; rfl, hc⟩
  simp [readNumber?, hsign, htake, hdrop, n.isWhole, readFraction?_chars n.fractionDigits hpower,
    readPower?_chars n.power h, number]

end Numeral

/-! ### Every number has a numeral -/

theorem isWhole_of_head? (hne : ds ≠ []) (hhead : ds.head? ≠ some '0') : isWhole ds = true := by
  unfold isWhole
  split
  · exact absurd rfl hne
  · exact absurd rfl hhead
  · rfl

/-- A single digit may stand before the point, whatever it is. -/
theorem isWhole_singleton (d : Char) : isWhole [d] = true := by
  unfold isWhole
  split <;> simp_all

theorem isWhole_decimalDigits (n : Nat) : isWhole (decimalDigits n) = true := by
  by_cases hn : n = 0
  · rw [hn]
    rfl
  · exact isWhole_of_head? decimalDigits_ne_nil (head?_decimalDigits hn)

namespace Decimal

variable (d : Decimal)

/-- A numeral with a point or a power of ten writes a decimal if the digits, and the power of ten of
    the last one, are those of the decimal. -/
theorem number_eq {n : Numeral} (hnegative : n.negative = d.negative)
    (hpoint : n.fraction = [] → n.power ≠ none)
    (hdigits : digitsValue (n.whole ++ n.fraction) = d.digits)
    (hexponent : n.power.getD 0 - n.fraction.length = d.exponent) : n.number = .decimal d := by
  have hdecimal : (n.fraction.isEmpty && n.power.isNone) = false := by
    cases hfraction : n.fraction with
    | nil =>
      cases hpower : n.power with
      | none => exact absurd hpower (hpoint hfraction)
      | some power => rfl
    | cons c cs => rfl
  rw [Numeral.number, Number.of, hdecimal, hnegative, hdigits, hexponent, of_self]
  rfl

/-- A decimal with the point among its digits has a numeral: the first of them is not zero. -/
theorem exists_numeral_among (h : numeralStyle.isPositional d.leading = true)
    (hleading : 0 ≤ d.leading) : ∃ n : Numeral, n.chars = d.chars ∧ n.number = .decimal d := by
  have hexponent := d.exponent_neg h
  have hsum : d.leading = (decimalDigits d.digits).length - 1 + d.exponent := rfl
  have htext : layOut numeralStyle (decimalDigits d.digits) d.exponent
      = (decimalDigits d.digits).take (d.leading.toNat + 1)
        ++ '.' :: (decimalDigits d.digits).drop (d.leading.toNat + 1) :=
    layOut_among h hexponent hleading
  -- A decimal that is nothing has one digit only, and no point among its digits.
  have hzero : d.digits ≠ 0 := by
    intro hzero
    have hone : (decimalDigits d.digits).length = 1 := by rw [hzero]; rfl
    omega
  have hbehind : (((decimalDigits d.digits).drop (d.leading.toNat + 1)).length : Int)
      = -d.exponent := length_behind_among hexponent hleading
  have hfraction : (decimalDigits d.digits).drop (d.leading.toNat + 1) ≠ [] := by
    intro hnil
    rw [hnil, List.length_nil] at hbehind
    omega
  refine ⟨⟨d.negative, (decimalDigits d.digits).take (d.leading.toNat + 1),
    (decimalDigits d.digits).drop (d.leading.toNat + 1), none, isWhole_of_head? ?_ ?_,
    fun c hc => isDigit_of_mem_decimalDigits (List.mem_of_mem_take hc),
    fun c hc => isDigit_of_mem_decimalDigits (List.mem_of_mem_drop hc)⟩, ?_,
    d.number_eq rfl (absurd · hfraction) ?_ ?_⟩
  · simp [decimalDigits_ne_nil]
  · rw [List.head?_take, if_neg (by omega)]
    exact head?_decimalDigits hzero
  · simp [Numeral.chars, chars, htext, fractionChars_of_ne_nil hfraction, powerChars]
  · simp only [List.take_append_drop, digitsValue_decimalDigits]
  · simp only [Option.getD_none, hbehind]
    omega

/-- A decimal with the point before its digits has a numeral, with zeros between them. -/
theorem exists_numeral_before (h : numeralStyle.isPositional d.leading = true)
    (hleading : d.leading < 0) : ∃ n : Numeral, n.chars = d.chars ∧ n.number = .decimal d := by
  have htext : layOut numeralStyle (decimalDigits d.digits) d.exponent
      = '0' :: '.' :: (List.replicate (-d.leading - 1).toNat '0' ++ decimalDigits d.digits) :=
    layOut_before h (d.exponent_neg h) hleading
  have hbehind : ((List.replicate (-d.leading - 1).toNat '0'
      ++ decimalDigits d.digits).length : Int) = -d.exponent := length_behind_before hleading
  have hfraction : List.replicate (-d.leading - 1).toNat '0' ++ decimalDigits d.digits ≠ [] := by
    simp [decimalDigits_ne_nil]
  refine ⟨⟨d.negative, ['0'], List.replicate (-d.leading - 1).toNat '0' ++ decimalDigits d.digits,
    none, rfl, by simp, ?_⟩, ?_, d.number_eq rfl (absurd · hfraction) ?_ ?_⟩
  · intro c hc
    exact (List.mem_append.1 hc).elim isDigit_of_mem_zeros isDigit_of_mem_decimalDigits
  · simp only [Numeral.chars, chars, htext, fractionChars_of_ne_nil hfraction, powerChars,
      List.append_nil, List.cons_append, List.nil_append]
  · show digitsValue (List.replicate ((-d.leading - 1).toNat + 1) '0' ++ _) = _
    rw [digitsValue_zeros, digitsValue_decimalDigits]
  · simp only [Option.getD_none, hbehind]
    omega

/-- A decimal with a power of ten has a numeral, with one digit before the point. -/
theorem exists_numeral_power (h : numeralStyle.isPositional d.leading = false) :
    ∃ n : Numeral, n.chars = d.chars ∧ n.number = .decimal d := by
  have hsum : d.leading = (decimalDigits d.digits).length - 1 + d.exponent := rfl
  obtain ⟨c, cs, hdigits⟩ := List.exists_cons_of_ne_nil (decimalDigits_ne_nil (n := d.digits))
  have hall : ∀ e ∈ c :: cs, e.isDigit = true := fun e he =>
    isDigit_of_mem_decimalDigits (hdigits ▸ he)
  refine ⟨⟨d.negative, [c], cs, some d.leading, isWhole_singleton c, ?_, ?_⟩, ?_,
    d.number_eq rfl (by simp) ?_ ?_⟩
  · exact fun e he => hall e (List.mem_singleton.1 he ▸ List.mem_cons_self)
  · exact fun e he => hall e (List.mem_cons_of_mem c he)
  · have htext : layOut numeralStyle (decimalDigits d.digits) d.exponent
        = c :: (fractionChars cs ++ powerChars (some d.leading)) :=
      (layOut_power h hdigits).trans (by rw [powerChars_eq]; rfl)
    rw [chars, htext]
    rfl
  · show digitsValue (c :: cs) = _
    rw [← hdigits, digitsValue_decimalDigits]
  · rw [hdigits, List.length_cons] at hsum
    simp only [Option.getD_some]
    omega

/-- **Every decimal has a numeral.** -/
theorem exists_numeral : ∃ n : Numeral, n.chars = d.chars ∧ n.number = .decimal d := by
  cases h : numeralStyle.isPositional d.leading with
  | true =>
    by_cases hleading : 0 ≤ d.leading
    · exact d.exists_numeral_among h hleading
    · exact d.exists_numeral_before h (Int.not_le.1 hleading)
  | false => exact d.exists_numeral_power h

end Decimal

namespace Number

/-- **Every number has a numeral.** -/
theorem exists_numeral (x : Number) : ∃ n : Numeral, n.chars = x.chars ∧ n.number = x := by
  cases x with
  | decimal d => exact d.exists_numeral
  | int n =>
    refine ⟨⟨decide (n < 0), decimalDigits n.natAbs, [], none, isWhole_decimalDigits _,
      fun _ => isDigit_of_mem_decimalDigits, by simp⟩, ?_, ?_⟩
    · simp [Numeral.chars, fractionChars, powerChars, signChars, chars, intChars]
    · simp only [Numeral.number, of, digitsValue_decimalDigits, decide_eq_true_eq]
      show Number.int _ = Number.int n
      split <;> congr 1 <;> omega

theorem isNumeralChar_of_mem (x : Number) {c : Char} (h : c ∈ x.chars) :
    isNumeralChar c = true := by
  obtain ⟨n, hchars, -⟩ := x.exists_numeral
  exact n.isNumeralChar_of_mem (hchars ▸ h)

/-- A numeral is not empty. -/
theorem exists_head (x : Number) : ∃ c cs, x.chars = c :: cs ∧ isNumeralChar c = true := by
  obtain ⟨n, hchars, -⟩ := x.exists_numeral
  obtain ⟨d, ds, hwhole, -⟩ := n.exists_whole
  obtain ⟨c, cs, hcons⟩ : ∃ c cs, x.chars = c :: cs := by
    refine List.exists_cons_of_ne_nil fun hnil => ?_
    rw [← hchars, Numeral.chars, hwhole] at hnil
    exact absurd (List.append_eq_nil_iff.1 hnil).2 (by simp)
  exact ⟨c, cs, hcons, x.isNumeralChar_of_mem (hcons ▸ List.mem_cons_self)⟩

end Number

/-- **Every number is read back** from its numeral. -/
theorem readNumber?_chars (x : Number) (h : EndsNumber rest) :
    readNumber? (x.chars ++ rest) = some (x, rest) := by
  obtain ⟨n, hchars, hnumber⟩ := x.exists_numeral
  rw [← hchars, n.readNumber?_chars h, hnumber]

end SecretFill.Json
