import SecretFill.Proofs.NearestNumbers
import SecretFill.Proofs.Numerals

namespace SecretFill

/-!
# Numerals are read back

The shortest decimal of a number lies in its rounding interval: a grid of seventeen digits is so fine
that some point of it does.  So the numeral of the number is read back as this number.

* `Rounding.isSome_onGrid` — seventeen digits are enough.
* `Binary64.shortest_holds` — the shortest decimal is rounded to its number.
* `Writes` — a text writes a decimal.
* `writes_layOut` — what is laid out writes its decimal, whatever the layout.
* `readDecimal?_numeral` — the numeral of a number is read back.
* `isCanonical_of_readDecimal?` — only canonical numbers are read.
-/

/-! ### Fine grids -/

/-- Powers of ten are quotients of powers of ten. -/
theorem powerOfTen_spec (power : Int) : 0 < (powerOfTen power).1 ∧ 0 < (powerOfTen power).2 ∧
    ((powerOfTen power).1 : ℚ) / (powerOfTen power).2 = 10 ^ power := by
  cases power with
  | ofNat e => simp [powerOfTen]
  | negSucc e => simp [powerOfTen, zpow_negSucc]

/-- The power of ten of the leading digit is not above the quotient. -/
theorem zpow_leadingExponent_le {num den : Nat} (hnum : 0 < num) (hden : 0 < den) :
    (10 : ℚ) ^ leadingExponent num den ≤ num / den := by
  have hden' : (0 : ℚ) < den := Nat.cast_pos.2 hden
  rw [le_div_iff₀ hden']
  unfold leadingExponent
  simp only
  split_ifs with hle hsmall
  · have hquotient : num / den ≠ 0 := (Nat.div_pos hle hden).ne'
    have hpos : 0 < (Nat.toDigits 10 (num / den)).length := Nat.length_toDigits_pos
    have hexponent : ((Nat.toDigits 10 (num / den)).length : Int) - 1
        = (((Nat.toDigits 10 (num / den)).length - 1 : Nat) : Int) := by omega
    rw [hexponent, zpow_natCast]
    have hpower : 10 ^ ((Nat.toDigits 10 (num / den)).length - 1) * den ≤ num :=
      (Nat.le_div_iff_mul_le hden).1 (le_of_length_toDigits hquotient)
    exact_mod_cast hpower
  · -- The inverse has so many digits.
    have hlt := (Nat.div_lt_iff_lt_mul hnum).1 (lt_pow_length_toDigits (den / num))
    rw [zpow_neg, zpow_natCast, inv_mul_le_iff₀ (by positivity)]
    exact_mod_cast hlt.le
  · rw [zpow_neg, zpow_natCast, inv_mul_le_iff₀ (by positivity)]
    have hge := Nat.not_lt.1 hsmall
    rw [Nat.mul_comm] at hge
    exact_mod_cast hge

namespace Rounding

variable {r : Rounding} {significand gridNum gridDen digits : Nat} {exponent : Int} {q spacing : ℚ}

/-- A decimal that is found on a grid lies in the interval. -/
theorem holds_of_onGrid (hunit : 0 < r.unitDen) (hgrid : 0 < gridDen)
    (h : r.onGrid gridNum gridDen = some digits) : r.Holds (digits * (gridNum / gridDen)) := by
  rw [← contains_iff hunit hgrid]
  unfold onGrid at h
  simp only at h
  split_ifs at h with hnearest hother <;> cases h <;> assumption

/-- What is near to a number lies in its interval. -/
theorem holds_of_near (h : Binary64.IsCanonical significand exponent) (hpos : 0 < significand)
    (hspacing : spacing * 10 ^ 16 ≤ significand * 2 ^ exponent)
    (hlow : 2 * (significand * 2 ^ exponent) ≤ 2 * q + spacing)
    (hhigh : 2 * q ≤ 2 * (significand * 2 ^ exponent) + spacing) :
    (Rounding.of significand exponent).Holds q := by
  have htwo : (0 : ℚ) < 2 := by norm_num
  have hunit : (0 : ℚ) < 2 ^ (2 - exponent) := zpow_pos htwo _
  have hvalue : (significand : ℚ) * 2 ^ exponent * 2 ^ (2 - exponent) = 4 * significand := by
    rw [mul_assoc, ← zpow_add₀ htwo.ne']
    ring_nf
    norm_num
  have hbits : (significand : ℚ) < 9007199254740992 := by exact_mod_cast h.bits
  -- Of all the distances the number of quarters counts.
  have hspacing' := mul_le_mul_of_nonneg_right hspacing hunit.le
  have hlow' := mul_le_mul_of_nonneg_right hlow hunit.le
  have hhigh' := mul_le_mul_of_nonneg_right hhigh hunit.le
  rw [hvalue, mul_right_comm] at hspacing'
  rw [mul_assoc 2, hvalue, add_mul, mul_assoc 2] at hlow'
  rw [add_mul, mul_assoc 2, mul_assoc 2, hvalue] at hhigh'
  have hinside : ((Rounding.of significand exponent).low : ℚ) < q * 2 ^ (2 - exponent) ∧
      q * 2 ^ (2 - exponent) < 4 * significand + 2 := by
    refine ⟨?_, by linarith⟩
    rw [low_of]
    split_ifs with hboundary
    · obtain ⟨rfl, -⟩ := hboundary
      norm_num at hspacing' hlow' ⊢
      linarith
    · rw [Nat.cast_sub (by omega)]
      push_cast
      linarith
  rw [holds_of_iff]
  split_ifs
  · exact ⟨hinside.1.le, hinside.2.le⟩
  · exact hinside

theorem nearest_eq (r : Rounding) (gridNum gridDen : Nat) :
    r.onGrid gridNum gridDen =
      let nearest := Binary64.roundHalfEven (r.value * r.unitNum * gridDen) (gridNum * r.unitDen)
      let below := r.value * r.unitNum * gridDen / (gridNum * r.unitDen)
      if r.contains gridNum gridDen nearest then some nearest
      else if r.contains gridNum gridDen (if nearest = below then below + 1 else below) then
        some (if nearest = below then below + 1 else below)
      else none := by
  have hnearest : ∀ n d : Nat, (if 2 * (n % d) < d ∨ (2 * (n % d) = d ∧ n / d % 2 = 0) then n / d
      else n / d + 1) = Binary64.roundHalfEven n d := by
    intro n d
    unfold Binary64.roundHalfEven
    simp only
    split_ifs <;> omega
  unfold onGrid
  simp only [hnearest]

/-- **A grid of seventeen digits** has a point in the interval of a number. -/
theorem isSome_onGrid (h : Binary64.IsCanonical significand exponent) (hpos : 0 < significand)
    (hnum : 0 < gridNum) (hden : 0 < gridDen)
    (hfine : (gridNum : ℚ) / gridDen * 10 ^ 16 ≤ significand * 2 ^ exponent) :
    ((Rounding.of significand exponent).onGrid gridNum gridDen).isSome = true := by
  have hunit := (unit_of significand exponent).1
  have hvalue := value_of significand exponent
  rw [nearest_eq]
  generalize hr : Rounding.of significand exponent = r at hunit hvalue
  rw [unit] at hvalue
  have hd : 0 < gridNum * r.unitDen := Nat.mul_pos hnum hunit
  obtain ⟨hlow, hhigh⟩ := roundHalfEven_near (r.value * r.unitNum * gridDen) hd
  generalize Binary64.roundHalfEven (r.value * r.unitNum * gridDen) (gridNum * r.unitDen) = nearest
    at hlow hhigh
  have hgridDen : (0 : ℚ) < gridDen := Nat.cast_pos.2 hden
  have hunitDen : (0 : ℚ) < r.unitDen := Nat.cast_pos.2 hunit
  have hlowQ : 2 * ((nearest : ℚ) * (gridNum * r.unitDen))
      ≤ 2 * (r.value * r.unitNum * gridDen) + gridNum * r.unitDen := by exact_mod_cast hlow
  have hhighQ : 2 * ((r.value : ℚ) * r.unitNum * gridDen)
      ≤ 2 * (nearest * (gridNum * r.unitDen)) + gridNum * r.unitDen := by exact_mod_cast hhigh
  have hcontains : r.contains gridNum gridDen nearest = true := by
    rw [contains_iff hunit hden, ← hr]
    refine holds_of_near h hpos hfine ?_ ?_
    · rw [← hvalue]
      rw [← mul_le_mul_iff_left₀ (mul_pos hgridDen hunitDen)]
      field_simp
      linarith
    · rw [← hvalue]
      rw [← mul_le_mul_iff_left₀ (mul_pos hgridDen hunitDen)]
      field_simp
      linarith
  simp [hcontains]

end Rounding

namespace Binary64

variable {significand : Nat} {exponent : Int}

/-- What is found on the first grid that has a point in the interval lies there. -/
theorem shortestFrom_holds {r : Rounding} (hunit : 0 < r.unitDen) {leading : Int} {count fuel : Nat}
    (h : ∃ k < fuel, (r.onGrid (powerOfTen (leading - (count + k : Nat) + 1)).1
      (powerOfTen (leading - (count + k : Nat) + 1)).2).isSome = true) :
    r.Holds ((shortestFrom r leading count fuel).1 * 10 ^ (shortestFrom r leading count fuel).2) := by
  induction fuel generalizing count with
  | zero =>
    obtain ⟨k, hk, -⟩ := h
    cases hk
  | succ fuel ih =>
    obtain ⟨-, hden, hpower⟩ := powerOfTen_spec (leading - count + 1)
    simp only [shortestFrom]
    cases hgrid : r.onGrid (powerOfTen (leading - count + 1)).1 (powerOfTen (leading - count + 1)).2 with
    | some digits =>
      rw [← hpower]
      exact Rounding.holds_of_onGrid hunit hden hgrid
    | none =>
      refine ih ?_
      obtain ⟨k, hk, hsome⟩ := h
      cases k with
      | zero =>
        rw [Nat.add_zero, hgrid] at hsome
        cases hsome
      | succ k => exact ⟨k, Nat.lt_of_succ_lt_succ hk, by rwa [Nat.add_right_comm]⟩

/-- **The shortest decimal** of a number lies in its interval. -/
theorem shortest_holds (h : IsCanonical significand exponent) (hpos : 0 < significand) :
    (Rounding.of significand exponent).Holds
      ((shortest significand exponent).1 * 10 ^ (shortest significand exponent).2) := by
  have hunit := (Rounding.unit_of significand exponent).1
  have hvalue := Rounding.value_of significand exponent
  have hsome : ∀ {gridNum gridDen : Nat}, 0 < gridNum → 0 < gridDen →
      (gridNum : ℚ) / gridDen * 10 ^ 16 ≤ significand * 2 ^ exponent →
        ((Rounding.of significand exponent).onGrid gridNum gridDen).isSome = true :=
    Rounding.isSome_onGrid h hpos
  rw [shortest, if_neg hpos.ne']
  simp only
  generalize Rounding.of significand exponent = r at hunit hvalue hsome ⊢
  rw [Rounding.unit, ← mul_div_assoc, ← Nat.cast_mul] at hvalue
  have hnum : 0 < r.value * r.unitNum := by
    refine Nat.pos_of_ne_zero fun hzero => ?_
    have hvalue' : (0 : ℚ) < significand * 2 ^ exponent :=
      mul_pos (Nat.cast_pos.2 hpos) (zpow_pos (by norm_num) _)
    rw [← hvalue, hzero, Nat.cast_zero, zero_div] at hvalue'
    exact lt_irrefl _ hvalue'
  -- The last grid is fine enough, if no other one has a point in the interval.
  refine shortestFrom_holds hunit ⟨16, by decide, ?_⟩
  obtain ⟨hgridNum, hgridDen, hgrid⟩ :=
    powerOfTen_spec (leadingExponent (r.value * r.unitNum) r.unitDen - (1 + 16 : Nat) + 1)
  refine hsome hgridNum hgridDen ?_
  rw [hgrid, ← hvalue]
  calc (10 : ℚ) ^ (leadingExponent (r.value * r.unitNum) r.unitDen - (1 + 16 : Nat) + 1) * 10 ^ 16
      = 10 ^ leadingExponent (r.value * r.unitNum) r.unitDen := by
        rw [← zpow_natCast, ← zpow_add₀ (by norm_num)]
        congr 1
        push_cast
        ring
    _ ≤ (r.value * r.unitNum : Nat) / r.unitDen := zpow_leadingExponent_le hnum hunit

end Binary64

/-! ### Layouts -/

section Layouts

variable {digits : Nat} {exponent : Int} {q : ℚ}

/-- Zeros at the end are dropped for a greater power of ten. -/
theorem dropZeros_value (digits : Nat) (exponent : Int) (fuel : Nat) :
    ((dropZeros digits exponent fuel).1 : ℚ) * 10 ^ (dropZeros digits exponent fuel).2
      = digits * 10 ^ exponent := by
  induction fuel generalizing digits exponent with
  | zero => rfl
  | succ fuel ih =>
    simp only [dropZeros]
    split_ifs with hzero
    · have hdigits : (digits : ℚ) = (digits / 10 : Nat) * 10 := by
        exact_mod_cast (Nat.div_mul_cancel (Nat.dvd_of_mod_eq_zero hzero.1)).symm
      rw [ih, hdigits, zpow_add_one₀ (by norm_num), mul_assoc, mul_comm (10 : ℚ)]
    · rfl

/-- A text without a sign writes a decimal: some digits, with or without others behind a point, and a
    power of ten, from which every digit behind the point takes one. -/
inductive Writes (text : List Char) (q : ℚ) : Prop where
  /-- The text has these parts, and they have the value. -/
  | intro (whole fraction tail : List Char) (power : Int)
    (htext : text = whole ++ (Json.fractionChars fraction ++ tail)) (hne : whole ≠ [])
    (hdigits : ∀ c ∈ whole ++ fraction, c.isDigit = true)
    (htail : ∀ c ∈ tail.head?, c.isDigit = false ∧ c ≠ '.') (hpower : readExponent? tail = some power)
    (hvalue : (digitsValue (whole ++ fraction) : ℚ) * 10 ^ (power - fraction.length) = q)

/-- What a text writes is read, with its sign. -/
theorem Writes.read {text : List Char} (h : Writes text q) (negative : Bool) :
    ∃ (digits : Nat) (power : Int), (digits : ℚ) * 10 ^ power = q ∧
      readDecimal? (Json.signChars negative ++ text)
        = some (Binary64.ofDecimal negative digits power) := by
  obtain ⟨whole, fraction, tail, power, rfl, hne, hdigits, htail, hpower, hvalue⟩ := h
  refine ⟨_, _, hvalue, ?_⟩
  obtain ⟨hwhole, hfraction⟩ := List.forall_mem_append.1 hdigits
  obtain ⟨htake, hdrop⟩ := Json.span_digits hwhole (Json.head?_fractionChars fraction htail)
  have hnone : whole.isEmpty = false := by simp [hne]
  -- A digit stands behind the sign.
  have hsign : ∀ cs, readDecimal? (Json.signChars negative ++ (whole ++ cs))
      = readUnsigned? negative (whole ++ cs) := by
    intro cs
    obtain ⟨c, ds, rfl⟩ := List.exists_cons_of_ne_nil hne
    have hc : c.isDigit = true := hwhole c List.mem_cons_self
    cases negative with
    | true => rfl
    | false =>
      show readDecimal? (c :: (ds ++ cs)) = _
      unfold readDecimal?
      split
      · rename_i h
        cases h
        exact absurd hc (by decide)
      · rename_i h
        cases h
        exact absurd hc (by decide)
      · rfl
  rw [hsign]
  unfold readUnsigned?
  simp only [htake, hdrop]
  cases fraction with
  | nil =>
    cases tail with
    | nil => simp [Json.fractionChars, hnone, hpower]
    | cons c cs => simp [Json.fractionChars, hnone, hpower, (htail c rfl).2]
  | cons d ds =>
    obtain ⟨htake', hdrop'⟩ := Json.span_digits hfraction fun c hc => (htail c hc).1
    simp only [Json.fractionChars, List.cons_append, hnone] at htake' hdrop' ⊢
    simp [hpower, htake', hdrop']

/-- A power of ten is read as it is laid out, with a plus or without. -/
theorem readExponent?_styled (style : NumeralStyle) (leading : Int) :
    readExponent? (Json.styledPower style leading) = some leading := by
  obtain ⟨c, cs, hdigits⟩ := List.exists_cons_of_ne_nil (decimalDigits_ne_nil (n := leading.natAbs))
  have hall : (c :: cs).all Char.isDigit = true := by
    rw [← hdigits, List.all_eq_true]
    exact fun d hd => isDigit_of_mem_decimalDigits hd
  have hvalue : digitsValue (c :: cs) = leading.natAbs := by
    rw [← hdigits, digitsValue_decimalDigits]
  have hc : c.isDigit = true := List.all_eq_true.1 hall c List.mem_cons_self
  have hminus : c ≠ '-' := by
    rintro rfl
    exact absurd hc (by decide)
  have hplus : c ≠ '+' := by
    rintro rfl
    exact absurd hc (by decide)
  rw [Json.styledPower, hdigits]
  by_cases hleading : 0 ≤ leading
  · have hnot : ¬ leading < 0 := Int.not_lt.2 hleading
    cases style.signedExponent with
    | true =>
      simp [readExponent?, hleading, hnot, hall, hvalue, Int.natAbs_of_nonneg hleading]
    | false =>
      simp [readExponent?, hleading, hnot, hminus, hplus, hall, hvalue,
        Int.natAbs_of_nonneg hleading]
  · have hlt := Int.not_le.1 hleading
    simp [readExponent?, hleading, hlt, hall, hvalue, abs_of_neg hlt]

variable (style : NumeralStyle)

/-- Digits may have zeros behind them for the power, and one more behind the point. -/
theorem writes_whole (hdigits : digits ≠ 0) (k : Nat)
    (h : style.isPositional (Json.leadingPower digits k) = true) :
    Writes (layOut style (decimalDigits digits) k) (digits * 10 ^ (k : Int)) := by
  refine .intro (decimalDigits digits ++ List.replicate k '0') ['0'] [] 0
    (Json.layOut_whole h (Int.natCast_nonneg k)) (by simp [decimalDigits_ne_nil]) ?_ (by simp) rfl ?_
  · simp only [List.forall_mem_append]
    exact ⟨⟨fun _ => isDigit_of_mem_decimalDigits, fun _ => isDigit_of_mem_zeros⟩, by simp⟩
  · have hpower : ((Nat.pow 10 (k + 1) : Nat) : ℚ) = 10 ^ ((k + 1 : Nat) : Int) := by
      rw [zpow_natCast]
      exact Nat.cast_pow 10 (k + 1)
    rw [List.append_assoc, ← List.replicate_succ', ← decimalDigits_mul_pow hdigits,
      digitsValue_decimalDigits, Nat.cast_mul, hpower, mul_assoc, ← zpow_add₀ (by norm_num)]
    congr 2
    simp

/-- The point may stand among the digits, -/
theorem writes_among (h : style.isPositional (Json.leadingPower digits exponent) = true)
    (hexponent : exponent < 0) (hleading : 0 ≤ Json.leadingPower digits exponent) :
    Writes (layOut style (decimalDigits digits) exponent) (digits * 10 ^ exponent) := by
  have htext := Json.layOut_among h hexponent hleading
  have hbehind := Json.length_behind_among hexponent hleading
  generalize (Json.leadingPower digits exponent).toNat = n at htext hbehind
  have hfraction : (decimalDigits digits).drop (n + 1) ≠ [] := by
    intro hnil
    rw [hnil, List.length_nil] at hbehind
    omega
  refine .intro ((decimalDigits digits).take (n + 1)) ((decimalDigits digits).drop (n + 1)) [] 0 ?_
    (by simp [decimalDigits_ne_nil]) ?_ (by simp) rfl ?_
  · rw [htext, Json.fractionChars_of_ne_nil hfraction, List.append_nil]
  · rw [List.take_append_drop]
    exact fun _ => isDigit_of_mem_decimalDigits
  · rw [List.take_append_drop, digitsValue_decimalDigits, hbehind, zero_sub, neg_neg]

/-- or before all of them, with zeros between. -/
theorem writes_before (h : style.isPositional (Json.leadingPower digits exponent) = true)
    (hexponent : exponent < 0) (hleading : Json.leadingPower digits exponent < 0) :
    Writes (layOut style (decimalDigits digits) exponent) (digits * 10 ^ exponent) := by
  have htext := Json.layOut_before h hexponent hleading
  have hbehind := Json.length_behind_before hleading
  generalize (-Json.leadingPower digits exponent - 1).toNat = zeros at htext hbehind
  have hfraction : List.replicate zeros '0' ++ decimalDigits digits ≠ [] := by
    simp [decimalDigits_ne_nil]
  refine .intro ['0'] (List.replicate zeros '0' ++ decimalDigits digits) [] 0 ?_ (by simp) ?_
    (by simp) rfl ?_
  · rw [htext, Json.fractionChars_of_ne_nil hfraction, List.append_nil]
    rfl
  · simp only [List.forall_mem_append]
    exact ⟨by simp, fun _ => isDigit_of_mem_zeros, fun _ => isDigit_of_mem_decimalDigits⟩
  · have hvalue : digitsValue (['0'] ++ (List.replicate zeros '0' ++ decimalDigits digits)) = digits :=
      (digitsValue_zeros (zeros + 1) _).trans digitsValue_decimalDigits
    rw [hvalue, hbehind, zero_sub, neg_neg]

/-- With a power of ten it stands behind the first one, if there are others. -/
theorem writes_power (h : style.isPositional (Json.leadingPower digits exponent) = false) :
    Writes (layOut style (decimalDigits digits) exponent) (digits * 10 ^ exponent) := by
  obtain ⟨d, ds, hcons⟩ := List.exists_cons_of_ne_nil (decimalDigits_ne_nil (n := digits))
  have hsum : Json.leadingPower digits exponent = (decimalDigits digits).length - 1 + exponent := rfl
  rw [hcons, List.length_cons] at hsum
  refine .intro [d] ds (Json.styledPower style (Json.leadingPower digits exponent)) _
    (Json.layOut_power h hcons) (by simp) ?_ ?_ (readExponent?_styled style _) ?_
  · exact fun c hc => isDigit_of_mem_decimalDigits (n := digits) (hcons ▸ hc)
  · unfold Json.styledPower
    split_ifs <;> simp
  · have hbehind : Json.leadingPower digits exponent - ds.length = exponent := by omega
    rw [hbehind]
    show (digitsValue (d :: ds) : ℚ) * _ = _
    rw [← hcons, digitsValue_decimalDigits]

/-- **What is laid out writes its decimal**, whatever the layout. -/
theorem writes_layOut (hdigits : digits ≠ 0) (exponent : Int) :
    Writes (layOut style (decimalDigits digits) exponent) (digits * 10 ^ exponent) := by
  cases h : style.isPositional (Json.leadingPower digits exponent) with
  | true =>
    by_cases hexponent : 0 ≤ exponent
    · obtain ⟨k, rfl⟩ := Int.eq_ofNat_of_zero_le hexponent
      exact writes_whole style hdigits k h
    · by_cases hleading : 0 ≤ Json.leadingPower digits exponent
      · exact writes_among style h (Int.not_le.1 hexponent) hleading
      · exact writes_before style h (Int.not_le.1 hexponent) (Int.not_le.1 hleading)
  | false => exact writes_power style h

end Layouts

/-! ### Reading numerals -/

section Numerals

variable {significand : Nat} {exponent : Int}

/-- **The numeral of a number is read back.** -/
theorem readDecimal?_numeral (style : NumeralStyle) (negative : Bool)
    (h : Binary64.IsCanonical significand exponent) :
    readDecimal? (Binary64.numeral style negative significand exponent)
      = some (.finite negative significand exponent) := by
  by_cases hzero : significand = 0
  · -- A zero has the least exponent, and a numeral of its own.
    obtain rfl := hzero
    obtain rfl : exponent = Binary64.minExponent := h.normal.resolve_left (by decide)
    cases negative <;> rfl
  · have hpos := Nat.pos_of_ne_zero hzero
    have hholds := Binary64.shortest_holds h hpos
    unfold Binary64.numeral
    generalize Binary64.shortest significand exponent = decimal at hholds
    rw [← dropZeros_value decimal.1 decimal.2 17] at hholds
    simp only
    generalize dropZeros decimal.1 decimal.2 17 = short at hholds
    obtain ⟨digits, power⟩ := short
    have hdigits : digits ≠ 0 := by
      rintro rfl
      exact absurd (hholds.pos hpos) (by simp)
    simp only [if_neg hdigits]
    -- The text has the value of the decimal, so it is rounded to the number.
    obtain ⟨n, k, hvalue, hread⟩ := (writes_layOut style hdigits power).read negative
    have hround : Binary64.ofDecimal negative n k = .finite negative significand exponent :=
      Binary64.ofDecimal_of_holds h hpos (hvalue ▸ hholds)
    rw [← hround, ← hread]
    rfl

/-- Only canonical numbers are read. -/
theorem isCanonical_of_readDecimal? {cs : List Char} {negative : Bool}
    (h : readDecimal? cs = some (.finite negative significand exponent)) :
    Binary64.IsCanonical significand exponent := by
  have hunsigned : ∀ sign cs, readUnsigned? sign cs = some (.finite negative significand exponent) →
      Binary64.IsCanonical significand exponent := by
    intro sign cs h
    unfold readUnsigned? at h
    simp only at h
    -- With a point or without, digits are rounded.
    split at h <;> split_ifs at h <;> obtain ⟨power, -, hpower⟩ := Option.map_eq_some_iff.1 h
    · exact Binary64.isCanonical_ofDecimal hpower
    · exact Binary64.isCanonical_ofDecimal hpower
  unfold readDecimal? at h
  split at h <;> exact hunsigned _ _ h

end Numerals

end SecretFill
