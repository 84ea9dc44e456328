import Mathlib
import SecretFill.Number.Shortest

namespace SecretFill

/-!
# Rounding intervals

A quotient is rounded to the number in whose rounding interval it lies: the points that are nearer to
it than to its neighbours, and the points halfway if its significand is even.

* `Binary64.IsCanonical` — the significands and exponents of finite numbers.
* `Rounding.Holds` — the points of an interval.
* `Binary64.ofRatio_of_holds`, `Binary64.ofDecimal_of_holds` — they are all rounded to the number.
* `Binary64.isCanonical_ofDecimal` — what a decimal is rounded to is canonical, unless it is too large.
-/

namespace Binary64

variable {significand : Nat} {exponent : Int}

/-- The significand and the exponent of a finite number: the significand has 53 bits, or the exponent
    is the least one. -/
structure IsCanonical (significand : Nat) (exponent : Int) : Prop where
  /-- There are 53 bits at most. -/
  bits : significand < 2 ^ 53
  /-- The exponent is in range. -/
  least : minExponent ≤ exponent
  /-- The exponent is in range. -/
  greatest : exponent ≤ maxExponent
  /-- There are 53 bits unless the exponent is the least one. -/
  normal : 2 ^ 52 ≤ significand ∨ exponent = minExponent

theorem isCanonical_iff : IsCanonical significand exponent ↔
    significand < 2 ^ 53 ∧ minExponent ≤ exponent ∧ exponent ≤ maxExponent ∧
      (2 ^ 52 ≤ significand ∨ exponent = minExponent) :=
  ⟨fun h => ⟨h.bits, h.least, h.greatest, h.normal⟩, fun ⟨h, h', h'', h'''⟩ => ⟨h, h', h'', h'''⟩⟩

instance : Decidable (IsCanonical significand exponent) := decidable_of_iff' _ isCanonical_iff

/-- Zero. -/
theorem isCanonical_zero : IsCanonical 0 minExponent := by decide

end Binary64

/-! ### Rounding to an integer -/

section Integers

open Binary64 (roundHalfEven)

variable {num den k : Nat}

/-- A quotient is rounded to the integer that it is nearest to, and halfway to an even one. -/
theorem roundHalfEven_eq (hden : 0 < den) (hlow : 2 * (k * den) ≤ 2 * num + den)
    (hhigh : 2 * num ≤ 2 * (k * den) + den)
    (heven : k % 2 = 1 → 2 * (k * den) < 2 * num + den ∧ 2 * num < 2 * (k * den) + den) :
    roundHalfEven num den = k := by
  have hdiv : den * (num / den) + num % den = num := Nat.div_add_mod num den
  have hmod : num % den < den := Nat.mod_lt num hden
  -- Only the two integers beside the quotient are near enough.
  have hk : k = num / den ∨ k = num / den + 1 := by
    have hle : num / den ≤ k := by
      by_contra hlt
      have hmul : (k + 1) * den ≤ num / den * den := Nat.mul_le_mul_right den (by omega)
      rw [Nat.mul_comm (num / den), Nat.add_mul] at hmul
      omega
    have hge : k ≤ num / den + 1 := by
      by_contra hlt
      have hmul : (num / den + 2) * den ≤ k * den := Nat.mul_le_mul_right den (by omega)
      rw [Nat.add_mul, Nat.mul_comm (num / den)] at hmul
      omega
    omega
  unfold roundHalfEven
  rcases hk with rfl | rfl
  · rw [Nat.mul_comm (num / den)] at hlow hhigh heven
    simp only
    split_ifs <;> omega
  · rw [Nat.add_mul, Nat.mul_comm (num / den)] at hlow hhigh heven
    simp only
    split_ifs <;> omega

/-- A quotient is half a unit away from what it is rounded to, at most. -/
theorem roundHalfEven_near (num : Nat) (hden : 0 < den) :
    2 * (roundHalfEven num den * den) ≤ 2 * num + den ∧
      2 * num ≤ 2 * (roundHalfEven num den * den) + den := by
  have hdiv : den * (num / den) + num % den = num := Nat.div_add_mod num den
  have hmod : num % den < den := Nat.mod_lt num hden
  have hnext : (num / den + 1) * den = den * (num / den) + den := by
    rw [Nat.add_mul, Nat.mul_comm (num / den), Nat.one_mul]
  unfold roundHalfEven
  simp only
  split_ifs <;> simp only [hnext, Nat.mul_comm (num / den)] <;> omega

/-- So rounding does not pass an integer, neither above the quotient -/
theorem roundHalfEven_le (hden : 0 < den) (h : num < k * den) : roundHalfEven num den ≤ k := by
  have hnear := (roundHalfEven_near num hden).1
  by_contra hgt
  have hmul : (k + 1) * den ≤ roundHalfEven num den * den := Nat.mul_le_mul_right _ (by omega)
  rw [Nat.add_mul] at hmul
  omega

/-- nor below it. -/
theorem le_roundHalfEven (hden : 0 < den) (h : k * den ≤ num) : k ≤ roundHalfEven num den := by
  have hnear := (roundHalfEven_near num hden).2
  by_contra hlt
  have hmul : (roundHalfEven num den + 1) * den ≤ k * den := Nat.mul_le_mul_right _ (by omega)
  rw [Nat.add_mul] at hmul
  omega

end Integers

/-! ### Quotients and powers -/

/-- A number has as many digits as its power of ten says: not more, -/
theorem le_of_length_toDigits {n : Nat} (h : n ≠ 0) : 10 ^ ((Nat.toDigits 10 n).length - 1) ≤ n := by
  have hpos : 0 < (Nat.toDigits 10 n).length := Nat.length_toDigits_pos
  by_contra hlt
  cases hlength : (Nat.toDigits 10 n).length - 1 with
  | zero =>
    rw [hlength, Nat.pow_zero] at hlt
    omega
  | succ k =>
    rw [hlength, Nat.not_le, ← Nat.length_toDigits_le_iff (by decide) (Nat.succ_pos k)] at hlt
    omega

/-- and not less. -/
theorem lt_pow_length_toDigits (n : Nat) : n < 10 ^ (Nat.toDigits 10 n).length :=
  (Nat.length_toDigits_le_iff (by decide) Nat.length_toDigits_pos).1 (Nat.le_refl _)

namespace Binary64

variable {num den significand : Nat} {exponent : Int} {q : ℚ}

/-- To scale a quotient is to multiply it. -/
theorem scale_eq (num : Nat) (hden : 0 < den) (exponent : Int) :
    0 < (scale num den exponent).2 ∧
      ((scale num den exponent).1 : ℚ) / (scale num den exponent).2
        = num / den * 2 ^ (-exponent) := by
  cases exponent with
  | ofNat e =>
    refine ⟨Nat.mul_pos hden (Nat.pow_pos (by decide)), ?_⟩
    show (num : ℚ) / ((den * 2 ^ e : Nat) : ℚ) = _
    rw [Int.ofNat_eq_natCast, zpow_neg, zpow_natCast]
    push_cast
    rw [div_mul_eq_div_div, div_eq_mul_inv (_ / _)]
  | negSucc e =>
    refine ⟨hden, ?_⟩
    show ((num * 2 ^ (e + 1) : Nat) : ℚ) / den = _
    rw [Int.neg_negSucc, zpow_natCast]
    push_cast
    ring

theorem log_eq {k : Int} (hlow : (2 : ℚ) ^ k ≤ q) (hhigh : q < 2 ^ (k + 1)) : Int.log 2 q = k := by
  have hq : 0 < q := (zpow_pos (by norm_num) _).trans_le hlow
  have hle : k ≤ Int.log 2 q := (Int.zpow_le_iff_le_log (by decide) hq).1 (by exact_mod_cast hlow)
  have hlt : Int.log 2 q < k + 1 := (Int.lt_zpow_iff_log_lt (by decide) hq).1 (by exact_mod_cast hhigh)
  omega

/-- To shift a number is to shift its leading bit. -/
theorem log_mul_zpow (hq : 0 < q) (k : Int) : Int.log 2 (q * 2 ^ k) = Int.log 2 q + k := by
  have hlow : (2 : ℚ) ^ Int.log 2 q ≤ q := by exact_mod_cast Int.zpow_log_le_self (by decide) hq
  have hhigh : q < (2 : ℚ) ^ (Int.log 2 q + 1) := by
    exact_mod_cast Int.lt_zpow_succ_log_self (b := 2) (by decide) q
  have hpos : (0 : ℚ) < 2 ^ k := zpow_pos (by norm_num) k
  refine log_eq ?_ ?_
  · rw [zpow_add₀ (by norm_num)]
    exact mul_le_mul_of_nonneg_right hlow hpos.le
  · rw [add_right_comm, zpow_add₀ (by norm_num)]
    exact mul_lt_mul_of_pos_right hhigh hpos

theorem log2_bounds {n : Nat} (hn : 0 < n) :
    (2 : ℚ) ^ (Nat.log2 n : Int) ≤ n ∧ (n : ℚ) < 2 ^ ((Nat.log2 n : Int) + 1) := by
  constructor
  · rw [zpow_natCast]
    exact_mod_cast Nat.log2_self_le (Nat.pos_iff_ne_zero.1 hn)
  · have hlt : n < 2 ^ (Nat.log2 n + 1) := Nat.lt_log2_self
    rw [← Nat.cast_succ, zpow_natCast]
    exact_mod_cast hlt

/-- The bits of numerator and denominator give the leading bit of a quotient, or the next one. -/
theorem log_div (hnum : 0 < num) (hden : 0 < den) :
    (Nat.log2 num : Int) - Nat.log2 den - 1 ≤ Int.log 2 ((num : ℚ) / den) ∧
      Int.log 2 ((num : ℚ) / den) ≤ (Nat.log2 num : Int) - Nat.log2 den := by
  have hden' : (0 : ℚ) < den := Nat.cast_pos.2 hden
  have hq : (0 : ℚ) < (num : ℚ) / den := div_pos (Nat.cast_pos.2 hnum) hden'
  have htwo : (2 : ℚ) ≠ 0 := by norm_num
  obtain ⟨hnumLow, hnumHigh⟩ := log2_bounds hnum
  obtain ⟨hdenLow, hdenHigh⟩ := log2_bounds hden
  generalize (Nat.log2 num : Int) = n at hnumLow hnumHigh ⊢
  generalize (Nat.log2 den : Int) = d at hdenLow hdenHigh ⊢
  have hlow : (2 : ℚ) ^ (n - d - 1) ≤ num / den := by
    rw [le_div_iff₀ hden']
    calc (2 : ℚ) ^ (n - d - 1) * den ≤ 2 ^ (n - d - 1) * 2 ^ (d + 1) := by gcongr
      _ = 2 ^ n := by
        rw [← zpow_add₀ htwo]
        congr 1
        ring
      _ ≤ num := hnumLow
  have hhigh : (num : ℚ) / den < 2 ^ (n - d + 1) := by
    rw [div_lt_iff₀ hden']
    calc (num : ℚ) < 2 ^ (n + 1) := hnumHigh
      _ = 2 ^ (n - d + 1) * 2 ^ d := by
        rw [← zpow_add₀ htwo]
        congr 1
        ring
      _ ≤ 2 ^ (n - d + 1) * den := by gcongr
  have hle : n - d - 1 ≤ Int.log 2 ((num : ℚ) / den) :=
    (Int.zpow_le_iff_le_log (by decide) hq).1 (by exact_mod_cast hlow)
  have hlt : Int.log 2 ((num : ℚ) / den) < n - d + 1 :=
    (Int.lt_zpow_iff_log_lt (by decide) hq).1 (by exact_mod_cast hhigh)
  omega

/-- What is left of the leading bit when a quotient is scaled. -/
theorem scale_lt_iff (hnum : 0 < num) (hden : 0 < den) (exponent : Int) (bits : Nat) :
    (scale num den exponent).1 < 2 ^ bits * (scale num den exponent).2
      ↔ Int.log 2 ((num : ℚ) / den) < exponent + bits := by
  have hq : (0 : ℚ) < (num : ℚ) / den := div_pos (Nat.cast_pos.2 hnum) (Nat.cast_pos.2 hden)
  have htwo : (0 : ℚ) < 2 := by norm_num
  obtain ⟨hd, hscale⟩ := scale_eq num hden exponent
  have hiff : ((scale num den exponent).1 : ℚ) < 2 ^ bits * (scale num den exponent).2
      ↔ (num : ℚ) / den < 2 ^ (exponent + bits) := by
    rw [← div_lt_iff₀ (Nat.cast_pos.2 hd), hscale, zpow_neg, ← div_eq_mul_inv,
      div_lt_iff₀ (zpow_pos htwo _), zpow_add₀ htwo.ne', zpow_natCast, mul_comm]
  rw [← Int.lt_zpow_iff_log_lt (by decide) hq]
  exact_mod_cast hiff

/-- The exponent for a quotient is that of its leading bit, less the 52 bits behind it. -/
theorem exponentFor_eq (hnum : 0 < num) (hden : 0 < den) :
    exponentFor num den = max minExponent (Int.log 2 ((num : ℚ) / den) - 52) := by
  obtain ⟨hlow, hhigh⟩ := log_div hnum hden
  unfold exponentFor
  simp only [Nat.pow_eq]
  generalize hguess : (Nat.log2 num : Int) - (Nat.log2 den : Int) - 52 = guess
  -- A look at the scaled quotient tells which of the two bits leads.
  have hleads := scale_lt_iff hnum hden guess 52
  rw [← Nat.div_lt_iff_lt_mul (scale_eq num hden guess).1] at hleads
  congr 1
  split_ifs with h
  · have hlt := hleads.1 h
    omega
  · have hge := mt hleads.2 h
    omega

end Binary64

/-! ### The points of an interval -/

namespace Rounding

variable {r : Rounding} {significand gridNum gridDen digits : Nat} {exponent : Int} {q : ℚ}

/-- The unit of an interval. -/
def unit (r : Rounding) : ℚ := r.unitNum / r.unitDen

/-- A point lies in an interval, which may have its ends. -/
def Holds (r : Rounding) (q : ℚ) : Prop :=
  if r.closed then r.low * r.unit ≤ q ∧ q ≤ r.high * r.unit
  else r.low * r.unit < q ∧ q < r.high * r.unit

/-- The points on a grid that are found in an interval are those that lie there. -/
theorem contains_iff (hunit : 0 < r.unitDen) (hgrid : 0 < gridDen) :
    r.contains gridNum gridDen digits = true ↔ r.Holds (digits * (gridNum / gridDen)) := by
  have hunit' : (0 : ℚ) < r.unitDen := Nat.cast_pos.2 hunit
  have hgrid' : (0 : ℚ) < gridDen := Nat.cast_pos.2 hgrid
  have hle : ∀ n : Nat, (n : ℚ) * r.unit ≤ digits * (gridNum / gridDen)
      ↔ n * r.unitNum * gridDen ≤ digits * gridNum * r.unitDen := by
    intro n
    rw [unit, ← mul_div_assoc, ← mul_div_assoc, div_le_div_iff₀ hunit' hgrid']
    exact_mod_cast Iff.rfl
  have hge : ∀ n : Nat, (digits : ℚ) * (gridNum / gridDen) ≤ n * r.unit
      ↔ digits * gridNum * r.unitDen ≤ n * r.unitNum * gridDen := by
    intro n
    rw [unit, ← mul_div_assoc, ← mul_div_assoc, div_le_div_iff₀ hgrid' hunit']
    exact_mod_cast Iff.rfl
  unfold contains Holds
  cases r.closed with
  | true => simp [hle, hge]
  | false => simp [fun n => lt_iff_lt_of_le_iff_le (hle n), fun n => lt_iff_lt_of_le_iff_le (hge n)]

theorem unit_of (significand : Nat) (exponent : Int) :
    0 < (Rounding.of significand exponent).unitDen ∧
      (Rounding.of significand exponent).unit = 2 ^ (exponent - 2) := by
  unfold unit of
  cases exponent - 2 with
  | ofNat e =>
    refine ⟨Nat.one_pos, ?_⟩
    show ((2 ^ e : Nat) : ℚ) / ((1 : Nat) : ℚ) = _
    rw [Int.ofNat_eq_natCast, zpow_natCast]
    push_cast
    rw [div_one]
  | negSucc e =>
    refine ⟨Nat.pow_pos (by decide), ?_⟩
    show ((1 : Nat) : ℚ) / ((2 ^ (e + 1) : Nat) : ℚ) = _
    rw [zpow_negSucc]
    push_cast
    rw [one_div]

theorem value_of (significand : Nat) (exponent : Int) :
    ((Rounding.of significand exponent).value : ℚ) * (Rounding.of significand exponent).unit
      = significand * 2 ^ exponent := by
  have hvalue : ((Rounding.of significand exponent).value : ℚ) = 4 * significand := by
    show ((4 * significand : Nat) : ℚ) = _
    push_cast
    rfl
  rw [hvalue, (unit_of significand exponent).2, zpow_sub₀ (by norm_num)]
  ring

/-- Seen from a number four units to the one, the interval of a number reaches half a one to both
    sides, or a quarter below a power of two, and the ends belong to it only if the number is even. -/
theorem holds_of_iff : (Rounding.of significand exponent).Holds q ↔
    if significand % 2 = 0 then
      ((Rounding.of significand exponent).low : ℚ) ≤ q * 2 ^ (2 - exponent) ∧
        q * 2 ^ (2 - exponent) ≤ 4 * significand + 2
    else ((Rounding.of significand exponent).low : ℚ) < q * 2 ^ (2 - exponent) ∧
      q * 2 ^ (2 - exponent) < 4 * significand + 2 := by
  have hpos : (0 : ℚ) < 2 ^ (exponent - 2) := zpow_pos (by norm_num) _
  have hinv : (2 : ℚ) ^ (2 - exponent) = (2 ^ (exponent - 2))⁻¹ := by
    rw [← zpow_neg, Int.neg_sub]
  have hhigh : ((Rounding.of significand exponent).high : ℚ) = 4 * significand + 2 := by
    show ((4 * significand + 2 : Nat) : ℚ) = _
    push_cast
    rfl
  have hclosed : (Rounding.of significand exponent).closed = decide (significand % 2 = 0) := rfl
  unfold Holds
  rw [(unit_of significand exponent).2, hclosed, hinv, ← hhigh, ← div_eq_mul_inv,
    le_div_iff₀ hpos, div_le_iff₀ hpos, lt_div_iff₀ hpos, div_lt_iff₀ hpos]
  simp only [decide_eq_true_eq]

theorem low_of (significand : Nat) (exponent : Int) :
    (Rounding.of significand exponent).low
      = if significand = 2 ^ 52 ∧ Binary64.minExponent < exponent then 4 * significand - 1
        else 4 * significand - 2 := rfl

theorem le_low (significand : Nat) (exponent : Int) :
    4 * (significand : ℚ) - 2 ≤ (Rounding.of significand exponent).low := by
  have hnat : 4 * significand ≤ (Rounding.of significand exponent).low + 2 := by
    rw [low_of]
    split_ifs <;> omega
  have hcast : 4 * (significand : ℚ) ≤ (Rounding.of significand exponent).low + 2 := by
    exact_mod_cast hnat
  linarith

/-- The points of an interval are half a one away from the number, or less, -/
theorem Holds.bounds (h : (Rounding.of significand exponent).Holds q) :
    4 * (significand : ℚ) - 2 ≤ q * 2 ^ (2 - exponent) ∧
      q * 2 ^ (2 - exponent) ≤ 4 * significand + 2 := by
  have hlow := le_low significand exponent
  rw [holds_of_iff] at h
  split_ifs at h
  · exact ⟨hlow.trans h.1, h.2⟩
  · exact ⟨hlow.trans h.1.le, h.2.le⟩

/-- so they are positive as the number is, -/
theorem Holds.pos (h : (Rounding.of significand exponent).Holds q) (hpos : 0 < significand) :
    0 < q := by
  have hone : (1 : ℚ) ≤ significand := by exact_mod_cast hpos
  have hlow := h.bounds.1
  exact pos_of_mul_pos_left (by linarith) (zpow_pos (by norm_num) (2 - exponent)).le

/-- less if it is odd, -/
theorem Holds.strict (h : (Rounding.of significand exponent).Holds q) (hodd : significand % 2 = 1) :
    4 * (significand : ℚ) - 2 < q * 2 ^ (2 - exponent) ∧
      q * 2 ^ (2 - exponent) < 4 * significand + 2 := by
  have hlow := le_low significand exponent
  rw [holds_of_iff, if_neg (by omega)] at h
  exact ⟨hlow.trans_lt h.1, h.2⟩

/-- and a quarter below a power of two. -/
theorem Holds.boundary (h : (Rounding.of (2 ^ 52) exponent).Holds q)
    (hexponent : Binary64.minExponent < exponent) :
    (2 : ℚ) ^ 54 - 1 ≤ q * 2 ^ (2 - exponent) := by
  rw [holds_of_iff, if_pos (by decide), low_of, if_pos ⟨rfl, hexponent⟩] at h
  have hlow := h.1
  norm_num at hlow ⊢
  exact hlow

end Rounding

/-! ### Rounding to a number -/

namespace Binary64

variable {num den significand digits : Nat} {exponent power : Int} {negative : Bool} {q : ℚ}

/-- Three bits are less than a decimal digit. -/
theorem two_zpow_lt_ten_zpow {k l : Int} (hl : 0 ≤ l) (hk : k < 3 * l) :
    (2 : ℚ) ^ k < 10 ^ l := by
  calc (2 : ℚ) ^ k < 2 ^ (3 * l) := zpow_lt_zpow_right₀ (by norm_num) hk
    _ = 8 ^ l := by
      rw [zpow_mul]
      norm_num
    _ ≤ 10 ^ l := zpow_le_zpow_left₀ hl (by norm_num) (by norm_num)

/-- What rounding a quotient comes to, given its exponent and its significand. -/
theorem ofRatio_eq (hnum : num ≠ 0) {e : Int} (he : exponentFor num den = e) {s : Nat}
    (hs : roundHalfEven (scale num den e).1 (scale num den e).2 = s) :
    ofRatio negative num den =
      if maxExponent < (if s = 2 ^ 53 then e + 1 else e) then infinite negative
      else finite negative (if s = 2 ^ 53 then 2 ^ 52 else s) (if s = 2 ^ 53 then e + 1 else e) := by
  unfold ofRatio
  simp only [if_neg hnum, he, hs, Nat.pow_eq]
  split_ifs <;> rfl

/-- A scaled quotient is rounded to an integer that is half a unit away, or less if it is odd. -/
theorem roundHalfEven_scale (hden : 0 < den) {e : Int} {s : Nat}
    (hlow : 2 * (s : ℚ) ≤ 2 * (num / den * 2 ^ (-e)) + 1)
    (hhigh : 2 * ((num : ℚ) / den * 2 ^ (-e)) ≤ 2 * s + 1)
    (hodd : s % 2 = 1 → 2 * (s : ℚ) < 2 * (num / den * 2 ^ (-e)) + 1 ∧
      2 * ((num : ℚ) / den * 2 ^ (-e)) < 2 * s + 1) :
    roundHalfEven (scale num den e).1 (scale num den e).2 = s := by
  obtain ⟨hd, hscale⟩ := scale_eq num hden e
  have hd' : (0 : ℚ) < (scale num den e).2 := Nat.cast_pos.2 hd
  generalize (num : ℚ) / den * 2 ^ (-e) = z at hlow hhigh hodd hscale
  rw [div_eq_iff hd'.ne'] at hscale
  refine roundHalfEven_eq hd ?_ ?_ fun h => ?_
  · have hcast : 2 * ((s : ℚ) * (scale num den e).2)
        ≤ 2 * (scale num den e).1 + (scale num den e).2 := by nlinarith
    exact_mod_cast hcast
  · have hcast : 2 * ((scale num den e).1 : ℚ)
        ≤ 2 * (s * (scale num den e).2) + (scale num den e).2 := by nlinarith
    exact_mod_cast hcast
  · obtain ⟨hlow, hhigh⟩ := hodd h
    constructor
    · have hcast : 2 * ((s : ℚ) * (scale num den e).2)
          < 2 * (scale num den e).1 + (scale num den e).2 := by nlinarith
      exact_mod_cast hcast
    · have hcast : 2 * ((scale num den e).1 : ℚ)
          < 2 * (s * (scale num den e).2) + (scale num den e).2 := by nlinarith
      exact_mod_cast hcast

/-- The exponent for a quotient, by its quarters of a unit. -/
theorem exponentFor_of_log (hnum : 0 < num) (hden : 0 < den) (exponent : Int) :
    exponentFor num den = max minExponent
      (Int.log 2 ((num : ℚ) / den * 2 ^ (2 - exponent)) + exponent - 54) := by
  have hq : (0 : ℚ) < (num : ℚ) / den := div_pos (Nat.cast_pos.2 hnum) (Nat.cast_pos.2 hden)
  rw [exponentFor_eq hnum hden, log_mul_zpow hq]
  congr 1
  ring

/-- A scale in quarters. -/
theorem four_mul_scaled (q : ℚ) (exponent : Int) :
    q * 2 ^ (2 - exponent) = 4 * (q * 2 ^ (-exponent)) := by
  rw [sub_eq_add_neg, zpow_add₀ (by norm_num)]
  norm_num
  ring

/-- A point of an interval is rounded to its number if it has the exponent of the number, -/
theorem ofRatio_of_exponent (h : IsCanonical significand exponent) (hnum : num ≠ 0)
    (hden : 0 < den) (hq : (Rounding.of significand exponent).Holds ((num : ℚ) / den))
    (he : exponentFor num den = exponent) :
    ofRatio negative num den = finite negative significand exponent := by
  have hs : roundHalfEven (scale num den exponent).1 (scale num den exponent).2 = significand := by
    obtain ⟨hlow, hhigh⟩ := hq.bounds
    rw [four_mul_scaled] at hlow hhigh
    refine roundHalfEven_scale hden (by linarith) (by linarith) fun hodd => ?_
    obtain ⟨hlow, hhigh⟩ := hq.strict hodd
    rw [four_mul_scaled] at hlow hhigh
    exact ⟨by linarith, by linarith⟩
  have hno : significand ≠ 2 ^ 53 := h.bits.ne
  rw [ofRatio_eq hnum he hs, if_neg hno, if_neg hno, if_neg (Int.not_lt.2 h.greatest)]

/-- or if the number is a power of two and the point a little less: there the numbers are twice as
    dense, and rounding up carries. -/
theorem ofRatio_of_carry (hexponent : exponent ≤ maxExponent) (hnum : num ≠ 0) (hden : 0 < den)
    (hlow : (2 : ℚ) ^ 54 - 1 ≤ num / den * 2 ^ (2 - exponent))
    (hhigh : (num : ℚ) / den * 2 ^ (2 - exponent) < 2 ^ 54)
    (he : exponentFor num den = exponent - 1) :
    ofRatio negative num den = finite negative (2 ^ 52) exponent := by
  have hs : roundHalfEven (scale num den (exponent - 1)).1 (scale num den (exponent - 1)).2
      = 2 ^ 53 := by
    have hhalf : (num : ℚ) / den * 2 ^ (2 - exponent) = 2 * (num / den * 2 ^ (-(exponent - 1))) := by
      have hpower : 2 - exponent = 1 + -(exponent - 1) := by ring
      rw [hpower, zpow_add₀ (by norm_num), zpow_one]
      ring
    rw [hhalf] at hlow hhigh
    refine roundHalfEven_scale hden ?_ ?_ fun hodd => absurd hodd (by decide)
    · push_cast
      linarith
    · push_cast
      linarith
  rw [ofRatio_eq hnum he hs, if_pos rfl, if_pos rfl, Int.sub_add_cancel,
    if_neg (Int.not_lt.2 hexponent)]

theorem IsCanonical.cast_le (h : IsCanonical significand exponent) :
    (significand : ℚ) ≤ 2 ^ 53 - 1 := by
  have hle : significand + 1 ≤ 2 ^ 53 := h.bits
  have hcast : (significand : ℚ) + 1 ≤ 2 ^ 53 := by exact_mod_cast hle
  linarith

/-- **The points of its interval are rounded to a number.** -/
theorem ofRatio_of_holds (h : IsCanonical significand exponent) (hpos : 0 < significand)
    (hden : 0 < den) (hq : (Rounding.of significand exponent).Holds ((num : ℚ) / den)) :
    ofRatio negative num den = finite negative significand exponent := by
  obtain ⟨hlow, hhigh⟩ := hq.bounds
  have hone : (1 : ℚ) ≤ significand := by exact_mod_cast hpos
  have hbits := h.cast_le
  have hnum : num ≠ 0 := by
    rintro rfl
    exact absurd (hq.pos hpos) (by simp)
  have hexponent := exponentFor_of_log (Nat.pos_of_ne_zero hnum) hden exponent
  by_cases hnormal : exponent = minExponent ∨ (2 : ℚ) ^ 54 ≤ num / den * 2 ^ (2 - exponent)
  · -- The leading bit of the point is that of the number, or less if the exponent is the least one.
    refine ofRatio_of_exponent h hnum hden hq (hexponent.trans ?_)
    have hlt : Int.log 2 ((num : ℚ) / den * 2 ^ (2 - exponent)) < 55 := by
      refine (Int.lt_zpow_iff_log_lt (by decide) (by linarith)).1 ?_
      norm_num
      linarith
    rcases hnormal with rfl | hnormal
    · omega
    · have hge : 54 ≤ Int.log 2 ((num : ℚ) / den * 2 ^ (2 - exponent)) := by
        refine (Int.zpow_le_iff_le_log (by decide) (by linarith)).1 ?_
        norm_num at hnormal ⊢
        exact hnormal
      have hleast := h.least
      omega
  · -- The point lies below a power of two.
    obtain ⟨hleast, hbelow⟩ := not_or.1 hnormal
    rw [not_le] at hbelow
    have hlt : minExponent < exponent := lt_of_le_of_ne h.least (Ne.symm hleast)
    have hpower : significand = 2 ^ 52 := by
      have hge : 2 ^ 52 ≤ significand := h.normal.resolve_right hleast
      have hle : significand < 2 ^ 52 + 1 := by
        have hcast : (significand : ℚ) < 2 ^ 52 + 1 := by linarith
        exact_mod_cast hcast
      omega
    subst hpower
    have hquarter := hq.boundary hlt
    refine ofRatio_of_carry h.greatest hnum hden hquarter hbelow (hexponent.trans ?_)
    have hlog : Int.log 2 ((num : ℚ) / den * 2 ^ (2 - exponent)) = 53 := by
      refine log_eq ?_ ?_
      · norm_num at hquarter ⊢
        linarith
      · norm_num at hbelow ⊢
        exact hbelow
    omega

/-- Every point of an interval is in range. -/
theorem IsCanonical.in_range (h : IsCanonical significand exponent) (hpos : 0 < significand)
    (hq : (Rounding.of significand exponent).Holds q) :
    (2 : ℚ) ^ (-1075 : Int) ≤ q ∧ q ≤ 2 ^ (1024 : Int) := by
  obtain ⟨hlow, hhigh⟩ := hq.bounds
  have hone : (1 : ℚ) ≤ significand := by exact_mod_cast hpos
  have hbits := h.cast_le
  have hunit : q = q * 2 ^ (2 - exponent) * 2 ^ (exponent - 2) := by
    rw [mul_assoc, ← zpow_add₀ (by norm_num)]
    simp
  constructor
  · have hexponent : (2 : ℚ) ^ (-1076 : Int) ≤ 2 ^ (exponent - 2) := by
      have hle := h.least
      exact zpow_le_zpow_right₀ (by norm_num) (by unfold minExponent at hle; omega)
    calc (2 : ℚ) ^ (-1075 : Int) = 2 * 2 ^ (-1076 : Int) := by
          rw [show (-1075 : Int) = 1 + -1076 by norm_num, zpow_add₀ (by norm_num), zpow_one]
      _ ≤ q * 2 ^ (2 - exponent) * 2 ^ (exponent - 2) :=
        mul_le_mul (by linarith) hexponent (zpow_pos (by norm_num) _).le (by linarith)
      _ = q := hunit.symm
  · have hexponent : (2 : ℚ) ^ (exponent - 2) ≤ 2 ^ (969 : Int) := by
      have hle := h.greatest
      exact zpow_le_zpow_right₀ (by norm_num) (by unfold maxExponent at hle; omega)
    calc q = q * 2 ^ (2 - exponent) * 2 ^ (exponent - 2) := hunit
      _ ≤ 2 ^ (55 : Int) * 2 ^ (969 : Int) := by
        gcongr
        rw [zpow_ofNat]
        linarith
      _ = 2 ^ (1024 : Int) := (zpow_add₀ (by norm_num) _ _).symm

/-- A decimal by its magnitude, which is the number of its digits before the point. -/
theorem magnitude_bounds (hdigits : digits ≠ 0) (power : Int) :
    (10 : ℚ) ^ ((Nat.toDigits 10 digits).length + power - 1) ≤ digits * 10 ^ power ∧
      (digits : ℚ) * 10 ^ power < 10 ^ ((Nat.toDigits 10 digits).length + power) := by
  have hlow : (10 : ℚ) ^ ((Nat.toDigits 10 digits).length - 1) ≤ digits := by
    exact_mod_cast le_of_length_toDigits hdigits
  have hhigh : (digits : ℚ) < 10 ^ (Nat.toDigits 10 digits).length := by
    exact_mod_cast lt_pow_length_toDigits digits
  have hlength : 0 < (Nat.toDigits 10 digits).length := Nat.length_toDigits_pos
  generalize (Nat.toDigits 10 digits).length = length at hlow hhigh hlength
  have hpower : (0 : ℚ) < 10 ^ power := zpow_pos (by norm_num) _
  constructor
  · have hsplit : (length : Int) + power - 1 = ((length - 1 : Nat) : Int) + power := by omega
    rw [hsplit, zpow_add₀ (by norm_num), zpow_natCast]
    exact mul_le_mul_of_nonneg_right hlow hpower.le
  · rw [zpow_add₀ (by norm_num), zpow_natCast]
    exact mul_lt_mul_of_pos_right hhigh hpower

/-- A decimal in range is not too small and not too large to be looked at. -/
theorem magnitude_in_range (hdigits : digits ≠ 0)
    (hlow : (2 : ℚ) ^ (-1075 : Int) ≤ digits * 10 ^ power)
    (hhigh : (digits : ℚ) * 10 ^ power ≤ 2 ^ (1024 : Int)) :
    -400 ≤ ((Nat.toDigits 10 digits).length : Int) + power ∧
      ((Nat.toDigits 10 digits).length : Int) + power ≤ 400 := by
  obtain ⟨hbelow, habove⟩ := magnitude_bounds hdigits power
  generalize ((Nat.toDigits 10 digits).length : Int) + power = magnitude at hbelow habove ⊢
  have hone : (1 : ℚ) < 10 := by norm_num
  constructor
  · have hlt : (10 : ℚ) ^ (-401 : Int) < 10 ^ magnitude :=
      calc (10 : ℚ) ^ (-401 : Int) ≤ 2 ^ (-1075 : Int) := by
            rw [zpow_neg, zpow_neg]
            gcongr
            exact (two_zpow_lt_ten_zpow (by norm_num) (by norm_num)).le
        _ ≤ digits * 10 ^ power := hlow
        _ < 10 ^ magnitude := habove
    have hexponent := (zpow_lt_zpow_iff_right₀ hone).1 hlt
    omega
  · have hlt : (10 : ℚ) ^ (magnitude - 1) < 10 ^ (400 : Int) :=
      calc (10 : ℚ) ^ (magnitude - 1) ≤ digits * 10 ^ power := hbelow
        _ ≤ 2 ^ (1024 : Int) := hhigh
        _ < 10 ^ (400 : Int) := two_zpow_lt_ten_zpow (by norm_num) (by norm_num)
    have hexponent := (zpow_lt_zpow_iff_right₀ hone).1 hlt
    omega

/-- **The decimals of its interval** are rounded to a number too. -/
theorem ofDecimal_of_holds (h : IsCanonical significand exponent) (hpos : 0 < significand)
    (hq : (Rounding.of significand exponent).Holds (digits * 10 ^ power)) :
    ofDecimal negative digits power = finite negative significand exponent := by
  have hdigits : digits ≠ 0 := by
    rintro rfl
    exact absurd (hq.pos hpos) (by simp)
  obtain ⟨hlow, hhigh⟩ := h.in_range hpos hq
  obtain ⟨hsmall, hlarge⟩ := magnitude_in_range hdigits hlow hhigh
  unfold ofDecimal
  simp only
  rw [if_neg (not_or.2 ⟨hdigits, Int.not_lt.2 hsmall⟩), if_neg (Int.not_lt.2 hlarge)]
  cases power with
  | ofNat e =>
    refine ofRatio_of_holds h hpos Nat.one_pos ?_
    have hcast : (digits : ℚ) * 10 ^ Int.ofNat e = ((digits * 10 ^ e : Nat) : ℚ) / (1 : Nat) := by
      push_cast
      simp
    rwa [hcast] at hq
  | negSucc e =>
    refine ofRatio_of_holds h hpos (Nat.pow_pos (by decide)) ?_
    have hcast : (digits : ℚ) * 10 ^ Int.negSucc e = (digits : ℚ) / ((10 ^ (e + 1) : Nat) : ℚ) := by
      rw [zpow_negSucc, ← div_eq_mul_inv]
      push_cast
      rfl
    rwa [hcast] at hq

/-! ### What is rounded to -/

/-- The significand of a quotient has 53 bits at most, or it is the next power of two; and it has no
    less, unless the exponent is the least one. -/
theorem significand_bounds (hnum : 0 < num) (hden : 0 < den) {e : Int}
    (he : exponentFor num den = e) {s : Nat}
    (hs : roundHalfEven (scale num den e).1 (scale num den e).2 = s) :
    s ≤ 2 ^ 53 ∧ (2 ^ 52 ≤ s ∨ e = minExponent) := by
  have hexponent := he.symm.trans (exponentFor_eq hnum hden)
  have hd := (scale_eq num hden e).1
  constructor
  · have hlt := (scale_lt_iff hnum hden e 53).2 (by omega)
    exact hs ▸ roundHalfEven_le hd hlt
  · by_cases hleast : e = minExponent
    · exact .inr hleast
    · have hge := mt (scale_lt_iff hnum hden e 52).1 (by omega)
      exact .inl (hs ▸ le_roundHalfEven hd (Nat.not_lt.1 hge))

/-- Rounding a quotient leads to a canonical number, unless it is too large. -/
theorem isCanonical_ofRatio (hden : 0 < den) {sign : Bool}
    (h : ofRatio negative num den = finite sign significand exponent) :
    IsCanonical significand exponent := by
  by_cases hnum : num = 0
  · rw [ofRatio, if_pos hnum] at h
    cases h
    exact isCanonical_zero
  · generalize he : exponentFor num den = e
    generalize hs : roundHalfEven (scale num den e).1 (scale num den e).2 = s
    obtain ⟨hbits, hnormal⟩ := significand_bounds (Nat.pos_of_ne_zero hnum) hden he hs
    have hleast : minExponent ≤ e := he ▸ le_max_left _ _
    rw [ofRatio_eq hnum he hs] at h
    split_ifs at h with hcarry hlarge hlarge
    · cases h
      exact ⟨by decide, by omega, Int.not_lt.1 hlarge, .inl (Nat.le_refl _)⟩
    · cases h
      exact ⟨by omega, hleast, Int.not_lt.1 hlarge, hnormal⟩

/-- So does rounding a decimal. -/
theorem isCanonical_ofDecimal {sign : Bool}
    (h : ofDecimal negative digits power = finite sign significand exponent) :
    IsCanonical significand exponent := by
  unfold ofDecimal at h
  simp only at h
  split_ifs at h with hzero hlarge
  · cases h
    exact isCanonical_zero
  · cases power with
    | ofNat e => exact isCanonical_ofRatio Nat.one_pos h
    | negSucc e => exact isCanonical_ofRatio (Nat.pow_pos (by decide)) h

end Binary64

end SecretFill
