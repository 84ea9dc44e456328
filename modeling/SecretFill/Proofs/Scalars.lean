import Mathlib.Data.List.Induction
import SecretFill.Proofs.Numerals
import SecretFill.Yaml.Character
import SecretFill.Yaml.Schema

namespace SecretFill

/-!
# The types of words and numerals

A scalar without quotes is typed by its first character and by whether it can be read whole as a number.
A decimal integer is one if it fits into 64 bits, and a name is a text.

* `wordBound`, `wideBound` — the bounds that decide what becomes of an integer.
* `decimalDigits_digitsValue`, `readNat?_digits` — numerals are printed and read as their digits say.
* `plainValue?_numeral`, `plainValue?_lower` — the types of numerals and of names.
-/

/-! ### Numerals -/

section Numerals

variable {ds : List Char}

theorem digitsValue_append_singleton (d : Char) :
    digitsValue (ds ++ [d]) = digitsValue ds * 10 + (d.toNat - '0'.toNat) := by
  simp [digitsValue]

theorem digit_cases {d : Char} (h : d.isDigit = true) :
    d.toNat - '0'.toNat < 10 ∧ decimalDigits (d.toNat - '0'.toNat) = [d] := by
  have hrange : 48 ≤ d.toNat ∧ d.toNat ≤ 57 := Char.isDigit_iff_toNat.1 h
  have hprinted : ∀ n : Fin 10, decimalDigits n.val = [Char.ofNat (n.val + 48)] := by decide
  have hlt : d.toNat - '0'.toNat < 10 := by
    show d.toNat - 48 < 10
    omega
  refine ⟨hlt, ?_⟩
  have hback : d.toNat - '0'.toNat + 48 = d.toNat := by
    show d.toNat - 48 + 48 = d.toNat
    omega
  rw [hprinted ⟨d.toNat - '0'.toNat, hlt⟩, hback, Char.ofNat_toNat]

/-- A numeral without leading zeros is the one that is printed for its value. -/
theorem decimalDigits_digitsValue (hdigits : ∀ d ∈ ds, d.isDigit = true)
    (hwhole : Json.isWhole ds = true) : decimalDigits (digitsValue ds) = ds := by
  -- The induction takes the last digit off, as printing does.
  induction ds using List.reverseRecOn with
  | nil => cases hwhole
  | append_singleton ds d ih =>
    obtain ⟨hlt, hprinted⟩ := digit_cases (hdigits d (by simp))
    rw [digitsValue_append_singleton]
    cases ds with
    | nil => simpa [digitsValue] using hprinted
    | cons first rest =>
      have hfirst : first ≠ '0' := by
        rintro rfl
        simp [Json.isWhole] at hwhole
      have hinit : Json.isWhole (first :: rest) = true := Json.isWhole_of_head? (by simp) (by simpa using hfirst)
      have hrest : decimalDigits (digitsValue (first :: rest)) = first :: rest :=
        ih (fun c hc => hdigits c (List.mem_append_left _ hc)) hinit
      -- The digits before the last one are not all zeros, since the first one is not.
      have hpos : 0 < digitsValue (first :: rest) := by
        rw [Nat.pos_iff_ne_zero]
        intro hzero
        rw [hzero] at hrest
        exact hfirst (List.cons.inj hrest).1.symm
      rw [Nat.mul_comm, decimalDigits, ← Nat.toDigits_append_toDigits (by decide) hpos hlt]
      exact congrArg₂ (· ++ ·) hrest hprinted

/-- Only digits have a value in base ten. -/
theorem digitValue?_of_not_digit {c : Char} (h : c.isDigit = false) : digitValue? 10 c = none := by
  simp only [digitValue?, h]
  split
  · contradiction
  · split
    · simp [Option.filter]
    · split <;> simp [Option.filter]

/-- Digits are read as the number that they write. -/
theorem readNat?_digits (hne : ds ≠ []) (hdigits : ∀ d ∈ ds, d.isDigit = true) :
    readNat? 10 ds = some (digitsValue ds) := by
  have hfold : ∀ n, ds.foldlM (fun n c => (digitValue? 10 c).map (n * 10 + ·)) n
      = some (ds.foldl (fun n c => n * 10 + (c.toNat - '0'.toNat)) n) := by
    clear hne
    induction ds with
    | nil => exact fun n => rfl
    | cons d ds ih =>
      intro n
      have hd : digitValue? 10 d = some (d.toNat - '0'.toNat) := by
        have hdigit : d.isDigit = true := hdigits d List.mem_cons_self
        rw [digitValue?, if_pos hdigit, Option.filter, if_pos]
        exact decide_eq_true (digit_cases hdigit).1
      simp only [List.foldlM_cons, List.foldl_cons, hd]
      exact ih (fun c hc => hdigits c (List.mem_cons_of_mem _ hc)) _
  cases ds with
  | nil => exact absurd rfl hne
  | cons d ds => exact hfold 0

end Numerals

namespace Yaml

/-! ### Types by the first character -/

section First

variable {c : Char} {cs : List Char}

/-- Without a sign and a mark of a base an integer is a row of digits. -/
theorem integer?_of_plain (hminus : c ≠ '-') (hplus : c ≠ '+') (hbased : readBased? (c :: cs) = none)
    (hpadded : isZeroPadded (c :: cs) = false) :
    integer? (c :: cs) = (readNat? 10 (c :: cs)).map Int.ofNat := by
  simp [integer?, hminus, hplus, hbased, hpadded]

/-- Without a zero no base is marked, and nothing is padded. -/
theorem readBased?_of_ne (hc : c ≠ '0') : readBased? (c :: cs) = none := by
  simp [readBased?, hc]

theorem isZeroPadded_of_ne (hminus : c ≠ '-') (hplus : c ≠ '+') (hc : c ≠ '0') :
    isZeroPadded (c :: cs) = false := by
  simp [isZeroPadded, hminus, hplus, hc]

/-- A letter begins no number. -/
theorem floatValue?_of_letter (hplus : c ≠ '+') (hminus : c ≠ '-') (hpoint : c ≠ '.')
    (hdigit : c.isDigit = false) : floatValue? (c :: cs) = none := by
  simp [floatValue?, hminus, hplus, hpoint, readDecimal?, readUnsigned?, hdigit]

end First

/-! ### Integers that fit -/

/-- The first natural number that needs more than 64 bits, -/
def wordBound : Nat := Nat.pow 2 64

/-- and the first one that needs more than 128. -/
def wideBound : Nat := Nat.pow 2 128

section Integers

variable {cs : List Char} {n : Nat}

theorem wordBound_le_wideBound : wordBound ≤ wideBound := by
  decide

/-- The fit of a natural number. -/
theorem integerFit_natCast (n : Nat) : integerFit (n : Int)
    = if n < wordBound then .fits else if n < wideBound then .wide else .huge := by
  have hlow : ∀ k : Nat, -(k : Int) ≤ (n : Int) := fun k => by omega
  simp only [integerFit, hlow, true_and, Int.ofNat_lt, wordBound, wideBound]
  rfl

theorem integerFit_of_lt_wordBound (h : n < wordBound) : integerFit (n : Int) = .fits := by
  rw [integerFit_natCast, if_pos h]

theorem integerFit_of_lt_wideBound (hle : wordBound ≤ n) (hlt : n < wideBound) :
    integerFit (n : Int) = .wide := by
  rw [integerFit_natCast, if_neg (Nat.not_lt.2 hle), if_pos hlt]

theorem integerFit_of_le (h : wideBound ≤ n) : integerFit (n : Int) = .huge := by
  have hle : wordBound ≤ n := Nat.le_trans wordBound_le_wideBound h
  rw [integerFit_natCast, if_neg (Nat.not_lt.2 hle), if_neg (Nat.not_lt.2 h)]

/-- A text that spells an integer is one, -/
theorem numberOrString?_of_fits {m : Int} (hinteger : integer? cs = some m)
    (hfit : integerFit m = .fits) : numberOrString? cs = some (.int m) := by
  rw [numberOrString?, hinteger]
  simp only [hfit]

/-- or it is refused, -/
theorem numberOrString?_of_wide {m : Int} (hinteger : integer? cs = some m)
    (hfit : integerFit m = .wide) : numberOrString? cs = none := by
  rw [numberOrString?, hinteger]
  simp only [hfit]

/-- unless the integer is larger still. -/
theorem numberOrString?_of_huge (h : ∀ m, integer? cs = some m → integerFit m = .huge) :
    numberOrString? cs = some ((if isZeroPadded cs then none else floatValue? cs).elim
      (.string (String.ofList cs)) .float) := by
  rw [numberOrString?]
  generalize (if isZeroPadded cs then none else floatValue? cs) = float?
  cases hinteger : integer? cs with
  | none => cases float? <;> rfl
  | some m =>
    simp only [h m hinteger]
    cases float? <;> rfl

end Integers

/-! ### Numerals and names -/

/-- What begins with a digit spells neither nothing nor a truth value. -/
theorem plainValue?_of_digit {c : Char} (hc : c.isDigit = true) (rest : List Char) :
    plainValue? (c :: rest) = numberOrString? (c :: rest) := by
  have hne : ∀ {d : Char}, d.isDigit = false → c ≠ d := ne_of_class hc
  have hnull : isNullText (c :: rest) = false := by
    simp [isNullText, hne (d := 'n') (by decide), hne (d := 'N') (by decide),
      hne (d := '~') (by decide)]
  have hbool : boolValue? (c :: rest) = none := by
    simp [boolValue?, hne (d := 't') (by decide), hne (d := 'T') (by decide),
      hne (d := 'f') (by decide), hne (d := 'F') (by decide)]
  simp [plainValue?, hnull, hbool]

/-- A numeral that fits into a word is typed as the number it writes. -/
theorem plainValue?_numeral {ds : List Char} (hdigits : ∀ d ∈ ds, d.isDigit = true)
    (hwhole : Json.isWhole ds = true) (hfits : digitsValue ds < wordBound) :
    plainValue? ds = some (.int (digitsValue ds)) := by
  cases ds with
  | nil => cases hwhole
  | cons c cs =>
    have hc : c.isDigit = true := hdigits c List.mem_cons_self
    have hminus : c ≠ '-' := ne_of_class hc (by decide)
    have hplus : c ≠ '+' := ne_of_class hc (by decide)
    -- A zero in front would mark another base or pad the number.
    have hbased : readBased? (c :: cs) = none ∧ isZeroPadded (c :: cs) = false := by
      by_cases hzero : c = '0'
      · subst hzero
        obtain rfl : cs = [] := by simpa [Json.isWhole] using hwhole
        decide
      · exact ⟨readBased?_of_ne hzero, isZeroPadded_of_ne hminus hplus hzero⟩
    have hinteger : integer? (c :: cs) = some (digitsValue (c :: cs) : Int) := by
      rw [integer?_of_plain hminus hplus hbased.1 hbased.2,
        readNat?_digits (List.cons_ne_nil _ _) hdigits]
      rfl
    rw [plainValue?_of_digit hc]
    exact numberOrString?_of_fits hinteger (integerFit_of_lt_wordBound hfits)

/-- A lowercase letter is no digit. -/
theorem isDigit_of_isLower {c : Char} (h : c.isLower = true) : c.isDigit = false := by
  rw [Bool.eq_false_iff]
  intro hdigit
  have hrange : 48 ≤ c.toNat ∧ c.toNat ≤ 57 := Char.isDigit_iff_toNat.1 hdigit
  rw [isLower_iff] at h
  omega

/-- A word that begins with a lowercase letter is typed as a string, unless it spells a value. -/
theorem plainValue?_lower {c : Char} {cs : List Char} (hc : c.isLower = true)
    (hnull : c :: cs ≠ "null".toList) (htrue : c :: cs ≠ "true".toList)
    (hfalse : c :: cs ≠ "false".toList) : plainValue? (c :: cs) = some (.string (String.ofList (c :: cs))) := by
  have hne : ∀ {d : Char}, d.isLower = false → c ≠ d := ne_of_class hc
  have hnullText : isNullText (c :: cs) = false := by
    simp [isNullText, hne (d := 'N') (by decide), hne (d := '~') (by decide)] at hnull ⊢
    exact hnull
  have hbool : boolValue? (c :: cs) = none := by
    have htrue' : (c :: cs == "true".toList) = false := beq_eq_false_iff_ne.2 htrue
    have hfalse' : (c :: cs == "false".toList) = false := beq_eq_false_iff_ne.2 hfalse
    rw [boolValue?, htrue', hfalse']
    simp [hne (d := 'T') (by decide), hne (d := 'F') (by decide)]
  have hdigit : c.isDigit = false := isDigit_of_isLower hc
  have hnat : readNat? 10 (c :: cs) = none := by
    simp [readNat?, List.foldlM_cons, digitValue?_of_not_digit hdigit]
  -- A number begins with a digit, a sign or a point.
  have hinteger : integer? (c :: cs) = none := by
    rw [integer?_of_plain (hne (by decide)) (hne (by decide)) (readBased?_of_ne (hne (by decide)))
      (isZeroPadded_of_ne (hne (by decide)) (hne (by decide)) (hne (by decide))), hnat]
    rfl
  have hfloat : floatValue? (c :: cs) = none :=
    floatValue?_of_letter (hne (by decide)) (hne (by decide)) (hne (by decide)) hdigit
  simp [plainValue?, hnullText, hbool, numberOrString?, hinteger, hfloat]

end Yaml

end SecretFill
