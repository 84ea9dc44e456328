import Mathlib.Data.List.Induction
import Mathlib.Data.List.TakeWhile
import SecretFill.Proofs.Scalars
import SecretFill.Proofs.Words

namespace SecretFill

/-!
# What a word spells

A word without quotes may spell nothing, a truth value or a number.  An integer is a row of digits, in
base ten without zeros that are not needed, in another base behind its mark; a decimal numeral has a
point or a power of ten.  An integer that needs more than 64 bits and no more than 128 is refused, and
every other word is a string.

* `WritesIn` — a row of digits writes a number in a base.
* `Yaml.WritesInteger`, `Yaml.WritesNumeral` — the spellings of integers and of decimal numerals.
* `Yaml.Spells` — what a word spells, if not itself.
* `Yaml.IsRefused` — a word spells an integer that is refused.
* `Yaml.plainValue?_word` — the type of a word.
-/

/-! ### Rows of digits -/

/-- A row of digits writes a number in a base, the last digit counting its own value. -/
inductive WritesIn (base : Nat) : List Char → Nat → Prop where
  /-- One digit. -/
  | digit {c : Char} {d : Nat} (h : digitValue? base c = some d) : WritesIn base [c] d
  /-- One more digit. -/
  | snoc {ds : List Char} {n : Nat} {c : Char} {d : Nat} (row : WritesIn base ds n)
    (h : digitValue? base c = some d) : WritesIn base (ds ++ [c]) (n * base + d)

section Rows

variable {base n : Nat} {ds : List Char} {c : Char}

theorem WritesIn.ne_nil (h : WritesIn base ds n) : ds ≠ [] := by
  cases h <;> simp

theorem WritesIn.digitValue? (h : WritesIn base ds n) (hc : c ∈ ds) :
    ∃ d, digitValue? base c = some d := by
  induction h with
  | digit h =>
    obtain rfl := List.mem_singleton.1 hc
    exact ⟨_, h⟩
  | snoc row h ih =>
    rcases List.mem_append.1 hc with hc | hc
    · exact ih hc
    · obtain rfl := List.mem_singleton.1 hc
      exact ⟨_, h⟩

theorem readNat?_singleton : readNat? base [c] = digitValue? base c := by
  cases h : SecretFill.digitValue? base c <;> simp [readNat?, h]

theorem readNat?_append (hne : ds ≠ []) : readNat? base (ds ++ [c])
    = (readNat? base ds).bind fun n => (digitValue? base c).map (n * base + ·) := by
  obtain ⟨first, rest, rfl⟩ := List.exists_cons_of_ne_nil hne
  have hfold : ∀ cs, readNat? base (first :: cs)
      = (first :: cs).foldlM (fun n c => (digitValue? base c).map (n * base + ·)) 0 := fun _ => rfl
  rw [List.cons_append, hfold, hfold, ← List.cons_append, List.foldlM_append]
  simp [bind]

/-- A row of digits is read as the number that it writes. -/
theorem readNat?_eq_some_iff : readNat? base ds = some n ↔ WritesIn base ds n := by
  constructor
  · -- A number grows by its last digit, so the row is taken apart from behind.
    intro h
    induction ds using List.reverseRecOn generalizing n with
    | nil => cases h
    | append_singleton ds c ih =>
      by_cases hne : ds = []
      · subst hne
        rw [List.nil_append, readNat?_singleton] at h
        exact .digit h
      · rw [readNat?_append hne] at h
        obtain ⟨m, hm, h⟩ := Option.bind_eq_some_iff.1 h
        obtain ⟨d, hd, rfl⟩ := Option.map_eq_some_iff.1 h
        exact .snoc (ih hm) hd
  · intro h
    induction h with
    | digit h => rw [readNat?_singleton, h]
    | snoc row h ih =>
      rw [readNat?_append row.ne_nil, ih, h]
      rfl

/-- A row of decimal digits writes its value. -/
theorem writesIn_ten_iff :
    WritesIn 10 ds n ↔ ds ≠ [] ∧ (∀ d ∈ ds, d.isDigit = true) ∧ n = digitsValue ds := by
  constructor
  · intro h
    have hdigits : ∀ d ∈ ds, d.isDigit = true := by
      intro c hc
      obtain ⟨d, hd⟩ := h.digitValue? hc
      by_contra hnot
      rw [digitValue?_of_not_digit (Bool.eq_false_iff.2 hnot)] at hd
      cases hd
    have hread := readNat?_eq_some_iff.2 h
    rw [readNat?_digits h.ne_nil hdigits] at hread
    exact ⟨h.ne_nil, hdigits, (Option.some.inj hread).symm⟩
  · rintro ⟨hne, hdigits, rfl⟩
    exact readNat?_eq_some_iff.1 (readNat?_digits hne hdigits)

/-- A whole number that is not zero does not begin with one. -/
theorem WritesIn.head?_ne_zero (h : WritesIn 10 ds n) (hwhole : Json.isWhole ds = true) (hpos : 0 < n) :
    ds.head? ≠ some '0' := by
  obtain ⟨-, -, rfl⟩ := writesIn_ten_iff.1 h
  intro hzero
  cases ds with
  | nil => cases hzero
  | cons d ds =>
    obtain rfl := Option.some.inj hzero
    obtain rfl : ds = [] := by simpa [Json.isWhole] using hwhole
    exact absurd hpos (by decide)

end Rows

namespace Yaml

/-! ### Spellings -/

/-- The mark of a base. -/
inductive BaseMark : Char → Nat → Prop where
  /-- Base sixteen. -/
  | hexadecimal : BaseMark 'x' 16
  /-- Base eight. -/
  | octal : BaseMark 'o' 8
  /-- Base two. -/
  | binary : BaseMark 'b' 2

/-- The spellings of a natural number. -/
inductive WritesInteger : List Char → Nat → Prop where
  /-- Decimal digits; the first is a zero only where it is the only one. -/
  | decimal {ds : List Char} {n : Nat} (row : WritesIn 10 ds n) (whole : Json.isWhole ds = true) :
    WritesInteger ds n
  /-- A zero, the mark of a base and digits of the base. -/
  | based {mark : Char} {base : Nat} {ds : List Char} {n : Nat} (hmark : BaseMark mark base)
    (row : WritesIn base ds n) : WritesInteger ('0' :: mark :: ds) n

/-- A point with digits behind it, or nothing. -/
inductive WritesFraction : List Char → List Char → Prop where
  /-- Nothing. -/
  | absent : WritesFraction [] []
  /-- A point with digits, maybe none. -/
  | point {ds : List Char} (digits : ∀ d ∈ ds, d.isDigit = true) : WritesFraction ('.' :: ds) ds

/-- A power of ten without a sign, or nothing. -/
inductive WritesPower : List Char → Nat → Prop where
  /-- Nothing. -/
  | absent : WritesPower [] 0
  /-- A letter and digits. -/
  | power {e : Char} {ds : List Char} (letter : e = 'e' ∨ e = 'E') (ne : ds ≠ [])
    (digits : ∀ d ∈ ds, d.isDigit = true) : WritesPower (e :: ds) (digitsValue ds)

/-- The decimal numerals without a sign, and the number that is nearest to what they say. -/
inductive WritesNumeral : List Char → Binary64 → Prop where
  /-- Digits, then maybe a point and digits, then maybe a power of ten. -/
  | numeral {whole point fraction tail : List Char} {power : Nat} (ne : whole ≠ [])
    (digits : ∀ d ∈ whole, d.isDigit = true) (hpoint : WritesFraction point fraction)
    (htail : WritesPower tail power) :
    WritesNumeral (whole ++ (point ++ tail))
      (.ofDecimal false (digitsValue (whole ++ fraction)) (power - fraction.length))

/-- What a word spells, if not itself. -/
inductive Spells : List Char → Value → Prop where
  /-- Nothing. -/
  | null {cs : List Char} (h : cs ∈ ["null".toList, "Null".toList, "NULL".toList]) :
    Spells cs .null
  /-- A truth value. -/
  | isTrue {cs : List Char} (h : cs ∈ ["true".toList, "True".toList, "TRUE".toList]) :
    Spells cs (.bool true)
  /-- The other one. -/
  | isFalse {cs : List Char} (h : cs ∈ ["false".toList, "False".toList, "FALSE".toList]) :
    Spells cs (.bool false)
  /-- An integer of at most 64 bits. -/
  | integer {cs : List Char} {n : Nat} (h : WritesInteger cs n) (hlt : n < wordBound) :
    Spells cs (.int n)
  /-- A decimal numeral.  Digits alone make one only where no integer has room for them, and only
      without a zero in front. -/
  | numeral {cs : List Char} {x : Binary64} (h : WritesNumeral cs x) (finite : x.isFinite = true)
    (row : ∀ n, WritesIn 10 cs n → wideBound ≤ n ∧ cs.head? ≠ some '0') : Spells cs (.float x)

/-- A word spells an integer that needs more than 64 bits and has room in 128. -/
def IsRefused (cs : List Char) : Prop := ∃ n, WritesInteger cs n ∧ wordBound ≤ n ∧ n < wideBound

/-! ### Integers -/

section Integers

variable {cs : List Char} {n : Nat}

/-- What stands behind the mark of a base is read in the base. -/
theorem readBased?_eq_some_iff : readBased? cs = some n ↔
    ∃ mark base ds, cs = '0' :: mark :: ds ∧ BaseMark mark base ∧ WritesIn base ds n := by
  constructor
  · intro h
    rw [readBased?.eq_def] at h
    split at h
    · exact ⟨_, _, _, rfl, .hexadecimal, readNat?_eq_some_iff.1 h⟩
    · exact ⟨_, _, _, rfl, .octal, readNat?_eq_some_iff.1 h⟩
    · exact ⟨_, _, _, rfl, .binary, readNat?_eq_some_iff.1 h⟩
    · cases h
  · rintro ⟨mark, base, ds, rfl, hmark, row⟩
    cases hmark <;> exact readNat?_eq_some_iff.2 row

/-- The mark of a base is no digit. -/
theorem not_digits_of_readBased? (h : readBased? cs = some n) : ¬ ∀ d ∈ cs, d.isDigit = true := by
  intro hdigits
  obtain ⟨mark, base, ds, rfl, hmark, -⟩ := readBased?_eq_some_iff.1 h
  have hdigit := hdigits mark (by simp)
  cases hmark <;> exact absurd hdigit (by decide)

/-- A word has no sign. -/
theorem IsWord.not_sign (hword : IsWord cs) :
    ∃ c rest, cs = c :: rest ∧ c ≠ '-' ∧ c ≠ '+' ∧ c ≠ '.' := by
  obtain ⟨c, rest, hcons, hc⟩ := hword.head
  exact ⟨c, rest, hcons, ne_of_class hc (by decide), ne_of_class hc (by decide),
    ne_of_class hc (by decide)⟩

/-- Digits with a zero too many are no number. -/
theorem isZeroPadded_iff (hword : IsWord cs) :
    isZeroPadded cs = true ↔ (∀ d ∈ cs, d.isDigit = true) ∧ Json.isWhole cs = false := by
  obtain ⟨c, rest, rfl, hminus, hplus, -⟩ := hword.not_sign
  by_cases hzero : c = '0'
  · subst hzero
    cases rest with
    | nil => simp [isZeroPadded, Json.isWhole]
    | cons d ds => simp [isZeroPadded, Json.isWhole, Char.isDigit]
  · simp [isZeroPadded, Json.isWhole, hminus, hplus, hzero]

theorem integer?_word (hword : IsWord cs) : integer? cs
    = ((readBased? cs).or (if isZeroPadded cs then none else readNat? 10 cs)).map Int.ofNat := by
  obtain ⟨c, rest, rfl, hminus, hplus, -⟩ := hword.not_sign
  simp [integer?, hminus, hplus]

/-- A word is read as an integer iff it spells one. -/
theorem integer?_eq_some_iff (hword : IsWord cs) {m : Int} :
    integer? cs = some m ↔ ∃ n : Nat, WritesInteger cs n ∧ m = n := by
  rw [integer?_word hword]
  constructor
  · intro h
    obtain ⟨n, hn, rfl⟩ := Option.map_eq_some_iff.1 h
    refine ⟨n, ?_, rfl⟩
    -- A mark for a base comes first; digits alone are decimal, unless a zero pads them.
    rcases Option.or_eq_some_iff.1 hn with hbased | ⟨-, hdecimal⟩
    · obtain ⟨mark, base, ds, rfl, hmark, row⟩ := readBased?_eq_some_iff.1 hbased
      exact .based hmark row
    · split at hdecimal
      · cases hdecimal
      · rename_i hpadded
        have row := readNat?_eq_some_iff.1 hdecimal
        refine .decimal row (Bool.not_eq_false _ ▸ fun hwhole => hpadded ?_)
        exact (isZeroPadded_iff hword).2 ⟨(writesIn_ten_iff.1 row).2.1, hwhole⟩
  · rintro ⟨n, hwrites, rfl⟩
    cases hwrites with
    | decimal row whole =>
      have hdigits := (writesIn_ten_iff.1 row).2.1
      have hpadded : isZeroPadded cs = false := by
        rw [Bool.eq_false_iff, Ne, isZeroPadded_iff hword, whole]
        simp
      have hbased : readBased? cs = none := by
        rw [Option.eq_none_iff_forall_ne_some]
        exact fun m hm => not_digits_of_readBased? hm hdigits
      simp [hbased, hpadded, readNat?_eq_some_iff.2 row]
    | based hmark row =>
      have hbased := readBased?_eq_some_iff.2 ⟨_, _, _, rfl, hmark, row⟩
      simp [hbased]

end Integers

/-! ### Decimal numerals -/

section Numerals

variable {cs rest point fraction tail : List Char} {x : Binary64} {power : Nat}

/-- Splits off a point and the digits behind it. -/
def splitFraction : List Char → List Char × List Char
  | '.' :: rest => (rest.takeWhile Char.isDigit, rest.dropWhile Char.isDigit)
  | rest => ([], rest)

theorem readUnsigned?_eq (negative : Bool) (cs : List Char) : readUnsigned? negative cs =
    if (cs.takeWhile Char.isDigit).isEmpty
        && (splitFraction (cs.dropWhile Char.isDigit)).1.isEmpty then none
    else
      (readExponent? (splitFraction (cs.dropWhile Char.isDigit)).2).map fun power =>
        Binary64.ofDecimal negative
          (digitsValue (cs.takeWhile Char.isDigit ++ (splitFraction (cs.dropWhile Char.isDigit)).1))
          (power - (splitFraction (cs.dropWhile Char.isDigit)).1.length) := by
  rfl

/-- A power of ten is neither a digit nor a point. -/
theorem WritesPower.head? (h : WritesPower tail power) :
    ∀ c ∈ tail.head?, c.isDigit = false ∧ c ≠ '.' := by
  intro c hc
  cases h with
  | absent => cases hc
  | power letter =>
    obtain rfl := Option.some.inj hc
    rcases letter with rfl | rfl <;> decide

/-- What is split off is a fraction, -/
theorem splitFraction_spec (rest : List Char) : ∃ point,
    rest = point ++ (splitFraction rest).2 ∧ WritesFraction point (splitFraction rest).1 := by
  rw [splitFraction.eq_def]
  split
  · rename_i rest
    refine ⟨'.' :: rest.takeWhile Char.isDigit, ?_, .point fun d hd => List.mem_takeWhile_imp hd⟩
    simp [List.takeWhile_append_dropWhile]
  · exact ⟨[], rfl, .absent⟩

/-- and a fraction is split off. -/
theorem splitFraction_append (hpoint : WritesFraction point fraction) (htail : WritesPower tail power) :
    splitFraction (point ++ tail) = (fraction, tail) := by
  cases hpoint with
  | absent =>
    rw [List.nil_append, splitFraction.eq_def]
    split
    · exact absurd rfl (htail.head? '.' rfl).2
    · rfl
  | point digits =>
    obtain ⟨htake, hdrop⟩ := Json.span_digits digits fun c hc => (htail.head? c hc).1
    rw [List.cons_append, splitFraction, htake, hdrop]

/-- Without signs the power of ten is read as it is written. -/
theorem readExponent?_eq_some_iff (hchars : ∀ c ∈ cs, isWordChar c = true) {p : Int} :
    readExponent? cs = some p ↔ ∃ n : Nat, WritesPower cs n ∧ p = n := by
  cases cs with
  | nil =>
    constructor
    · intro h
      exact ⟨0, .absent, (Option.some.inj h).symm⟩
    · rintro ⟨n, h, rfl⟩
      cases h
      rfl
  | cons e ds =>
    -- A word has no signs.
    have hminus : ∀ rest, ds ≠ '-' :: rest := by
      rintro rest rfl
      exact absurd (hchars '-' (by simp)) (by decide)
    have hplus : ∀ rest, ds ≠ '+' :: rest := by
      rintro rest rfl
      exact absurd (hchars '+' (by simp)) (by decide)
    have hread : readExponent? (e :: ds) = if e = 'e' ∨ e = 'E' then
        if ds.isEmpty || !ds.all Char.isDigit then none else some (digitsValue ds : Int) else none := by
      rw [readExponent?]
      · rfl
      · exact hminus
      · exact hplus
    rw [hread]
    constructor
    · intro h
      split_ifs at h with hletter hdigits
      simp only [Bool.or_eq_true, List.isEmpty_iff, Bool.not_eq_true', not_or,
        Bool.not_eq_false, List.all_eq_true] at hdigits
      exact ⟨_, .power hletter hdigits.1 hdigits.2, (Option.some.inj h).symm⟩
    · rintro ⟨n, h, rfl⟩
      cases h with
      | power letter ne digits =>
        have hall : ds.all Char.isDigit = true := List.all_eq_true.2 digits
        simp [letter, ne, hall]

/-- A word is read as a decimal numeral iff it is one. -/
theorem readUnsigned?_eq_some_iff (hword : IsWord cs) :
    readUnsigned? false cs = some x ↔ WritesNumeral cs x := by
  rw [readUnsigned?_eq]
  constructor
  · intro h
    split_ifs at h with hempty
    obtain ⟨p, hp, rfl⟩ := Option.map_eq_some_iff.1 h
    obtain ⟨point, hcut, hpoint⟩ := splitFraction_spec (cs.dropWhile Char.isDigit)
    have htext : cs = cs.takeWhile Char.isDigit ++ (point
        ++ (splitFraction (cs.dropWhile Char.isDigit)).2) := by
      rw [← hcut, List.takeWhile_append_dropWhile]
    have hchars : ∀ c ∈ (splitFraction (cs.dropWhile Char.isDigit)).2, isWordChar c = true := by
      intro c hc
      refine hword.chars c ?_
      rw [htext]
      simp [hc]
    obtain ⟨power, htail, rfl⟩ := (readExponent?_eq_some_iff hchars).1 hp
    have hne : cs.takeWhile Char.isDigit ≠ [] := by
      -- A word does not begin with a point, so the digits are in front of it.
      intro hnil
      have hdrop : cs.dropWhile Char.isDigit = cs := by
        simpa [hnil] using List.takeWhile_append_dropWhile (p := Char.isDigit) (l := cs)
      obtain ⟨c, rest, rfl, -, -, hdot⟩ := hword.not_sign
      refine hempty ?_
      rw [hnil, hdrop]
      simp [splitFraction, hdot]
    have hnumeral := WritesNumeral.numeral hne (fun d hd => List.mem_takeWhile_imp hd) hpoint htail
    rwa [← htext] at hnumeral
  · rintro ⟨ne, digits, hpoint, htail⟩
    rename_i whole point fraction tail power
    have hhead : ∀ c ∈ (point ++ tail).head?, c.isDigit = false := by
      cases hpoint with
      | absent => exact fun c hc => (htail.head? c hc).1
      | point => exact fun c hc => Option.some.inj hc ▸ rfl
    obtain ⟨htake, hdrop⟩ := Json.span_digits digits hhead
    have hpower : readExponent? tail = some (power : Int) :=
      (readExponent?_eq_some_iff fun c hc => hword.chars c (by simp [hc])).2 ⟨power, htail, rfl⟩
    rw [htake, hdrop, splitFraction_append hpoint htail, hpower]
    simp [ne]

/-- A word is read as a floating point number iff it is a numeral of a finite one. -/
theorem floatValue?_eq_some_iff (hword : IsWord cs) :
    floatValue? cs = some x ↔ WritesNumeral cs x ∧ x.isFinite = true := by
  obtain ⟨c, rest, rfl, hminus, hplus, hdot⟩ := hword.not_sign
  have hfloat : floatValue? (c :: rest)
      = (readUnsigned? false (c :: rest)).filter Binary64.isFinite := by
    simp [floatValue?, hminus, hplus, hdot, readDecimal?]
  rw [hfloat, Option.filter_eq_some_iff, readUnsigned?_eq_some_iff hword]

end Numerals

/-! ### The types of words -/

section Typing

variable {cs : List Char} {v : Value} {n : Nat} {x : Binary64}

theorem WritesInteger.head (h : WritesInteger cs n) : ∃ c rest, cs = c :: rest ∧ c.isDigit = true := by
  cases h with
  | decimal row whole =>
    obtain ⟨hne, hdigits, -⟩ := writesIn_ten_iff.1 row
    obtain ⟨c, rest, rfl⟩ := List.exists_cons_of_ne_nil hne
    exact ⟨c, rest, rfl, hdigits c List.mem_cons_self⟩
  | based => exact ⟨'0', _, rfl, rfl⟩

theorem WritesNumeral.head (h : WritesNumeral cs x) : ∃ c rest, cs = c :: rest ∧ c.isDigit = true := by
  obtain ⟨ne, digits, -, -⟩ := h
  obtain ⟨c, rest, rfl⟩ := List.exists_cons_of_ne_nil ne
  exact ⟨c, _, rfl, digits c List.mem_cons_self⟩

/-- An integer of digits only is a decimal one. -/
theorem WritesInteger.decimal_of_digits (h : WritesInteger cs n)
    (hdigits : ∀ d ∈ cs, d.isDigit = true) : WritesIn 10 cs n ∧ Json.isWhole cs = true := by
  cases h with
  | decimal row whole => exact ⟨row, whole⟩
  | based hmark row =>
    rename_i mark base ds
    have hdigit := hdigits mark (by simp)
    cases hmark <;> exact absurd hdigit (by decide)

/-- Behind its first digit a decimal numeral has another one, a point or a power of ten. -/
theorem WritesNumeral.second (h : WritesNumeral cs x) :
    ∀ d ∈ cs.tail.head?, d.isDigit = true ∨ d = '.' ∨ d = 'e' ∨ d = 'E' := by
  obtain ⟨ne, digits, hpoint, htail⟩ := h
  rename_i whole point fraction tail power
  obtain ⟨c, rest, rfl⟩ := List.exists_cons_of_ne_nil ne
  rw [List.cons_append, List.tail_cons]
  -- With one digit in front, the point or the power of ten comes next.
  cases rest with
  | cons second rest =>
    rintro d hd
    obtain rfl := Option.some.inj hd
    exact .inl (digits second (by simp))
  | nil =>
    cases hpoint with
    | point =>
      rintro d ⟨⟩
      exact .inr (.inl rfl)
    | absent =>
      cases htail with
      | absent => exact fun d hd => by cases hd
      | power letter =>
        rintro d ⟨⟩
        exact .inr (.inr letter)

/-- So it has no mark of a base, and an integer that it writes is a row of digits. -/
theorem WritesNumeral.writesIn (h : WritesNumeral cs x) (hinteger : WritesInteger cs n) :
    WritesIn 10 cs n := by
  cases hinteger with
  | decimal row => exact row
  | based hmark row =>
    rename_i mark base ds
    have hsecond := h.second mark rfl
    cases hmark <;> exact absurd hsecond (by decide)

/-- A word that is typed as nothing spells it, -/
theorem spells_null_of_isNullText (hword : IsWord cs) (h : isNullText cs = true) :
    Spells cs .null := by
  simp only [isNullText, Bool.or_eq_true, beq_iff_eq] at h
  rcases h with ((h | h) | h) | rfl
  · exact .null (by simp [h])
  · exact .null (by simp [h])
  · exact .null (by simp [h])
  · obtain ⟨c, rest, hcons, hc⟩ := hword.head
    obtain rfl := (List.cons.inj hcons).1
    exact absurd hc (by decide)

/-- and so does one that is typed as a truth value. -/
theorem spells_of_boolValue? {b : Bool} (h : boolValue? cs = some b) : Spells cs (.bool b) := by
  rw [boolValue?] at h
  split_ifs at h with htrue hfalse
  · obtain rfl := Option.some.inj h
    simp only [Bool.or_eq_true, beq_iff_eq, or_assoc] at htrue
    exact .isTrue (by simpa using htrue)
  · obtain rfl := Option.some.inj h
    simp only [Bool.or_eq_true, beq_iff_eq, or_assoc] at hfalse
    exact .isFalse (by simpa using hfalse)

/-- A word is what it spells. -/
theorem plainValue?_of_spells (hword : IsWord cs) (h : Spells cs v) : plainValue? cs = some v := by
  cases h with
  | null h =>
    simp only [List.mem_cons, List.not_mem_nil, or_false] at h
    rcases h with rfl | rfl | rfl <;> rfl
  | isTrue h =>
    simp only [List.mem_cons, List.not_mem_nil, or_false] at h
    rcases h with rfl | rfl | rfl <;> rfl
  | isFalse h =>
    simp only [List.mem_cons, List.not_mem_nil, or_false] at h
    rcases h with rfl | rfl | rfl <;> rfl
  | integer h hlt =>
    obtain ⟨c, rest, rfl, hc⟩ := h.head
    rw [plainValue?_of_digit hc]
    exact numberOrString?_of_fits ((integer?_eq_some_iff hword).2 ⟨_, h, rfl⟩)
      (integerFit_of_lt_wordBound hlt)
  | @numeral x h finite row =>
    -- The integer rules come first: they pass on rows of digits only if these are too long for them.
    obtain ⟨c, rest, rfl, hc⟩ := h.head
    have hhuge : ∀ m, integer? (c :: rest) = some m → integerFit m = .huge := by
      intro m hm
      obtain ⟨n, hwrites, rfl⟩ := (integer?_eq_some_iff hword).1 hm
      exact integerFit_of_le (row n (h.writesIn hwrites)).1
    have hpadded : isZeroPadded (c :: rest) = false := by
      rw [Bool.eq_false_iff, Ne, isZeroPadded_iff hword]
      rintro ⟨hdigits, hwhole⟩
      have hzero := (row _ (writesIn_ten_iff.2 ⟨List.cons_ne_nil _ _, hdigits, rfl⟩)).2
      rw [Json.isWhole_of_head? (List.cons_ne_nil _ _) hzero] at hwhole
      cases hwhole
    have hfloat := (floatValue?_eq_some_iff hword).2 ⟨h, finite⟩
    rw [plainValue?_of_digit hc, numberOrString?_of_huge hhuge, hpadded, hfloat]
    rfl

/-- A word that spells a refused integer is refused. -/
theorem plainValue?_of_isRefused (hword : IsWord cs) (h : IsRefused cs) : plainValue? cs = none := by
  obtain ⟨n, hwrites, hle, hlt⟩ := h
  obtain ⟨c, rest, rfl, hc⟩ := hwrites.head
  rw [plainValue?_of_digit hc]
  exact numberOrString?_of_wide ((integer?_eq_some_iff hword).2 ⟨n, hwrites, rfl⟩)
    (integerFit_of_lt_wideBound hle hlt)

/-- A word that spells nothing else is a string. -/
theorem plainValue?_of_not_spells (hword : IsWord cs) (hrefused : ¬ IsRefused cs)
    (h : ∀ w, ¬ Spells cs w) : plainValue? cs = some (.string (String.ofList cs)) := by
  have hempty : (cs.isEmpty || isNullText cs) = false := by
    obtain ⟨c, rest, rfl, -⟩ := hword.head
    rw [List.isEmpty_cons, Bool.false_or, Bool.eq_false_iff]
    exact fun hnull => h _ (spells_null_of_isNullText hword hnull)
  have hbool : boolValue? cs = none :=
    Option.eq_none_iff_forall_ne_some.2 fun b hb => h _ (spells_of_boolValue? hb)
  -- An integer that the word writes is neither spelled nor refused, so it is larger still.
  have hlarge : ∀ n, WritesInteger cs n → wideBound ≤ n := by
    intro n hwrites
    by_contra hlt
    by_cases hfits : n < wordBound
    · exact h _ (.integer hwrites hfits)
    · exact hrefused ⟨n, hwrites, Nat.not_lt.1 hfits, Nat.not_le.1 hlt⟩
  have hhuge : ∀ m, integer? cs = some m → integerFit m = .huge := by
    intro m hm
    obtain ⟨n, hwrites, rfl⟩ := (integer?_eq_some_iff hword).1 hm
    exact integerFit_of_le (hlarge n hwrites)
  have hfloat : (if isZeroPadded cs then none else floatValue? cs) = none := by
    split_ifs with hpadded
    · rfl
    · rw [Option.eq_none_iff_forall_ne_some]
      intro x hx
      obtain ⟨hnumeral, hfinite⟩ := (floatValue?_eq_some_iff hword).1 hx
      -- Digits alone are not padded here, so they write such an integer and begin with no zero.
      refine h _ (.numeral hnumeral hfinite fun n row => ?_)
      have hwhole : Json.isWhole cs = true := by
        rw [isZeroPadded_iff hword, not_and, Bool.not_eq_false] at hpadded
        exact hpadded (writesIn_ten_iff.1 row).2.1
      have hle : wideBound ≤ n := hlarge n (.decimal row hwhole)
      exact ⟨hle, row.head?_ne_zero hwhole (Nat.lt_of_lt_of_le (by decide) hle)⟩
  rw [plainValue?, hempty, hbool]
  simp only [numberOrString?_of_huge hhuge, hfloat, Option.elim_none, Bool.false_eq_true, if_false]

/-- **The type of a word**: it is what it spells, it is refused, or it is a string. -/
theorem plainValue?_word (hword : IsWord cs) :
    (plainValue? cs = none ↔ IsRefused cs) ∧
    (∀ w, Spells cs w → plainValue? cs = some w) ∧
    (¬ IsRefused cs → (∀ w, ¬ Spells cs w) → plainValue? cs = some (.string (String.ofList cs))) := by
  refine ⟨⟨fun hnone => ?_, plainValue?_of_isRefused hword⟩, fun w => plainValue?_of_spells hword,
    plainValue?_of_not_spells hword⟩
  by_contra hrefused
  by_cases hspells : ∃ w, Spells cs w
  · obtain ⟨w, hw⟩ := hspells
    rw [plainValue?_of_spells hword hw] at hnone
    cases hnone
  · rw [plainValue?_of_not_spells hword hrefused (not_exists.1 hspells)] at hnone
    cases hnone

end Typing

end Yaml

end SecretFill
