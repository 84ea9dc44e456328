import SecretFill.Proofs.Decoding

namespace SecretFill.Json

/-!
# The grammar of JSON

The texts of JSON are described by their grammar alone, with white space and escapes of all kinds.
What is written of a document without holes belongs to it.

* `IsChars`, `IsNumeral` — the insides of strings, and the numerals.
* `IsValue`, `IsElement` — values, without and with white space around them.
* `IsJson` — a text is an element.
* `Datum.isJson` — so is the text of every document.
-/

/-! ### Strings and numerals -/

/-- What stands between the quotes of a string: characters that need no escape, short escapes, and
    escapes by four hexadecimal digits. -/
inductive IsChars : List Char → Prop where
  /-- Nothing. -/
  | nil : IsChars []
  /-- A character that stands for itself. -/
  | plain {c : Char} {cs : List Char} (hquote : c ≠ '"') (hback : c ≠ '\\') (hc : 0x20 ≤ c.toNat)
    (h : IsChars cs) : IsChars (c :: cs)
  /-- An escape of two characters. -/
  | short {c : Char} {cs : List Char} (hc : c ∈ ['"', '\\', '/', 'b', 'f', 'n', 'r', 't'])
    (h : IsChars cs) : IsChars ('\\' :: c :: cs)
  /-- An escape with a number. -/
  | number {ds cs : List Char} (hlength : ds.length = 4)
    (hds : ∀ d ∈ ds, (digitValue? 16 d).isSome = true) (h : IsChars cs) :
    IsChars ('\\' :: 'u' :: (ds ++ cs))

/-- A string with its quotes. -/
def IsString (cs : List Char) : Prop := ∃ inside, cs = '"' :: (inside ++ ['"']) ∧ IsChars inside

/-- A row of at least one digit. -/
def IsDigits (cs : List Char) : Prop := cs ≠ [] ∧ ∀ c ∈ cs, c.isDigit = true

/-- The sign of a numeral. -/
def IsSign (cs : List Char) : Prop := cs = [] ∨ cs = ['-']

/-- The digits before the point: a zero stands there alone or not first. -/
def IsInteger (cs : List Char) : Prop := IsDigits cs ∧ (cs.head? = some '0' → cs = ['0'])

/-- A point with digits behind it, or nothing. -/
def IsFraction (cs : List Char) : Prop := cs = [] ∨ ∃ ds, cs = '.' :: ds ∧ IsDigits ds

/-- A power of ten, or nothing. -/
def IsPower (cs : List Char) : Prop :=
  cs = [] ∨ ∃ e sign ds, cs = e :: (sign ++ ds) ∧ e ∈ ['e', 'E'] ∧ sign ∈ [[], ['+'], ['-']] ∧
    IsDigits ds

/-- A numeral. -/
def IsNumeral (cs : List Char) : Prop :=
  ∃ sign whole fraction power, cs = sign ++ (whole ++ (fraction ++ power)) ∧
    IsSign sign ∧ IsInteger whole ∧ IsFraction fraction ∧ IsPower power

/-- What stands for a character may stand in a string. -/
theorem IsChars.escape (c : Char) {cs : List Char} (h : IsChars cs) :
    IsChars (escape c ++ cs) := by
  -- A short escape, an escape with a number, or none at all.
  by_cases hshort : c ∈ shortlyEscaped
  · simp only [shortlyEscaped, List.mem_cons, List.not_mem_nil, or_false] at hshort
    rcases hshort with rfl | rfl | rfl | rfl | rfl | rfl | rfl <;> exact .short (by decide) h
  · by_cases hcontrol : c.toNat < 0x20
    · have hdigit : ∀ n, (digitValue? 16 (hexDigit n)).isSome = true := by
        have hall : ∀ n < 16, (digitValue? 16 (Nat.digitChar n)).isSome = true := by decide
        exact fun n => hall (n % 16) (Nat.mod_lt n (by decide))
      have hzero : (digitValue? 16 '0').isSome = true := by decide
      rw [escape_control hshort hcontrol]
      have hdigits : ∀ d ∈ ['0', '0', hexDigit (c.toNat / 16), hexDigit c.toNat],
          (digitValue? 16 d).isSome = true := by
        simp [hdigit, hzero]
      exact .number rfl hdigits h
    · have hquote : c ≠ '"' := fun hc => hshort (hc ▸ by decide)
      have hback : c ≠ '\\' := fun hc => hshort (hc ▸ by decide)
      rw [escape_plain hshort (Nat.not_lt.1 hcontrol)]
      exact .plain hquote hback (Nat.not_lt.1 hcontrol) h

/-- **A quoted text is a string**, whatever its characters are. -/
theorem isString_quoteChars (cs : List Char) : IsString (quoteChars cs) := by
  refine ⟨cs.flatMap escape, rfl, ?_⟩
  induction cs with
  | nil => exact .nil
  | cons c cs ih => exact ih.escape c

theorem isDigits_decimalDigits (n : Nat) : IsDigits (decimalDigits n) :=
  ⟨decimalDigits_ne_nil, fun _ => isDigit_of_mem_decimalDigits⟩

theorem isSign_signChars (negative : Bool) : IsSign (signChars negative) := by
  cases negative
  · exact .inl rfl
  · exact .inr rfl

theorem isFraction_fractionChars {ds : List Char} (h : ∀ c ∈ ds, c.isDigit = true) :
    IsFraction (fractionChars ds) := by
  cases ds with
  | nil => exact .inl rfl
  | cons d ds => exact .inr ⟨d :: ds, rfl, by simp, h⟩

theorem isPower_powerChars (power : Option Int) : IsPower (powerChars power) := by
  cases power with
  | none => exact .inl rfl
  | some n =>
    refine .inr ⟨'e', [if 0 ≤ n then '+' else '-'], _, rfl, by simp, ?_, isDigits_decimalDigits _⟩
    split <;> simp

/-- The digits before the point of a numeral are an integer. -/
theorem Numeral.isInteger (n : Numeral) : IsInteger n.whole := by
  obtain ⟨d, ds, hwhole, -⟩ := n.exists_whole
  refine ⟨⟨by simp [hwhole], n.wholeDigits⟩, fun hhead => ?_⟩
  have hzero := n.isWhole
  rw [hwhole] at hhead hzero ⊢
  obtain rfl : d = '0' := Option.some.inj hhead
  rw [List.isEmpty_iff.1 hzero]

/-- **The text of a number is a numeral.** -/
theorem Number.isNumeral (x : Number) : IsNumeral x.chars := by
  obtain ⟨n, hchars, -⟩ := x.exists_numeral
  exact ⟨_, _, _, _, hchars.symm, isSign_signChars _, n.isInteger,
    isFraction_fractionChars n.fractionDigits, isPower_powerChars _⟩

/-! ### Values -/

/-- White space. -/
def IsBlank (cs : List Char) : Prop := ∀ c ∈ cs, isSpace c = true

mutual

/-- A value. -/
inductive IsValue : List Char → Prop where
  /-- Nothing. -/
  | null : IsValue "null".toList
  /-- A truth value. -/
  | bool (b : Bool) : IsValue (Yaml.Value.boolText b).toList
  /-- A number. -/
  | number {cs : List Char} (h : IsNumeral cs) : IsValue cs
  /-- A string. -/
  | string {cs : List Char} (h : IsString cs) : IsValue cs
  /-- An array without items. -/
  | emptyArray {space : List Char} (h : IsBlank space) : IsValue ('[' :: (space ++ [']']))
  /-- An array. -/
  | array {cs : List Char} (h : IsElements cs) : IsValue ('[' :: (cs ++ [']']))
  /-- An object without members. -/
  | emptyObject {space : List Char} (h : IsBlank space) : IsValue ('{' :: (space ++ ['}']))
  /-- An object. -/
  | object {cs : List Char} (h : IsMembers cs) : IsValue ('{' :: (cs ++ ['}']))

/-- A value with white space around it. -/
inductive IsElement : List Char → Prop where
  /-- The value stands between. -/
  | around {before cs after : List Char} (hbefore : IsBlank before) (h : IsValue cs)
    (hafter : IsBlank after) : IsElement (before ++ (cs ++ after))

/-- At least one item, with commas between them. -/
inductive IsElements : List Char → Prop where
  /-- The last item. -/
  | last {cs : List Char} (h : IsElement cs) : IsElements cs
  /-- An item before others. -/
  | next {cs ds : List Char} (h : IsElement cs) (hs : IsElements ds) : IsElements (cs ++ ',' :: ds)

/-- A name and a value with a colon between them. -/
inductive IsMember : List Char → Prop where
  /-- There may be white space around the name. -/
  | named {before name after cs : List Char} (hbefore : IsBlank before) (hname : IsString name)
    (hafter : IsBlank after) (h : IsElement cs) :
    IsMember (before ++ (name ++ (after ++ ':' :: cs)))

/-- At least one member, with commas between them. -/
inductive IsMembers : List Char → Prop where
  /-- The last member. -/
  | last {cs : List Char} (h : IsMember cs) : IsMembers cs
  /-- A member before others. -/
  | next {cs ds : List Char} (h : IsMember cs) (hs : IsMembers ds) : IsMembers (cs ++ ',' :: ds)

end

/-- A text is JSON: a value with white space around it. -/
def IsJson (text : String) : Prop := IsElement text.toList

theorem IsBlank.nil : IsBlank [] := fun _ hc => absurd hc List.not_mem_nil

/-- There need be no white space around a value, -/
theorem IsValue.element {cs : List Char} (h : IsValue cs) : IsElement cs := by
  simpa using IsElement.around .nil h .nil

/-- nor around a name. -/
theorem IsElement.named {name cs : List Char} (h : IsElement cs) (hname : IsString name) :
    IsMember (name ++ ':' :: cs) := by
  simpa using IsMember.named .nil hname .nil h

/-! ### Documents -/

mutual

/-- A document without holes is written as a value, -/
theorem Datum.isValue : (d : Datum) → IsValue d.chars
  | .null => .null
  | .bool b => .bool b
  | .number x => .number x.isNumeral
  | .string s => .string (isString_quoteChars s.toList)
  | .array [] => .emptyArray .nil
  | .array (item :: items) => .array (isElements_chars (item :: items) (by simp))
  | .object [] => .emptyObject .nil
  | .object (member :: members) => .object (isMembers_chars (member :: members) (by simp))

/-- its items as items, -/
theorem isElements_chars : (items : List Datum) → items ≠ [] →
    IsElements (commaSeparated (Tree.itemChars Empty.elim items))
  | [item], _ => .last (Datum.isValue item).element
  | item :: next :: items, _ =>
    .next (Datum.isValue item).element (isElements_chars (next :: items) (by simp))

/-- and its members as members. -/
theorem isMembers_chars : (members : List (String × Datum)) → members ≠ [] →
    IsMembers (commaSeparated (Tree.memberChars Empty.elim members))
  | [(name, value)], _ =>
    .last ((Datum.isValue value).element.named (isString_quoteChars name.toList))
  | (name, value) :: next :: members, _ =>
    .next ((Datum.isValue value).element.named (isString_quoteChars name.toList))
      (isMembers_chars (next :: members) (by simp))

end

/-- **Every document is written as JSON.** -/
theorem Datum.isJson (d : Datum) : IsJson d.text := by
  rw [IsJson, text, String.toList_ofList]
  exact d.isValue.element

end SecretFill.Json
