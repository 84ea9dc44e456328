import SecretFill.Proofs.Decoding
import SecretFill.Toml.Document

namespace SecretFill.Toml

/-!
# Plain values

Texts, integers and truth values are written as in JSON, or between single quotes.  What is written
so is read back, where something stands behind it that cannot belong to it.

* `Literal` — the values, with `Literal.chars`, how they are written.
* `EndsValue` — what may stand behind a value.
* `basicFrom_quoted`, `literal_exact` — texts in quotes are read back; `integer?_chars` — so are
  integers.
* `Literal.readValue_chars` — so a value is read back where it ends.
-/

/-! ### Values -/

/-- A value of a plain document. -/
inductive Literal where
  /-- A text in double quotes. -/
  | quoted (text : String) (writable : '\x7f' ∉ text.toList)
  /-- A text in single quotes. -/
  | exact (text : String) (writable : ∀ c ∈ text.toList, isText c = true ∧ c ≠ '\'')
  /-- An integer. -/
  | integer (n : Int)
  /-- A truth value. -/
  | boolean (b : Bool)

namespace Literal

/-- How a value is written: a text in double quotes as in JSON. -/
def chars : Literal → List Char
  | quoted text _ => Json.quoteChars text.toList
  | exact text _ => '\'' :: (text.toList ++ ['\''])
  | integer n => Json.signChars (decide (n < 0)) ++ decimalDigits n.natAbs
  | boolean true => "true".toList
  | boolean false => "false".toList

/-- The value at a place. -/
def value (span : Span) : Literal → Value
  | quoted text _ | exact text _ => .string span text
  | integer n => .integer span n
  | boolean b => .boolean span b

end Literal

/-- What stands here is not a part of the value before it. -/
structure EndsValue (rest : List Char) : Prop where
  /-- It goes on neither as a scalar nor with a quote. -/
  head : ∀ c, rest.head? = some c → isScalarCharacter c = false ∧ c ≠ '"' ∧ c ≠ '\''
  /-- It is no time behind a date. -/
  noTime : ∀ c rest', rest = ' ' :: c :: rest' → c.isDigit = false

/-- A character of a text in double quotes is read. -/
theorem basicFrom_escape {c : Char} (hc : c ≠ '\x7f') (fuel : Nat) (cs : List Char) :
    basicFrom (fuel + 1) (Json.escape c ++ cs) = (basicFrom fuel cs).map (andThen c) := by
  by_cases hshort : c ∈ Json.shortlyEscaped
  · simp only [Json.shortlyEscaped, List.mem_cons, List.not_mem_nil, or_false] at hshort
    rcases hshort with rfl | rfl | rfl | rfl | rfl | rfl | rfl <;> rfl
  · by_cases hcontrol : c.toNat < 0x20
    · have hchar : codePoint? 4 ('0' :: '0' :: Json.hexDigit (c.toNat / 16) :: Json.hexDigit c.toNat
          :: cs) = some (c, cs) := by
        have hsmall : c.toNat < 0xD800 := by omega
        simp [codePoint?, Json.readNat?_hexDigits hcontrol, hsmall]
      rw [Json.escape_control hshort hcontrol]
      simp [basicFrom, escaped?, hchar]
    · have hquote : c ≠ '"' := fun h => hshort (h ▸ by decide)
      have hback : c ≠ '\\' := fun h => hshort (h ▸ by decide)
      have htext : isText c = true := by
        have hdelete : c.toNat ≠ 0x7F := fun h => hc (Char.toNat_inj.1 h)
        simp [isText, hdelete]
        omega
      rw [Json.escape_plain hshort (Nat.not_lt.1 hcontrol)]
      simp [basicFrom, hquote, hback, htext]

/-- **A text in double quotes** is read back. -/
theorem basicFrom_quoted {cs : List Char} (h : '\x7f' ∉ cs) {fuel : Nat} (hfuel : cs.length < fuel)
    (rest : List Char) : basicFrom fuel (cs.flatMap Json.escape ++ '"' :: rest) = some (cs, rest) := by
  induction cs generalizing fuel with
  | nil =>
    obtain ⟨fuel, rfl⟩ := Nat.exists_eq_succ_of_ne_zero (Nat.ne_of_gt hfuel)
    rfl
  | cons c cs ih =>
    obtain ⟨fuel, rfl⟩ := Nat.exists_eq_succ_of_ne_zero (Nat.ne_zero_of_lt hfuel)
    rw [List.mem_cons, not_or] at h
    rw [List.flatMap_cons, List.append_assoc, basicFrom_escape (Ne.symm h.1),
      ih h.2 (Nat.lt_of_succ_lt_succ hfuel)]
    rfl

/-- A text in single quotes is read back. -/
theorem literal_exact {cs : List Char} (h : ∀ c ∈ cs, isText c = true ∧ c ≠ '\'')
    (rest : List Char) : literal (cs ++ '\'' :: rest) = some (cs, rest) := by
  induction cs with
  | nil => rfl
  | cons c cs ih =>
    obtain ⟨htext, hquote⟩ := h c List.mem_cons_self
    rw [List.cons_append, literal, if_neg hquote, if_pos htext,
      ih fun d hd => h d (List.mem_cons_of_mem c hd)]
    rfl

/-! ### Scalars -/

section Scalars

variable {word rest : List Char}

/-- The digits of a number are a whole part. -/
theorem wholeDigits?_decimalDigits (n : Nat) :
    wholeDigits? (decimalDigits n) = some (decimalDigits n) := by
  have hdigits : ∀ c ∈ decimalDigits n, c.isDigit = true := fun _ => isDigit_of_mem_decimalDigits
  have hgroup : ungroup? Char.isDigit (decimalDigits n) = some (decimalDigits n) := by
    have hunderscore : '_' ∉ decimalDigits n := fun h => absurd (hdigits '_' h) (by decide)
    unfold ungroup?
    rw [components_of_not_mem hunderscore]
    simp only [List.all_cons, List.all_nil, Bool.and_true, List.flatten_cons, List.flatten_nil,
      List.append_nil]
    rw [if_pos]
    simp [decimalDigits_ne_nil, List.all_eq_true.2 hdigits]
  unfold wholeDigits?
  rw [hgroup, Option.filter, if_pos]
  -- Only the number zero begins with a zero.
  by_cases hzero : n = 0
  · subst hzero
    rfl
  · simp [head?_decimalDigits hzero]

/-- The characters of an integer are digits, and perhaps a minus. -/
theorem integer_cases {n : Int} {c : Char}
    (h : c ∈ Json.signChars (decide (n < 0)) ++ decimalDigits n.natAbs) :
    c = '-' ∨ c.isDigit = true := by
  rcases List.mem_append.1 h with hsign | hdigit
  · unfold Json.signChars at hsign
    split at hsign
    · exact .inl (List.mem_singleton.1 hsign)
    · cases hsign
  · exact .inr (isDigit_of_mem_decimalDigits hdigit)

/-- Without the mark of a base an integer is a sign with digits. -/
theorem integer?_of_plain {cs : List Char} (h : ∀ c ∈ cs, c = '-' ∨ c.isDigit = true) :
    integer? cs = ((wholeDigits? (splitSign cs).2).map digitsValue).map fun n =>
      if (splitSign cs).1 then -(n : Int) else n := by
  have hmark : ∀ c ∈ cs, c ≠ 'x' ∧ c ≠ 'o' ∧ c ≠ 'b' := by
    intro c hc
    rcases h c hc with rfl | hdigit
    · decide
    · refine ⟨?_, ?_, ?_⟩ <;>
        (rintro rfl
         exact absurd hdigit (by decide))
  unfold integer?
  split
  · exact absurd rfl (hmark 'x' (by simp)).1
  · exact absurd rfl (hmark 'o' (by simp)).2.1
  · exact absurd rfl (hmark 'b' (by simp)).2.2
  · rfl

/-- The sign of an integer is read where it has one. -/
theorem splitSign_chars (n : Int) :
    splitSign (Json.signChars (decide (n < 0)) ++ decimalDigits n.natAbs)
      = (decide (n < 0), decimalDigits n.natAbs) := by
  have hdigits : ∀ c ∈ decimalDigits n.natAbs, c.isDigit = true :=
    fun _ => isDigit_of_mem_decimalDigits
  cases decide (n < 0) with
  | true => rfl
  | false =>
    show splitSign (decimalDigits n.natAbs) = _
    unfold splitSign
    split
    · rename_i hminus
      exact absurd (hdigits '-' (by simp [hminus])) (by decide)
    · rename_i hplus
      exact absurd (hdigits '+' (by simp [hplus])) (by decide)
    · rfl

/-- **An integer is read back.** -/
theorem integer?_chars (n : Int) :
    integer? (Json.signChars (decide (n < 0)) ++ decimalDigits n.natAbs) = some n := by
  rw [integer?_of_plain fun c hc => integer_cases hc, splitSign_chars]
  simp only [wholeDigits?_decimalDigits, Option.map_some, digitsValue_decimalDigits]
  refine congrArg some ?_
  show (if decide (n < 0) then -(n.natAbs : Int) else n.natAbs) = n
  split
  · rename_i hnegative
    have hneg := of_decide_eq_true hnegative
    omega
  · rename_i hpositive
    have hpos := of_decide_eq_false (Bool.eq_false_iff.2 hpositive)
    omega

/-- A scalar is split off where it ends. -/
theorem splitScalar_append (hword : ∀ c ∈ word, isScalarCharacter c = true)
    (h : EndsValue rest) : splitScalar (word ++ rest) = (word, rest) := by
  have htake : (word ++ rest).takeWhile isScalarCharacter = word := by
    rw [List.takeWhile_append_of_pos hword]
    cases rest with
    | nil => simp
    | cons c rest => simp [(h.head c rfl).1]
  have hdrop : (word ++ rest).dropWhile isScalarCharacter = rest := by
    rw [List.dropWhile_append_of_pos hword]
    cases rest with
    | nil => rfl
    | cons c rest => simp [(h.head c rfl).1]
  unfold splitScalar
  simp only [htake, hdrop]
  split
  · rename_i c rest'
    rw [h.noTime c rest' rfl, Bool.and_false]
    rfl
  · rfl

/-- **A scalar is read** as its text says. -/
theorem readValue_scalar {value : Span → Value} (hword : ∀ c ∈ word, isScalarCharacter c = true)
    (hne : word ≠ []) (hvalue : ∀ span, scalar? span word = some (value span)) (h : EndsValue rest)
    (depth : Nat) : readValue depth (word ++ rest)
      = some (value (.between (word ++ rest) rest), rest) := by
  have hsplit := splitScalar_append hword h
  obtain ⟨c, word, rfl⟩ := List.exists_cons_of_ne_nil hne
  have hc := hword c List.mem_cons_self
  have hquote : ¬ (c = '"' ∨ c = '\'') := by
    rintro (rfl | rfl)
    · exact absurd hc (by decide)
    · exact absurd hc (by decide)
  rw [List.cons_append] at hsplit ⊢
  unfold readValue
  -- None of the marks of the other values can stand in a scalar.
  split
  · rename_i heq
    obtain ⟨rfl, -⟩ := List.cons.inj heq
    exact absurd hc (by decide)
  · rename_i heq
    obtain ⟨rfl, -⟩ := List.cons.inj heq
    exact absurd hc (by decide)
  · rename_i heq
    obtain ⟨rfl, rfl⟩ := List.cons.inj heq
    rw [if_neg hquote, hsplit]
    simp only [hvalue, Option.map_some]
  · rename_i heq
    cases heq

end Scalars

theorem isGap_cases {c : Char} (h : isGap c = true) : c = ' ' ∨ c = '\t' := by
  simpa [isGap] using h

namespace Literal

/-- A scalar has its characters only. -/
theorem scalar?_chars {l : Literal} (h : (∃ n, l = integer n) ∨ ∃ b, l = boolean b) :
    (∀ c ∈ l.chars, isScalarCharacter c = true) ∧ l.chars ≠ [] ∧
      ∀ span, scalar? span l.chars = some (l.value span) := by
  rcases h with ⟨n, rfl⟩ | ⟨b, rfl⟩
  · have hchars : ∀ c ∈ (integer n).chars, c = '-' ∨ c.isDigit = true := fun c => integer_cases
    refine ⟨fun c hc => ?_, fun hnil => decimalDigits_ne_nil (List.append_eq_nil_iff.1 hnil).2,
      fun span => ?_⟩
    · rcases hchars c hc with rfl | hdigit
      · rfl
      · simp [isScalarCharacter, Char.isAlphanum, hdigit]
    · have htrue : (integer n).chars ≠ "true".toList := fun heq =>
        absurd (hchars 't' (by simp [heq])) (by decide)
      have hfalse : (integer n).chars ≠ "false".toList := fun heq =>
        absurd (hchars 'f' (by simp [heq])) (by decide)
      unfold scalar?
      rw [if_neg htrue, if_neg hfalse]
      simp only [chars, integer?_chars]
      rfl
  · cases b
    · exact ⟨List.all_eq_true.1 (by decide), by decide, fun _ => rfl⟩
    · exact ⟨List.all_eq_true.1 (by decide), by decide, fun _ => rfl⟩

/-- A text in quotes is read as its characters say. -/
theorem readValue_string {quote : Char} (hquote : quote = '"' ∨ quote = '\'') (cs : List Char)
    (depth : Nat) : readValue depth (quote :: cs) = (readString (quote :: cs)).map fun e =>
      (.string (.between (quote :: cs) e.2) (String.ofList e.1), e.2) := by
  unfold readValue
  split
  · rename_i heq
    obtain ⟨rfl, -⟩ := List.cons.inj heq
    exact absurd hquote (by decide)
  · rename_i heq
    obtain ⟨rfl, -⟩ := List.cons.inj heq
    exact absurd hquote (by decide)
  · rename_i heq
    obtain ⟨rfl, rfl⟩ := List.cons.inj heq
    rw [if_pos hquote]
  · rename_i heq
    cases heq

/-- Behind one quote that no two others follow, a string on one line is read. -/
theorem readString_one {cs : List Char} :
    ((∀ tail, cs ≠ '"' :: '"' :: tail) → readString ('"' :: cs) = basic cs) ∧
      ((∀ tail, cs ≠ '\'' :: '\'' :: tail) → readString ('\'' :: cs) = Toml.literal cs) := by
  refine ⟨fun h => ?_, fun h => ?_⟩
  · unfold readString
    split
    · rename_i tail heq
      exact absurd (List.cons.inj heq).2 (h tail)
    · rename_i heq
      exact absurd (List.cons.inj heq).1 (by decide)
    · rename_i heq
      rw [(List.cons.inj heq).2]
    · rename_i heq
      exact absurd (List.cons.inj heq).1 (by decide)
    · rename_i hbasic _
      exact absurd rfl (hbasic cs)
  · unfold readString
    split
    · rename_i heq
      exact absurd (List.cons.inj heq).1 (by decide)
    · rename_i tail heq
      exact absurd (List.cons.inj heq).2 (h tail)
    · rename_i heq
      exact absurd (List.cons.inj heq).1 (by decide)
    · rename_i heq
      rw [(List.cons.inj heq).2]
    · rename_i hliteral
      exact absurd rfl (hliteral cs)

/-- A character is written with one at least, and the first is no quote. -/
theorem exists_escape (c : Char) : ∃ d ds, Json.escape c = d :: ds ∧ d ≠ '"' := by
  unfold Json.escape
  split_ifs with hquote
  all_goals first | exact ⟨_, _, rfl, by decide⟩ | exact ⟨c, [], rfl, hquote⟩

theorem length_le_flatMap_escape (cs : List Char) : cs.length ≤ (cs.flatMap Json.escape).length := by
  induction cs with
  | nil => simp
  | cons c cs ih =>
    obtain ⟨d, ds, hescape, -⟩ := exists_escape c
    rw [List.flatMap_cons, hescape, List.length_append, List.length_cons, List.length_cons]
    omega

/-- **A text in double quotes** is read back, -/
theorem readString_quoted {text rest : List Char} (h : '\x7f' ∉ text) (hrest : EndsValue rest) :
    readString (Json.quoteChars text ++ rest) = some (text, rest) := by
  have hchars : Json.quoteChars text ++ rest = '"' :: (text.flatMap Json.escape ++ '"' :: rest) := by
    simp [Json.quoteChars]
  rw [hchars, readString_one.1]
  · refine basicFrom_quoted h (Nat.lt_succ_of_le ?_) rest
    have hlength := length_le_flatMap_escape text
    rw [List.length_append]
    omega
  · -- No quote follows an empty text, and a quote in a text stands behind a backslash.
    intro tail heq
    cases text with
    | nil =>
      obtain ⟨-, hnext⟩ := List.cons.inj heq
      exact (hrest.head '"' (by simp [hnext])).2.1 rfl
    | cons c text =>
      obtain ⟨d, ds, hescape, hd⟩ := exists_escape c
      rw [List.flatMap_cons, hescape] at heq
      exact hd (List.cons.inj heq).1

/-- and so is one in single quotes. -/
theorem readString_exact {text rest : List Char} (h : ∀ c ∈ text, isText c = true ∧ c ≠ '\'')
    (hrest : EndsValue rest) :
    readString ('\'' :: (text ++ '\'' :: rest)) = some (text, rest) := by
  rw [readString_one.2]
  · exact literal_exact h rest
  · intro tail heq
    cases text with
    | nil =>
      obtain ⟨-, hnext⟩ := List.cons.inj heq
      exact (hrest.head '\'' (by simp [hnext])).2.2 rfl
    | cons c text =>
      obtain ⟨rfl, -⟩ := List.cons.inj heq
      exact (h '\'' List.mem_cons_self).2 rfl

/-- **A value is read back** where it ends. -/
theorem readValue_chars (l : Literal) {rest : List Char} (h : EndsValue rest) (depth : Nat) :
    readValue depth (l.chars ++ rest) = some (l.value (.between (l.chars ++ rest) rest), rest) := by
  cases l with
  | quoted text hwritable =>
    have hread : readString ('"' :: (text.toList.flatMap Json.escape ++ ['"'] ++ rest))
        = some (text.toList, rest) := readString_quoted hwritable h
    show readValue depth ('"' :: (text.toList.flatMap Json.escape ++ ['"'] ++ rest)) = _
    rw [readValue_string (.inl rfl), hread]
    simp only [Option.map_some, String.ofList_toList]
    rfl
  | exact text hwritable =>
    have hchars : (exact text hwritable).chars ++ rest = '\'' :: (text.toList ++ '\'' :: rest) := by
      simp [chars]
    rw [hchars, readValue_string (.inr rfl), readString_exact hwritable h]
    simp only [Option.map_some, String.ofList_toList]
    rfl
  | integer n =>
    obtain ⟨hword, hne, hvalue⟩ := scalar?_chars (.inl ⟨n, rfl⟩)
    exact readValue_scalar hword hne hvalue h depth
  | boolean b =>
    obtain ⟨hword, hne, hvalue⟩ := scalar?_chars (.inr ⟨b, rfl⟩)
    exact readValue_scalar hword hne hvalue h depth

/-- No value begins with a blank. -/
theorem exists_chars (l : Literal) : ∃ c cs, l.chars = c :: cs ∧ isGap c = false := by
  cases l with
  | quoted text => exact ⟨_, _, rfl, by decide⟩
  | exact text => exact ⟨_, _, rfl, by decide⟩
  | integer n =>
    obtain ⟨c, cs, hcs⟩ := List.exists_cons_of_ne_nil (scalar?_chars (.inl ⟨n, rfl⟩)).2.1
    refine ⟨c, cs, hcs, ?_⟩
    rcases integer_cases (n := n) (c := c) (by rw [← chars, hcs]; simp) with rfl | hdigit
    · rfl
    · rw [← Bool.not_eq_true]
      intro hblank
      rcases isGap_cases hblank with rfl | rfl
      · exact absurd hdigit (by decide)
      · exact absurd hdigit (by decide)
  | boolean b => cases b <;> exact ⟨_, _, rfl, by decide⟩

end Literal

end SecretFill.Toml
