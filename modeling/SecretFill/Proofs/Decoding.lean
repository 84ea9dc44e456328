import SecretFill.Number.Radix
import SecretFill.Proofs.Trees

namespace SecretFill.Json

/-!
# Reading JSON

A JSON document is read by the grammar of JSON, with white space and escapes of all kinds.  What was
written of a document without holes is read back as this document.

* `readString?`, `readValue?` — read a string and a value.
* `decode?` — reads a document.
* `decode?_text` — every document without holes is read back from its text.
-/

/-! ### Strings -/

/-- The character that is escaped by one other. -/
def shortEscape? : Char → Option Char
  | '"' => some '"'
  | '\\' => some '\\'
  | '/' => some '/'
  | 'b' => some '\x08'
  | 'f' => some '\x0C'
  | 'n' => some '\n'
  | 'r' => some '\r'
  | 't' => some '\t'
  | _ => none

/-- Reads a string behind its opening quote.  Characters outside the basic plane are escaped as two
    surrogates, which stand for nothing alone. -/
def readString? : List Char → Option (List Char × List Char)
  | '"' :: rest => some ([], rest)
  | '\\' :: 'u' :: a :: b :: c :: d :: rest =>
    match readNat? 16 [a, b, c, d] with
    | none => none
    | some unit =>
      if 0xD800 ≤ unit ∧ unit < 0xDC00 then
        match rest with
        | '\\' :: 'u' :: a' :: b' :: c' :: d' :: rest' =>
          match readNat? 16 [a', b', c', d'] with
          | none => none
          | some low =>
            if 0xDC00 ≤ low ∧ low < 0xE000 then
              (readString? rest').map fun (text, rest) =>
                (Char.ofNat (0x10000 + (unit - 0xD800) * 0x400 + (low - 0xDC00)) :: text, rest)
            else none
        | _ => none
      else if 0xDC00 ≤ unit ∧ unit < 0xE000 then none
      else (readString? rest).map fun (text, rest) => (Char.ofNat unit :: text, rest)
  | '\\' :: c :: rest =>
    match shortEscape? c with
    | none => none
    | some c => (readString? rest).map fun (text, rest) => (c :: text, rest)
  | c :: rest =>
    if c = '\\' ∨ c.toNat < 0x20 then none
    else (readString? rest).map fun (text, rest) => (c :: text, rest)
  | [] => none

/-- Two hexadecimal digits write a number below U+0020. -/
theorem readNat?_hexDigits {n : Nat} (h : n < 0x20) :
    readNat? 16 ['0', '0', hexDigit (n / 16), hexDigit n] = some n := by
  have hall : ∀ n < 0x20, readNat? 16 ['0', '0', hexDigit (n / 16), hexDigit n] = some n := by
    decide
  exact hall n h

/-- What stands for a character is read as this character. -/
theorem readString?_escape (c : Char) (cs : List Char) : readString? (escape c ++ cs)
    = (readString? cs).map fun (text, rest) => (c :: text, rest) := by
  by_cases hshort : c ∈ shortlyEscaped
  · simp only [shortlyEscaped, List.mem_cons, List.not_mem_nil, or_false] at hshort
    rcases hshort with rfl | rfl | rfl | rfl | rfl | rfl | rfl <;> rfl
  · by_cases hcontrol : c.toNat < 0x20
    · have hhigh : ¬ (0xD800 ≤ c.toNat ∧ c.toNat < 0xDC00) := by omega
      have hlow : ¬ (0xDC00 ≤ c.toNat ∧ c.toNat < 0xE000) := by omega
      simp [escape_control hshort hcontrol, readString?, readNat?_hexDigits hcontrol, hhigh, hlow]
    · have hquote : c ≠ '"' := fun h => hshort (h ▸ by decide)
      have hback : c ≠ '\\' := fun h => hshort (h ▸ by decide)
      rw [escape_plain hshort (Nat.not_lt.1 hcontrol)]
      simp [readString?, hback, hcontrol]

/-- **A string is read back** from its text. -/
theorem readString?_chars (cs rest : List Char) :
    readString? (cs.flatMap escape ++ '"' :: rest) = some (cs, rest) := by
  induction cs with
  | nil => simp [readString?]
  | cons c cs ih =>
    rw [List.flatMap_cons, List.append_assoc, readString?_escape, ih]
    rfl

/-! ### Documents -/

/-- White space of JSON. -/
def isSpace (c : Char) : Bool := [' ', '\t', '\n', '\r'].contains c

/-- Skips white space. -/
def skipSpace (cs : List Char) : List Char := cs.dropWhile isSpace

/-- Reads the name of a member with the colon behind it. -/
def readName? (cs : List Char) : Option (String × List Char) := do
  match skipSpace cs with
  | '"' :: cs =>
    let (name, cs) ← readString? cs
    match skipSpace cs with
    | ':' :: cs => return (String.ofList name, cs)
    | _ => none
  | _ => none

mutual

/-- Reads a value.  The fuel bounds how often values, items and members are begun. -/
def readValue? : Nat → List Char → Option (Datum × List Char)
  | 0, _ => none
  | fuel + 1, cs =>
    match skipSpace cs with
    | '"' :: cs => (readString? cs).map fun (text, cs) => (.string (String.ofList text), cs)
    | '[' :: cs =>
      match skipSpace cs with
      | ']' :: cs => some (.array [], cs)
      | cs => (readItems? fuel cs).map fun (items, cs) => (.array items, cs)
    | '{' :: cs =>
      match skipSpace cs with
      | '}' :: cs => some (.object [], cs)
      | cs => (readMembers? fuel cs).map fun (members, cs) => (.object members, cs)
    | 'n' :: 'u' :: 'l' :: 'l' :: cs => some (.null, cs)
    | 't' :: 'r' :: 'u' :: 'e' :: cs => some (.bool true, cs)
    | 'f' :: 'a' :: 'l' :: 's' :: 'e' :: cs => some (.bool false, cs)
    | cs => (readNumber? cs).map fun (x, cs) => (.number x, cs)

/-- Reads at least one item and the bracket behind the last one. -/
def readItems? : Nat → List Char → Option (List Datum × List Char)
  | 0, _ => none
  | fuel + 1, cs => do
    let (item, cs) ← readValue? fuel cs
    match skipSpace cs with
    | ',' :: cs => (readItems? fuel cs).map fun (items, cs) => (item :: items, cs)
    | ']' :: cs => return ([item], cs)
    | _ => none

/-- Reads at least one member and the brace behind the last one. -/
def readMembers? : Nat → List Char → Option (List (String × Datum) × List Char)
  | 0, _ => none
  | fuel + 1, cs => do
    let (name, cs) ← readName? cs
    let (value, cs) ← readValue? fuel cs
    match skipSpace cs with
    | ',' :: cs => (readMembers? fuel cs).map fun (members, cs) => ((name, value) :: members, cs)
    | '}' :: cs => return ([(name, value)], cs)
    | _ => none

end

/-- Reads a document, which is a value and nothing else.  Each character begins at most one value
    and one item or member. -/
def decode? (text : String) : Option Datum := do
  let (d, cs) ← readValue? (2 * text.toList.length) text.toList
  if (skipSpace cs).isEmpty then return d else none

/-! ### What values begin with -/

/-- A numeral begins with no white space. -/
theorem isSpace_numeral {c : Char} (h : isNumeralChar c = true) : isSpace c = false := by
  cases hspace : isSpace c with
  | false => rfl
  | true =>
    have hall : ∀ d ∈ [' ', '\t', '\n', '\r'], isNumeralChar d = false := by
      simp [isNumeralChar]
    exact absurd h (by simp [hall c (List.contains_iff_mem.1 hspace)])

theorem skipSpace_cons {c : Char} (h : isSpace c = false) (cs : List Char) :
    skipSpace (c :: cs) = c :: cs := by
  simp [skipSpace, h]

/-- A number is read where nothing else begins. -/
theorem readValue?_number (fuel : Nat) (x : Number) {rest : List Char} (h : EndsNumber rest) :
    readValue? (fuel + 1) (x.chars ++ rest) = some (.number x, rest) := by
  obtain ⟨c, cs, hchars, hc⟩ := x.exists_head
  have hother : ∀ d ds, isNumeralChar d = false → x.chars ++ rest ≠ d :: ds := by
    rintro d ds hd heq
    rw [hchars, List.cons_append] at heq
    rw [(List.cons.inj heq).1, hd] at hc
    exact absurd hc (by decide)
  have hskip : skipSpace (x.chars ++ rest) = x.chars ++ rest := by
    rw [hchars, List.cons_append, skipSpace_cons (isSpace_numeral hc)]
  rw [readValue?, hskip]
  split
  iterate 6
    rename_i heq
    exact absurd heq (hother _ _ rfl)
  · rw [readNumber?_chars x h]
    rfl

/-- A value begins with neither white space nor a bracket that closes an array. -/
theorem Datum.exists_head (d : Datum) :
    ∃ c cs, d.chars = c :: cs ∧ isSpace c = false ∧ c ≠ ']' := by
  cases d with
  | null => exact ⟨_, _, rfl, rfl, by decide⟩
  | bool b => cases b <;> exact ⟨_, _, rfl, rfl, by decide⟩
  | number x =>
    obtain ⟨c, cs, hchars, hc⟩ := x.exists_head
    refine ⟨c, cs, hchars, isSpace_numeral hc, ?_⟩
    rintro rfl
    exact absurd hc (by decide)
  | string | array | object => exact ⟨_, _, rfl, rfl, by decide⟩
  | hole h => exact h.elim

/-- Items begin as the first of them does. -/
theorem Datum.exists_head_items (item : Datum) (items : List Datum) :
    ∃ c cs, commaSeparated (Tree.itemChars Empty.elim (item :: items)) = c :: cs
      ∧ isSpace c = false ∧ c ≠ ']' := by
  obtain ⟨c, cs, hchars, hc⟩ := Datum.exists_head item
  cases items with
  | nil => exact ⟨c, cs, hchars, hc⟩
  | cons next items => exact ⟨c, _, congrArg (· ++ ',' :: commaSeparated _) hchars, hc⟩

/-- Members begin with the quote of a name. -/
theorem Datum.exists_head_members (member : String × Datum) (members : List (String × Datum)) :
    ∃ cs, commaSeparated (Tree.memberChars Empty.elim (member :: members)) = '"' :: cs := by
  obtain ⟨name, value⟩ := member
  cases members <;> exact ⟨_, rfl⟩

theorem Datum.length_pos (d : Datum) : 0 < d.chars.length := by
  obtain ⟨c, cs, hchars, -⟩ := d.exists_head
  rw [hchars]
  exact Nat.succ_pos _

/-- Fuel for the characters of a value is fuel for a step. -/
theorem Datum.exists_fuel (d : Datum) {fuel : Nat} (h : 2 * d.chars.length ≤ fuel) :
    ∃ k, fuel = k + 1 := by
  have hpos := d.length_pos
  exact ⟨fuel - 1, by omega⟩

/-- What closes or separates values ends a number. -/
theorem endsNumber_cons {c : Char} (h : c ∈ [',', ']', '}']) (rest : List Char) :
    EndsNumber (c :: rest) := by
  have hall : ∀ c ∈ [',', ']', '}'], c.isDigit = false ∧ c ≠ '.' ∧ c ≠ 'e' ∧ c ≠ 'E' := by simp
  intro d hd
  obtain rfl : c = d := Option.some.inj hd
  exact hall c h

/-! ### One step of reading -/

section Steps

variable {fuel : Nat} {cs cs' rest : List Char} {c : Char} {name : String} {value : Datum}
  {values : List Datum} {members : List (String × Datum)}

/-- An array that is not closed at once has items. -/
theorem readValue?_items (hspace : isSpace c = false) (hclose : c ≠ ']')
    (h : readItems? fuel (c :: cs) = some (values, rest)) :
    readValue? (fuel + 1) ('[' :: c :: cs) = some (.array values, rest) := by
  rw [readValue?, skipSpace_cons rfl]
  simp only [skipSpace_cons hspace]
  split
  · rename_i heq
    exact absurd (List.cons.inj heq).1 hclose
  · rw [h]
    rfl

/-- An item may be the last one, -/
theorem readItems?_last (h : readValue? fuel cs = some (value, ']' :: rest)) :
    readItems? (fuel + 1) cs = some ([value], rest) := by
  rw [readItems?, h]
  rfl

/-- or others may follow. -/
theorem readItems?_next (h : readValue? fuel cs = some (value, ',' :: cs'))
    (h' : readItems? fuel cs' = some (values, rest)) :
    readItems? (fuel + 1) cs = some (value :: values, rest) := by
  rw [readItems?, h]
  simp [skipSpace_cons (show isSpace ',' = false from rfl), h']

/-- An object whose first name is there has members. -/
theorem readValue?_members (h : readMembers? fuel ('"' :: cs) = some (members, rest)) :
    readValue? (fuel + 1) ('{' :: '"' :: cs) = some (.object members, rest) := by
  rw [readValue?, skipSpace_cons rfl]
  simp only [skipSpace_cons (show isSpace '"' = false from rfl)]
  show (readMembers? fuel ('"' :: cs)).map _ = _
  rw [h]
  rfl

/-- A name is read back. -/
theorem readName?_chars (name : String) (rest : List Char) :
    readName? (quoteChars name.toList ++ ':' :: rest) = some (name, rest) := by
  show readName? ('"' :: (name.toList.flatMap escape ++ ['"'] ++ ':' :: rest)) = _
  rw [List.append_assoc]
  simp only [readName?, skipSpace_cons (show isSpace '"' = false from rfl)]
  rw [List.cons_append, List.nil_append, readString?_chars]
  simp [skipSpace_cons (show isSpace ':' = false from rfl)]

/-- A member may be the last one, -/
theorem readMembers?_last (h : readValue? fuel cs = some (value, '}' :: rest)) :
    readMembers? (fuel + 1) (quoteChars name.toList ++ ':' :: cs)
      = some ([(name, value)], rest) := by
  rw [readMembers?, readName?_chars]
  simp [h, skipSpace_cons (show isSpace '}' = false from rfl)]

/-- or others may follow. -/
theorem readMembers?_next (h : readValue? fuel cs = some (value, ',' :: cs'))
    (h' : readMembers? fuel cs' = some (members, rest)) :
    readMembers? (fuel + 1) (quoteChars name.toList ++ ':' :: cs)
      = some ((name, value) :: members, rest) := by
  rw [readMembers?, readName?_chars]
  simp [h, skipSpace_cons (show isSpace ',' = false from rfl), h']

end Steps

/-! ### What was written is read back -/

mutual

/-- A value is read back, given fuel for all its characters. -/
theorem readValue?_chars : (d : Datum) → ∀ (fuel : Nat) (rest : List Char),
    2 * d.chars.length ≤ fuel + 1 → EndsNumber rest →
      readValue? (fuel + 1) (d.chars ++ rest) = some (d, rest)
  | .null, fuel, rest, _, _ => rfl
  | .bool b, fuel, rest, _, _ => by cases b <;> rfl
  | .number x, fuel, rest, _, hrest => readValue?_number fuel x hrest
  | .string s, fuel, rest, _, _ => by
    show readValue? (fuel + 1) ('"' :: (s.toList.flatMap escape ++ ['"'] ++ rest)) = _
    rw [readValue?, skipSpace_cons rfl, List.append_assoc]
    simp only [List.cons_append, List.nil_append, readString?_chars, Option.map_some,
      String.ofList_toList]
  | .array [], fuel, rest, _, _ => rfl
  -- One piece of fuel is taken off for the bracket, and the items are read with what is left.
  | .array (item :: items), fuel, rest, hfuel, _ => by
    have hlength : (Datum.chars (.array (item :: items))).length
        = (commaSeparated (Tree.itemChars Empty.elim (item :: items))).length + 2 := by
      simp [Datum.chars, Tree.chars]
    obtain ⟨fuel, rfl⟩ : ∃ k, fuel = k + 1 := ⟨fuel - 1, by omega⟩
    have hitems := readItems?_chars (item :: items) (by simp) fuel rest (by omega)
    obtain ⟨c, cs, hchars, hspace, hclose⟩ := Datum.exists_head_items item items
    rw [hchars, List.cons_append] at hitems
    have hvalue := readValue?_items hspace hclose hitems
    rw [← hvalue]
    show readValue? _ ('[' :: (commaSeparated (Tree.itemChars Empty.elim (item :: items)) ++ [']'])
      ++ rest) = _
    rw [hchars]
    simp
  | .object [], fuel, rest, _, _ => rfl
  | .object (member :: members), fuel, rest, hfuel, _ => by
    have hlength : (Datum.chars (.object (member :: members))).length
        = (commaSeparated (Tree.memberChars Empty.elim (member :: members))).length + 2 := by
      simp [Datum.chars, Tree.chars]
    obtain ⟨fuel, rfl⟩ : ∃ k, fuel = k + 1 := ⟨fuel - 1, by omega⟩
    have hmembers := readMembers?_chars (member :: members) (by simp) fuel rest (by omega)
    obtain ⟨cs, hchars⟩ := Datum.exists_head_members member members
    rw [hchars, List.cons_append] at hmembers
    have hvalue := readValue?_members hmembers
    rw [← hvalue]
    show readValue? _ ('{' :: (commaSeparated (Tree.memberChars Empty.elim (member :: members))
      ++ ['}']) ++ rest) = _
    rw [hchars]
    simp

/-- Items are read back. -/
theorem readItems?_chars : (items : List Datum) → items ≠ [] → ∀ (fuel : Nat) (rest : List Char),
    2 * (commaSeparated (Tree.itemChars Empty.elim items)).length ≤ fuel →
      readItems? (fuel + 1) (commaSeparated (Tree.itemChars Empty.elim items) ++ ']' :: rest)
        = some (items, rest)
  | [item], _, fuel, rest, hfuel => by
    have hlength : 2 * item.chars.length ≤ fuel := hfuel
    obtain ⟨fuel, rfl⟩ : ∃ k, fuel = k + 1 := item.exists_fuel (by omega)
    exact readItems?_last (readValue?_chars item fuel _ hlength (endsNumber_cons (by decide) rest))
  -- The first item ends at the comma, and all others are read behind it.
  | item :: next :: items, _, fuel, rest, hfuel => by
    have hlength : (commaSeparated (Tree.itemChars Empty.elim (item :: next :: items))).length
        = item.chars.length
          + ((commaSeparated (Tree.itemChars Empty.elim (next :: items))).length + 1) :=
      List.length_append
    obtain ⟨fuel, rfl⟩ : ∃ k, fuel = k + 1 := item.exists_fuel (by omega)
    have hitem := readValue?_chars item fuel
      (',' :: (commaSeparated (Tree.itemChars Empty.elim (next :: items)) ++ ']' :: rest))
      (by omega) (endsNumber_cons (by decide) _)
    have hitems := readItems?_chars (next :: items) (by simp) fuel rest (by omega)
    rw [← readItems?_next hitem hitems]
    exact congrArg (readItems? _) (List.append_assoc _ _ _)

/-- Members are read back. -/
theorem readMembers?_chars : (members : List (String × Datum)) → members ≠ [] →
    ∀ (fuel : Nat) (rest : List Char),
    2 * (commaSeparated (Tree.memberChars Empty.elim members)).length ≤ fuel →
      readMembers? (fuel + 1) (commaSeparated (Tree.memberChars Empty.elim members) ++ '}' :: rest)
        = some (members, rest)
  | [(name, value)], _, fuel, rest, hfuel => by
    have hlength : (commaSeparated (Tree.memberChars Empty.elim [(name, value)])).length
        = (quoteChars name.toList).length + (value.chars.length + 1) := List.length_append
    obtain ⟨fuel, rfl⟩ : ∃ k, fuel = k + 1 := value.exists_fuel (by omega)
    have hvalue := readValue?_chars value fuel ('}' :: rest) (by omega)
      (endsNumber_cons (by decide) rest)
    rw [← readMembers?_last hvalue]
    exact congrArg (readMembers? _) (List.append_assoc _ _ _)
  -- The first member ends at the comma, and all others are read behind it.
  | (name, value) :: next :: members, _, fuel, rest, hfuel => by
    have hlength : (commaSeparated
        (Tree.memberChars Empty.elim ((name, value) :: next :: members))).length
        = (quoteChars name.toList ++ ':' :: value.chars).length
          + ((commaSeparated (Tree.memberChars Empty.elim (next :: members))).length + 1) :=
      List.length_append
    have hmember : (quoteChars name.toList ++ ':' :: value.chars).length
        = (quoteChars name.toList).length + (value.chars.length + 1) := List.length_append
    obtain ⟨fuel, rfl⟩ : ∃ k, fuel = k + 1 := value.exists_fuel (by omega)
    have hvalue := readValue?_chars value fuel
      (',' :: (commaSeparated (Tree.memberChars Empty.elim (next :: members)) ++ '}' :: rest))
      (by omega) (endsNumber_cons (by decide) _)
    have hmembers := readMembers?_chars (next :: members) (by simp) fuel rest (by omega)
    rw [← readMembers?_next hvalue hmembers]
    refine congrArg (readMembers? _) ?_
    show (quoteChars name.toList ++ ':' :: value.chars ++ ',' :: commaSeparated _) ++ _ = _
    simp only [List.append_assoc, List.cons_append]

end

/-- **Every document is read back** from its text. -/
theorem decode?_text (d : Datum) : decode? d.text = some d := by
  have hpos := d.length_pos
  have hfuel : 2 * d.text.toList.length = (2 * d.chars.length - 1) + 1 := by
    rw [Datum.text, String.toList_ofList]
    omega
  have hread := readValue?_chars d (2 * d.chars.length - 1) [] (by omega) (by simp [EndsNumber])
  rw [List.append_nil] at hread
  rw [decode?, hfuel, Datum.text, String.toList_ofList, hread]
  rfl

end SecretFill.Json
