import SecretFill.Proofs.Numerals

namespace SecretFill.Json

/-!
# JSON trees

The JSON text of a YAML value is that of a tree, its JSON image.  Trees may also have holes, where
something else than JSON is written.

* `Tree` — a JSON document that may have holes; `Datum` — one that has none.
* `Tree.chars` — its compact text, given what to write in the holes.
* `image` — the JSON image of a YAML value.
* `chars_eq_image` — a value is encoded as the text of its image.
* `Tree.isUncontrolled` — no text of a document has a control character in it.
-/

open Yaml (Value)

/-- A JSON document with holes for something that is named in `η`.  The members of an object keep
    their order, and a name may occur twice. -/
inductive Tree (η : Type) where
  /-- Nothing. -/
  | null
  /-- A truth value. -/
  | bool (b : Bool)
  /-- A number. -/
  | number (x : Number)
  /-- A text. -/
  | string (s : String)
  /-- A row of values. -/
  | array (items : List (Tree η))
  /-- Values with names. -/
  | object (members : List (String × Tree η))
  /-- A hole. -/
  | hole (h : η)

/-- A JSON document without holes. -/
abbrev Datum := Tree Empty

namespace Tree

variable {η : Type}

mutual

/-- The compact text of a document, given what to write in its holes. -/
def chars (write : η → List Char) : Tree η → List Char
  | null => "null".toList
  | bool b => (Value.boolText b).toList
  | number x => x.chars
  | string s => quoteChars s.toList
  | array items => '[' :: (commaSeparated (itemChars write items) ++ [']'])
  | object members => '{' :: (commaSeparated (memberChars write members) ++ ['}'])
  | hole h => write h

/-- The texts of the items of an array. -/
def itemChars (write : η → List Char) : List (Tree η) → List (List Char)
  | [] => []
  | item :: items => item.chars write :: itemChars write items

/-- The texts of the members of an object. -/
def memberChars (write : η → List Char) : List (String × Tree η) → List (List Char)
  | [] => []
  | (name, value) :: members =>
    (quoteChars name.toList ++ ':' :: value.chars write) :: memberChars write members

end

end Tree

namespace Datum

/-- The text of a document without holes. -/
def chars (d : Datum) : List Char := Tree.chars Empty.elim d

/-- The text of a document without holes. -/
def text (d : Datum) : String := String.ofList d.chars

end Datum

/-! ### Escapes -/

/-- The characters whose escapes have a short form. -/
def shortlyEscaped : List Char := ['"', '\\', '\x08', '\t', '\n', '\x0C', '\r']

section Escapes

variable {c : Char}

/-- The other control characters are escaped by their numbers. -/
theorem escape_control (hshort : c ∉ shortlyEscaped) (h : c.toNat < 0x20) :
    escape c = ['\\', 'u', '0', '0', hexDigit (c.toNat / 16), hexDigit c.toNat] := by
  simp only [shortlyEscaped, List.mem_cons, List.not_mem_nil, or_false, not_or] at hshort
  simp [escape, hshort, h]

/-- All other characters stand for themselves. -/
theorem escape_plain (hshort : c ∉ shortlyEscaped) (h : 0x20 ≤ c.toNat) : escape c = [c] := by
  simp only [shortlyEscaped, List.mem_cons, List.not_mem_nil, or_false, not_or] at hshort
  simp [escape, hshort, Nat.not_lt.2 h]

/-- No character of a numeral is a control character. -/
theorem isNumeralChar_toNat (h : isNumeralChar c = true) : 0x20 ≤ c.toNat := by
  rcases Bool.or_eq_true_iff.1 h with hdigit | hmark
  · have hrange : 48 ≤ c.toNat ∧ c.toNat ≤ 57 := Char.isDigit_iff_toNat.1 hdigit
    omega
  · have hall : ∀ d ∈ ['-', '.', 'e', '+'], 0x20 ≤ d.toNat := by simp
    exact hall c (List.contains_iff_mem.1 hmark)

/-- The characters of numerals stand for themselves. -/
theorem escape_numeral (h : isNumeralChar c = true) : escape c = [c] := by
  have hshort : ∀ d ∈ shortlyEscaped, isNumeralChar d = false := by
    simp [shortlyEscaped, isNumeralChar]
  exact escape_plain (fun hmem => by simp [hshort c hmem] at h) (isNumeralChar_toNat h)

/-- What stands for a character has no opening parenthesis, unless it is the character. -/
theorem not_mem_escape (h : c ≠ '(') : '(' ∉ escape c := by
  by_cases hshort : c ∈ shortlyEscaped
  · have hall : ∀ d ∈ shortlyEscaped, '(' ∉ escape d := by simp [shortlyEscaped, escape]
    exact hall c hshort
  · by_cases hcontrol : c.toNat < 0x20
    · have hhex : ∀ n, '(' ≠ hexDigit n := by
        have hall : ∀ n < 16, '(' ≠ Nat.digitChar n := by decide
        exact fun n => hall (n % 16) (Nat.mod_lt n (by decide))
      simp [escape_control hshort hcontrol, hhex]
    · rw [escape_plain hshort (Nat.not_lt.1 hcontrol)]
      simpa using Ne.symm h

/-- Something stands for every character. -/
theorem escape_ne_nil (c : Char) : escape c ≠ [] := by
  by_cases hshort : c ∈ shortlyEscaped
  · have hall : ∀ d ∈ shortlyEscaped, escape d ≠ [] := by simp [shortlyEscaped, escape]
    exact hall c hshort
  · by_cases hcontrol : c.toNat < 0x20
    · simp [escape_control hshort hcontrol]
    · simp [escape_plain hshort (Nat.not_lt.1 hcontrol)]

end Escapes

/-- The numeral of a number is quoted as it is. -/
theorem quoteChars_number (x : Number) : quoteChars x.chars = '"' :: (x.chars ++ ['"']) := by
  have hplain : x.chars.flatMap escape = x.chars := by
    rw [List.flatMap_congr fun c hc => escape_numeral (x.isNumeralChar_of_mem hc),
      List.flatMap_singleton']
  rw [quoteChars, hplain]

/-! ### The image of a value -/

/-- The decimal of a finite floating point number, which is its shortest one. -/
def shortestDecimal (negative : Bool) (significand : Nat) (exponent : Int) : Decimal :=
  let (digits, power) := Binary64.shortest significand exponent
  let (digits, power) := dropZeros digits power 17
  if digits = 0 then .of negative 0 (-1) else .of negative digits power

theorem chars_shortestDecimal (negative : Bool) (significand : Nat) (exponent : Int) :
    (shortestDecimal negative significand exponent).chars
      = Binary64.numeral numeralStyle negative significand exponent := by
  simp only [shortestDecimal, Binary64.numeral]
  split
  · cases negative <;> rfl
  · rename_i hzero
    exact Decimal.chars_of hzero

/-- The image of a floating point number; one that is not finite has none but null. -/
def floatImage : Binary64 → Datum
  | .finite negative significand exponent =>
    .number (.decimal (shortestDecimal negative significand exponent))
  | _ => .null

/-- The name that a key becomes. -/
def nameOf : Value → Except KeyFault String
  | .string s => .ok s
  | .int n => .ok (String.ofList (Number.int n).chars)
  | .bool b => .ok (Value.boolText b)
  | .float (.finite negative significand exponent) =>
    .ok (String.ofList (shortestDecimal negative significand exponent).chars)
  | .float _ => .error .notFinite
  | _ => .error .notText

mutual

/-- The JSON image of a value, unless a key has none; a tag is the name of what is tagged. -/
def image : Value → Except KeyFault Datum
  | .null => .ok .null
  | .bool b => .ok (.bool b)
  | .int n => .ok (.number (.int n))
  | .float x => .ok (floatImage x)
  | .string s => .ok (.string s)
  | .sequence items => do return .array (← itemImages items)
  | .mapping entries => do return .object (← entryImages entries)
  | .tagged tag value => do return .object [(String.ofList ('!' :: tag.toList), ← image value)]

/-- The images of the items of a sequence. -/
def itemImages : List Value → Except KeyFault (List Datum)
  | [] => .ok []
  | item :: items => do
    let item ← image item
    return item :: (← itemImages items)

/-- The images of the entries of a mapping; of each entry the key comes first. -/
def entryImages : List (Value × Value) → Except KeyFault (List (String × Datum))
  | [] => .ok []
  | (key, value) :: entries => do
    let name ← nameOf key
    let value ← image value
    return (name, value) :: (← entryImages entries)

end

theorem keyChars_eq_nameOf (key : Value) :
    keyChars key = (nameOf key).map fun name => quoteChars name.toList := by
  cases key with
  | null | sequence | mapping | tagged | string => rfl
  | int n =>
    simp only [keyChars, nameOf, Except.map, String.toList_ofList]
    exact congrArg Except.ok (quoteChars_number (.int n)).symm
  | bool b => cases b <;> rfl
  | float x =>
    cases x with
    | nan | infinite => rfl
    | finite negative significand exponent =>
      have hquote := quoteChars_number (.decimal (shortestDecimal negative significand exponent))
      simp only [keyChars, nameOf, Except.map, String.toList_ofList, ← chars_shortestDecimal]
      exact congrArg Except.ok hquote.symm

mutual

/-- **A value is encoded as the text of its image.** -/
theorem chars_eq_image : (value : Value) → chars value = (image value).map Datum.chars
  | .null => rfl
  | .bool b => rfl
  | .int n => rfl
  -- A number that is not finite is written as nothing.
  | .float x => by
    cases x with
    | finite negative significand exponent =>
      exact congrArg Except.ok (chars_shortestDecimal negative significand exponent).symm
    | _ => rfl
  | .string s => rfl
  | .sequence items => by
    rw [chars, image, itemChars_eq_images items]
    cases itemImages items <;> rfl
  | .mapping entries => by
    rw [chars, image, entryChars_eq_images entries]
    cases entryImages entries <;> rfl
  | .tagged tag value => by
    rw [chars, image, chars_eq_image value]
    cases image value with
    | error e => rfl
    | ok d =>
      show Except.ok _ = Except.ok ('{' :: (commaSeparated [_ ++ ':' :: d.chars] ++ ['}']))
      simp only [commaSeparated, String.toList_ofList, List.append_assoc, List.cons_append]

theorem itemChars_eq_images : (items : List Value) →
    itemChars items = (itemImages items).map (Tree.itemChars Empty.elim)
  | [] => rfl
  | item :: items => by
    rw [itemChars, itemImages, chars_eq_image item, itemChars_eq_images items]
    cases image item with
    | error e => rfl
    | ok d => cases itemImages items <;> rfl

theorem entryChars_eq_images : (entries : List (Value × Value)) →
    entryChars entries = (entryImages entries).map (Tree.memberChars Empty.elim)
  | [] => rfl
  | (key, value) :: entries => by
    rw [entryChars, entryImages, keyChars_eq_nameOf key, chars_eq_image value,
      entryChars_eq_images entries]
    cases nameOf key with
    | error e => rfl
    | ok name =>
      cases image value with
      | error e => rfl
      | ok d => cases entryImages entries <;> rfl

end

/-- A value is encoded as its image, if it has one. -/
theorem encode_eq_image (value : Value) : encode value = (image value).map Datum.text := by
  rw [encode, chars_eq_image]
  cases image value <;> rfl

/-- No text of a document ends with an opening parenthesis. -/
theorem Datum.getLast?_chars (d : Datum) : d.chars.getLast? ≠ some '(' := by
  have hclosed : ∀ (first last : Char) (cs : List Char), last ≠ '(' →
      (first :: (cs ++ [last])).getLast? ≠ some '(' := by
    intro first last cs hlast
    rw [← List.cons_append, List.getLast?_concat]
    exact fun h => hlast (Option.some.inj h)
  cases d with
  | null => decide
  | bool b => cases b <;> decide
  | number x =>
    intro hlast
    exact absurd (x.isNumeralChar_of_mem (List.mem_of_getLast? hlast)) (by decide)
  | string | array | object => exact hclosed _ _ _ (by decide)
  | hole h => exact h.elim

/-! ### Control characters -/

/-- No control character below U+0020 is in a row of characters; so it is on one line. -/
def IsUncontrolled (cs : List Char) : Prop := ∀ c ∈ cs, 0x20 ≤ c.toNat

namespace IsUncontrolled

variable {cs ds : List Char}

theorem append (h : IsUncontrolled cs) (h' : IsUncontrolled ds) : IsUncontrolled (cs ++ ds) :=
  fun c hc => (List.mem_append.1 hc).elim (h c) (h' c)

theorem cons {c : Char} (hc : 0x20 ≤ c.toNat) (h : IsUncontrolled cs) : IsUncontrolled (c :: cs) :=
  List.forall_mem_cons.2 ⟨hc, h⟩

/-- Characters may be put around a row. -/
theorem between {first last : Char} (hfirst : 0x20 ≤ first.toNat) (h : IsUncontrolled cs)
    (hlast : 0x20 ≤ last.toNat) : IsUncontrolled (first :: (cs ++ [last])) :=
  cons hfirst (h.append (cons hlast fun _ hc => absurd hc List.not_mem_nil))

theorem newline_not_mem (h : IsUncontrolled cs) : '\n' ∉ cs := fun hmem =>
  absurd (h '\n' hmem) (by decide)

/-- What stands for a character has no control character in it. -/
theorem escape (c : Char) : IsUncontrolled (escape c) := by
  by_cases hshort : c ∈ shortlyEscaped
  · have hall : ∀ d ∈ shortlyEscaped, ∀ e ∈ Json.escape d, 0x20 ≤ e.toNat := by
      simp [shortlyEscaped, Json.escape]
    exact hall c hshort
  · by_cases hcontrol : c.toNat < 0x20
    · have hhex : ∀ n, 0x20 ≤ (hexDigit n).toNat := by
        have hall : ∀ n < 16, 0x20 ≤ (Nat.digitChar n).toNat := by decide
        exact fun n => hall (n % 16) (Nat.mod_lt n (by decide))
      rw [escape_control hshort hcontrol]
      simp [IsUncontrolled, hhex]
    · rw [escape_plain hshort (Nat.not_lt.1 hcontrol)]
      exact cons (Nat.not_lt.1 hcontrol) fun _ hc => absurd hc List.not_mem_nil

/-- A JSON string has none, whatever it writes. -/
theorem quoteChars (cs : List Char) : IsUncontrolled (quoteChars cs) := by
  refine between (by decide) (fun c hc => ?_) (by decide)
  obtain ⟨d, -, hd⟩ := List.mem_flatMap.1 hc
  exact escape d c hd

theorem commaSeparated {texts : List (List Char)} (h : ∀ cs ∈ texts, IsUncontrolled cs) :
    IsUncontrolled (commaSeparated texts) := by
  induction texts with
  | nil => exact fun _ hc => absurd hc List.not_mem_nil
  | cons text texts ih =>
    have hrest := ih fun cs hcs => h cs (List.mem_cons_of_mem text hcs)
    cases texts with
    | nil => exact h text List.mem_cons_self
    | cons next texts => exact (h text List.mem_cons_self).append (cons (by decide) hrest)

end IsUncontrolled

namespace Tree

variable {η : Type} {write : η → List Char}

mutual

/-- **No text of a document has a control character in it**, unless one is written in a hole. -/
theorem isUncontrolled (hwrite : ∀ h, IsUncontrolled (write h)) :
    (t : Tree η) → IsUncontrolled (t.chars write)
  | null => by simp [chars, IsUncontrolled]
  | bool b => by cases b <;> simp [chars, Value.boolText, IsUncontrolled]
  | number x => fun c hc => by
    have hnumeral : c ∈ x.chars := by simpa only [chars] using hc
    exact isNumeralChar_toNat (x.isNumeralChar_of_mem hnumeral)
  | string s => by
    rw [chars]
    exact .quoteChars s.toList
  | array items => by
    rw [chars]
    exact .between (by decide) (.commaSeparated (isUncontrolled_items hwrite items)) (by decide)
  | object members => by
    rw [chars]
    exact .between (by decide) (.commaSeparated (isUncontrolled_members hwrite members)) (by decide)
  | hole h => by
    rw [chars]
    exact hwrite h

theorem isUncontrolled_items (hwrite : ∀ h, IsUncontrolled (write h)) :
    (items : List (Tree η)) → ∀ cs ∈ itemChars write items, IsUncontrolled cs
  | [] => by simp [itemChars]
  | item :: items => by
    rw [itemChars]
    exact List.forall_mem_cons.2 ⟨isUncontrolled hwrite item, isUncontrolled_items hwrite items⟩

theorem isUncontrolled_members (hwrite : ∀ h, IsUncontrolled (write h)) :
    (members : List (String × Tree η)) → ∀ cs ∈ memberChars write members, IsUncontrolled cs
  | [] => by simp [memberChars]
  | (name, value) :: members => by
    rw [memberChars]
    refine List.forall_mem_cons.2 ⟨?_, isUncontrolled_members hwrite members⟩
    exact (IsUncontrolled.quoteChars name.toList).append
      (.cons (by decide) (isUncontrolled hwrite value))

end

end Tree

/-- No text of a document without holes has a control character in it. -/
theorem Datum.isUncontrolled (d : Datum) : IsUncontrolled d.chars :=
  Tree.isUncontrolled (fun h => h.elim) d

end SecretFill.Json
