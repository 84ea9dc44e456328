import SecretFill.Proofs.Lookup
import SecretFill.Proofs.Mappings
import SecretFill.Proofs.Scalars

namespace SecretFill

/-!
# Notes

A note has a key and a value on each line, `key: value`.  It is a mapping of the values that its words
have as plain scalars, so a subfield that is a key gives the value on the line of that key.

* `parse_of_typed` — the entries of a note of words.
* `IsName`, `IsNumeral`, `IsField` — names, numerals, and lines of them.
* `note`, `parse_note` — the text of a note, and its entries.
* `render_note` — what the subfields of a note stand for.
-/

open Yaml (Value IsLine IsWord Typed Distinct noteChars)

/-! ### Names and numerals -/

/-- A name: a lowercase letter, then lowercase letters, digits and low lines.  The three names that
    spell a value are none. -/
structure IsName (s : String) : Prop where
  /-- The characters of a name. -/
  shape : ∃ c cs, s.toList = c :: cs ∧ c.isLower = true ∧
    ∀ d ∈ cs, d.isLower = true ∨ d.isDigit = true ∨ d = '_'
  /-- It spells no value. -/
  no_value : s ≠ "null" ∧ s ≠ "true" ∧ s ≠ "false"

/-- A decimal numeral without leading zeros that fits into a word. -/
structure IsNumeral (s : String) : Prop where
  /-- It has digits only. -/
  digits : ∀ d ∈ s.toList, d.isDigit = true
  /-- It is not empty, and a zero is its only digit where it is the first. -/
  whole : Json.isWhole s.toList = true
  /-- It is no more than the greatest word. -/
  le : digitsValue s.toList ≤ 18446744073709551615

/-- A note: on each line a key and its value. -/
def note (lines : List (String × String)) : String :=
  "\n".intercalate (lines.map fun line => line.1 ++ ": " ++ line.2)

variable {s : String} {lines : List (String × String)}

theorem isAlphanum_of_isLower {c : Char} (h : c.isLower = true) : c.isAlphanum = true := by
  show ((c.isUpper || c.isLower) || c.isDigit) = true
  rw [h, Bool.or_true, Bool.true_or]

theorem isAlphanum_of_isDigit {c : Char} (h : c.isDigit = true) : c.isAlphanum = true := by
  simp [Char.isAlphanum, h]

/-- No letter and no digit is white space. -/
theorem isBlank_of_isAlphanum {c : Char} (h : c.isAlphanum = true) : Text.isBlank c = false := by
  have hrange : (0x30 ≤ c.toNat ∧ c.toNat ≤ 0x39) ∨ (0x41 ≤ c.toNat ∧ c.toNat ≤ 0x7A) := by
    rw [Yaml.isAlphanum_iff] at h
    omega
  simp [Text.isBlank]
  omega

/-- A name is a word, -/
theorem IsName.isWord (h : IsName s) : IsWord s.toList := by
  obtain ⟨c, cs, hs, hc, hcs⟩ := h.shape
  refine ⟨⟨c, cs, hs, isAlphanum_of_isLower hc⟩, fun d hd => ?_⟩
  rw [hs] at hd
  rcases List.mem_cons.1 hd with rfl | hd
  · exact Yaml.isWordChar_of_isAlphanum (isAlphanum_of_isLower hc)
  · rcases hcs d hd with hlower | hdigit | rfl
    · exact Yaml.isWordChar_of_isAlphanum (isAlphanum_of_isLower hlower)
    · exact Yaml.isWordChar_of_isAlphanum (isAlphanum_of_isDigit hdigit)
    · decide

/-- and so is a numeral. -/
theorem IsNumeral.isWord (h : IsNumeral s) : IsWord s.toList := by
  have hchars : ∀ d ∈ s.toList, Yaml.isWordChar d = true := fun d hd =>
    Yaml.isWordChar_of_isAlphanum (isAlphanum_of_isDigit (h.digits d hd))
  cases hs : s.toList with
  | nil =>
    have hwhole := h.whole
    rw [hs] at hwhole
    cases hwhole
  | cons d ds =>
    exact ⟨⟨d, ds, rfl, isAlphanum_of_isDigit (h.digits d (hs ▸ List.mem_cons_self))⟩,
      hs ▸ hchars⟩

/-- The value of a word on a line: a numeral is an integer, a name a string. -/
def wordValue (s : String) : Value :=
  if s.toList.all Char.isDigit then .int (digitsValue s.toList) else .string s

theorem IsName.wordValue_eq (h : IsName s) : wordValue s = .string s := by
  obtain ⟨c, cs, hs, hc, -⟩ := h.shape
  have hdigit : c.isDigit = false := Yaml.isDigit_of_isLower hc
  simp [wordValue, hs, hdigit]

theorem IsNumeral.wordValue_eq (h : IsNumeral s) : wordValue s = .int (digitsValue s.toList) := by
  have hall : s.toList.all Char.isDigit = true := List.all_eq_true.2 h.digits
  rw [wordValue, if_pos hall]

theorem IsName.plainValue? (h : IsName s) : Yaml.plainValue? s.toList = some (.string s) := by
  obtain ⟨c, cs, hs, hc, -⟩ := h.shape
  have hne : ∀ {t : String}, s ≠ t → c :: cs ≠ t.toList := fun hst heq =>
    hst (String.ext (hs.trans heq))
  rw [hs, Yaml.plainValue?_lower hc (hne h.no_value.1) (hne h.no_value.2.1) (hne h.no_value.2.2),
    ← hs, String.ofList_toList]

theorem IsNumeral.plainValue? (h : IsNumeral s) :
    Yaml.plainValue? s.toList = some (.int (digitsValue s.toList)) :=
  Yaml.plainValue?_numeral h.digits h.whole (Nat.lt_of_le_of_lt h.le (by decide))

/-! ### The fields of a note -/

/-- The entries of a note. -/
def noteEntries (lines : List (String × String)) : List (Value × Value) :=
  lines.map fun line => (.string line.1, wordValue line.2)

/-- A line of a note has a name and a name or a numeral; the key is not too long. -/
structure IsField (line : String × String) : Prop where
  /-- The key is a name, -/
  key : IsName line.1
  /-- of at most a thousand characters. -/
  length_le : line.1.length ≤ 1000
  /-- The value is a name or a numeral. -/
  value : IsName line.2 ∨ IsNumeral line.2

/-- A note as lines of characters. -/
theorem toList_note : (note lines).toList
    = noteChars (lines.map fun line => (line.1.toList, line.2.toList)) := by
  induction lines with
  | nil => rfl
  | cons line lines ih =>
    cases lines with
    | nil => simp [note, noteChars, Yaml.lineChars]
    | cons next lines =>
      have hnote : note (line :: next :: lines)
          = line.1 ++ ": " ++ line.2 ++ "\n" ++ note (next :: lines) :=
        String.intercalate_cons_of_ne_nil (by simp)
      have hchars : noteChars ((line :: next :: lines).map fun line => (line.1.toList, line.2.toList))
          = Yaml.lineChars (line.1.toList, line.2.toList) ++ '\n' :: noteChars
            ((next :: lines).map fun line => (line.1.toList, line.2.toList)) := rfl
      rw [hnote, hchars, ← ih]
      simp [Yaml.lineChars]

theorem IsField.isLine {line : String × String} (h : IsField line) :
    IsLine (line.1.toList, line.2.toList) where
  key := h.key.isWord
  value := h.value.elim IsName.isWord IsNumeral.isWord
  length_le := by
    have hlength : line.1.toList.length ≤ 1000 := h.length_le
    exact Nat.le_trans hlength (by decide)

theorem IsField.typed {line : String × String} (h : IsField line) :
    Typed (line.1.toList, line.2.toList) (.string line.1, wordValue line.2) where
  key := h.key.plainValue?
  value := by
    rcases h.value with hname | hnumeral
    · rw [hname.wordValue_eq]
      exact hname.plainValue?
    · rw [hnumeral.wordValue_eq]
      exact hnumeral.plainValue?

/-- Different keys are distinct as values. -/
theorem distinct_noteEntries (h : (lines.map (·.1)).Nodup) : Distinct (noteEntries lines) := by
  have hkeys : lines.Pairwise fun a b => a.1 ≠ b.1 := List.pairwise_map.1 h
  exact List.pairwise_map.2 (hkeys.imp fun hab => by simpa [Value.same] using hab)

/-- The key and the value of a line as characters. -/
def fieldChars (line : String × String) : List Char × List Char := (line.1.toList, line.2.toList)

/-- A note of words is not blank. -/
theorem isAllBlank_note (hne : lines ≠ []) (hlines : ∀ line ∈ lines, IsWord line.1.toList) :
    Text.isAllBlank (note lines) = false := by
  obtain ⟨first, rest, rfl⟩ := List.exists_cons_of_ne_nil hne
  obtain ⟨c, cs, hchars, hc⟩ := Yaml.exists_cons_noteChars
    (show IsWord (fieldChars first).1 from hlines first List.mem_cons_self) (rest.map fieldChars)
  have htext : (note (first :: rest)).toList = c :: cs := toList_note.trans hchars
  rw [Text.isAllBlank, htext, List.all_cons, isBlank_of_isAlphanum hc]
  rfl

/-- The entries of a note of words are those that the words are typed as. -/
theorem parse_of_typed {entries : List (Value × Value)} (key : Key) (hne : lines ≠ [])
    (hlines : ∀ line ∈ lines, IsLine (fieldChars line))
    (htyped : List.Forall₂ Typed (lines.map fieldChars) entries) (hdistinct : Distinct entries) :
    Fragment.parse key (note lines) = .ok entries := by
  have hblank := isAllBlank_note hne fun line hline => (hlines line hline).key
  have hread : Yaml.read (note lines).toList = .ok (.mapping entries) := by
    rw [toList_note]
    exact Yaml.read_note (by simpa using hne) (List.forall_mem_map.2 hlines) htyped hdistinct
  rw [Fragment.parse, hblank, hread]
  rfl

/-- **The entries of a note** are its lines, in order. -/
theorem parse_note (key : Key) (hlines : ∀ line ∈ lines, IsField line)
    (hkeys : (lines.map (·.1)).Nodup) :
    Fragment.parse key (note lines) = .ok (noteEntries lines) := by
  by_cases hne : lines = []
  · subst hne
    rfl
  · refine parse_of_typed key hne (fun line hline => (hlines line hline).isLine) ?_
      (distinct_noteEntries hkeys)
    rw [noteEntries, List.forall₂_map_left_iff, List.forall₂_map_right_iff, List.forall₂_same]
    exact fun line hline => (hlines line hline).typed

/-- A numeral is the JSON text of the number that it writes. -/
theorem IsNumeral.encode (h : IsNumeral s) : Json.encode (.int (digitsValue s.toList)) = .ok s := by
  have hchars : Json.intChars (digitsValue s.toList) = s.toList := by
    simp only [Json.intChars, Int.natAbs_natCast]
    rw [if_neg (by omega), decimalDigits_digitsValue h.digits h.whole]
    rfl
  simp [Json.encode, Json.chars, hchars, Except.map]

/-- **A note resolves line by line**: a subfield that is a key on a line gives the value there, a name
    as a JSON string and a numeral as it is, and any other subfield is reported missing. -/
theorem render_note (entry field : String) (lines : List (String × String))
    (hlines : ∀ line ∈ lines, IsField line) (hkeys : (lines.map (·.1)).Nodup) :
    (∀ line ∈ lines,
      (IsName line.2 → render ⟨entry, field, some line.1⟩ (note lines) = .ok (Json.quote line.2)) ∧
      (IsNumeral line.2 → render ⟨entry, field, some line.1⟩ (note lines) = .ok line.2)) ∧
    ∀ name, name ∉ lines.map (·.1) →
      render ⟨entry, field, some name⟩ (note lines) = .error (.missingKey entry field name) := by
  -- The note is a mapping with its lines as entries, so the subfield is looked up among them.
  have hextract : ∀ name, Fragment.extract ⟨entry, field⟩ (note lines) name
      = (Fragment.lookup name (noteEntries lines)).elim (.error (.missingKey entry field name))
          .ok :=
    fun name => Fragment.extract_of_parse (parse_note _ hlines hkeys)
  have hfound : ∀ line ∈ lines, render ⟨entry, field, some line.1⟩ (note lines)
      = encodeValue ⟨entry, field, some line.1⟩ (wordValue line.2) := by
    intro line hline
    have hlookup : Fragment.lookup line.1 (noteEntries lines) = some (wordValue line.2) :=
      Fragment.lookup_of_string (Fragment.strings_of_distinct (distinct_noteEntries hkeys))
        (List.mem_map.2 ⟨line, hline, rfl⟩)
    simp only [render, Handle.key, hextract, hlookup]
    rfl
  refine ⟨fun line hline => ⟨fun hname => ?_, fun hnumeral => ?_⟩, fun name hname => ?_⟩
  · rw [hfound line hline, hname.wordValue_eq]
    rfl
  · rw [hfound line hline, hnumeral.wordValue_eq, encodeValue, hnumeral.encode]
    rfl
  · have hlookup : Fragment.lookup name (noteEntries lines) = none := by
      rw [Fragment.lookup_eq_none_iff]
      intro k v hkv
      obtain ⟨line, hline, hentry⟩ := List.mem_map.1 hkv
      obtain ⟨rfl, rfl⟩ := Prod.mk.inj hentry
      refine ⟨?_, fun h => by cases h⟩
      intro heq
      exact hname (List.mem_map.2 ⟨line, hline, Value.string.inj heq⟩)
    simp only [render, Handle.key, hextract, hlookup]
    rfl

/-- A note of three settings. -/
theorem render_note_settings :
    let lines := [("user", "alice"), ("port", "5432"), ("max_2", "0")]
    (∀ line ∈ lines, IsField line) ∧ (lines.map (·.1)).Nodup ∧
      note lines = "user: alice\nport: 5432\nmax_2: 0" ∧
      render ⟨"db", "Notes", some "user"⟩ (note lines) = .ok "\"alice\"" ∧
      render ⟨"db", "Notes", some "port"⟩ (note lines) = .ok "5432" ∧
      render ⟨"db", "Notes", some "max_2"⟩ (note lines) = .ok "0" ∧
      render ⟨"db", "Notes", some "alice"⟩ (note lines)
        = .error (.missingKey "db" "Notes" "alice") := by
  intro lines
  have halice : IsName "alice" :=
    ⟨⟨'a', "lice".toList, rfl, by decide, List.all_iff_forall_prop.1 (by decide)⟩, by decide⟩
  have hport : IsNumeral "5432" := ⟨List.all_eq_true.1 (by decide), by decide, by decide⟩
  have hzero : IsNumeral "0" := ⟨List.all_eq_true.1 (by decide), by decide, by decide⟩
  have hlines : ∀ line ∈ lines, IsField line := by
    intro line hline
    simp only [lines, List.mem_cons, List.not_mem_nil, or_false] at hline
    rcases hline with rfl | rfl | rfl
    · exact ⟨⟨⟨'u', "ser".toList, rfl, by decide, List.all_iff_forall_prop.1 (by decide)⟩, by decide⟩,
        by decide, .inl halice⟩
    · exact ⟨⟨⟨'p', "ort".toList, rfl, by decide, List.all_iff_forall_prop.1 (by decide)⟩, by decide⟩,
        by decide, .inr hport⟩
    · exact ⟨⟨⟨'m', "ax_2".toList, rfl, by decide, List.all_iff_forall_prop.1 (by decide)⟩, by decide⟩,
        by decide, .inr hzero⟩
  have hkeys : (lines.map (·.1)).Nodup := by decide
  have hrender := render_note "db" "Notes" lines hlines hkeys
  exact ⟨hlines, hkeys, by decide, (hrender.1 ("user", "alice") (by simp [lines])).1 halice,
    (hrender.1 ("port", "5432") (by simp [lines])).2 hport,
    (hrender.1 ("max_2", "0") (by simp [lines])).2 hzero, hrender.2 "alice" (by decide)⟩

end SecretFill
