import SecretFill.Proofs.Notes
import SecretFill.Proofs.Spellings

namespace SecretFill

/-!
# The other lines of a note

A note is typed as a whole before one of its keys is looked up.  So the value on a line matters to the
keys of other lines in one way only: a value that is refused makes the whole note unreadable.  What is
then said is the place of the first fault, and it depends on the lines before and on the length of the
key there.

* `Yaml.lineFault?`, `Yaml.noteFault?` — the first fault of a line and of a note.
* `parse_words` — a note of words is read, or its first fault is reported.
* `extract_other_line` — what another value on a line does to the keys of the other lines.
-/

namespace Yaml

variable {line other : List Char × List Char} {before after lines : List (List Char × List Char)}
variable {row column : Nat}

/-! ### The first fault -/

/-- The column of the fault of a line: the colon behind a key that is too long, or the start of a value
    that is refused. -/
def lineFault? (line : List Char × List Char) : Option Nat :=
  if 1024 < line.1.length then some line.1.length
  else if (plainValue? line.2).isNone then some (line.1.length + 2)
  else none

/-- The row and the column of the first fault of a note. -/
def noteFault? : List (List Char × List Char) → Option (Nat × Nat)
  | [] => none
  | line :: lines =>
    match lineFault? line with
    | some column => some (0, column)
    | none => (noteFault? lines).map fun place => (place.1 + 1, place.2)

theorem lineFault?_eq_none_iff :
    lineFault? line = none ↔ line.1.length ≤ 1024 ∧ ∃ v, plainValue? line.2 = some v := by
  rw [lineFault?]
  split_ifs with hlength hvalue
  · exact iff_of_false (by simp) fun h => Nat.not_le.2 hlength h.1
  · simp only [Option.isNone_iff_eq_none] at hvalue
    simp [hvalue]
  · simp only [Option.isNone_iff_eq_none, ← ne_eq, Option.ne_none_iff_exists'] at hvalue
    simp [Nat.not_lt.1 hlength, hvalue]

/-- A note without a fault has none on any line. -/
theorem noteFault?_eq_none_iff : noteFault? lines = none ↔ ∀ l ∈ lines, lineFault? l = none := by
  induction lines with
  | nil => simp [noteFault?]
  | cons line lines ih =>
    rw [noteFault?, List.forall_mem_cons, ← ih]
    cases lineFault? line <;> simp

/-- Behind sound lines the first fault is that of the next line, -/
theorem noteFault?_of_before (hbefore : ∀ l ∈ before, lineFault? l = none)
    (hline : lineFault? line = some column) :
    noteFault? (before ++ line :: after) = some (before.length, column) := by
  induction before with
  | nil => simp [noteFault?, hline]
  | cons first before ih =>
    obtain ⟨hfirst, hbefore⟩ := List.forall_mem_cons.1 hbefore
    simp [noteFault?, hfirst, ih hbefore]

/-- and every first fault is of this kind. -/
theorem exists_of_noteFault? (h : noteFault? lines = some (row, column)) :
    ∃ before line after, lines = before ++ line :: after ∧ before.length = row ∧
      (∀ l ∈ before, lineFault? l = none) ∧ lineFault? line = some column := by
  induction lines generalizing row with
  | nil => cases h
  | cons first lines ih =>
    rw [noteFault?] at h
    -- The first line is at fault, or the fault is one of the lines behind it, one row further on.
    cases hfirst : lineFault? first with
    | some col =>
      rw [hfirst] at h
      obtain ⟨rfl, rfl⟩ := Prod.mk.inj (Option.some.inj h)
      exact ⟨[], first, lines, rfl, rfl, by simp, hfirst⟩
    | none =>
      rw [hfirst] at h
      obtain ⟨place, hplace, heq⟩ := Option.map_eq_some_iff.1 h
      obtain ⟨rfl, rfl⟩ := Prod.mk.inj heq
      obtain ⟨before, line, after, rfl, hlength, hbefore, hline⟩ := ih hplace
      exact ⟨first :: before, line, after, rfl, by simp [hlength],
        List.forall_mem_cons.2 ⟨hfirst, hbefore⟩, hline⟩

/-- Lines with the same fault may stand for each other. -/
theorem noteFault?_congr (before after : List (List Char × List Char))
    (h : lineFault? line = lineFault? other) :
    noteFault? (before ++ line :: after) = noteFault? (before ++ other :: after) := by
  induction before with
  | nil => simp only [List.nil_append, noteFault?, h]
  | cons first before ih => simp only [List.cons_append, noteFault?, ih]

end Yaml

open Yaml (Value IsWord IsLine IsPair IsRefused Typed Distinct noteChars lineFault? noteFault?)

/-! ### Notes of words -/

/-- A line of a name and a word. -/
structure IsEntry (line : String × String) : Prop where
  /-- The key is a name, -/
  key : IsName line.1
  /-- and the value a word. -/
  value : IsWord line.2.toList

/-- The entries of a note of names and words. -/
def wordEntries (lines : List (String × String)) : List (Value × Value) :=
  lines.map fun line => (.string line.1, (Yaml.plainValue? line.2.toList).getD .null)

variable {line : String × String} {lines before after : List (String × String)}

theorem IsEntry.isPair (h : IsEntry line) : IsPair (fieldChars line) := ⟨h.key.isWord, h.value⟩

/-- A line without a fault is sound, -/
theorem IsEntry.isLine (h : IsEntry line) (hsound : lineFault? (fieldChars line) = none) :
    IsLine (fieldChars line) :=
  ⟨h.key.isWord, h.value, (Yaml.lineFault?_eq_none_iff.1 hsound).1⟩

/-- and its value has a type. -/
theorem IsEntry.typed (h : IsEntry line) (hsound : lineFault? (fieldChars line) = none) :
    Typed (fieldChars line) (.string line.1, (Yaml.plainValue? line.2.toList).getD .null) where
  key := h.key.plainValue?
  value := by
    obtain ⟨v, hv⟩ := (Yaml.lineFault?_eq_none_iff.1 hsound).2
    have hvalue : Yaml.plainValue? line.2.toList = some v := hv
    rw [hvalue]
    exact hv

theorem forall₂_typed (hlines : ∀ line ∈ lines, IsEntry line)
    (hsound : ∀ line ∈ lines, lineFault? (fieldChars line) = none) :
    List.Forall₂ Typed (lines.map fieldChars) (wordEntries lines) := by
  rw [wordEntries, List.forall₂_map_left_iff, List.forall₂_map_right_iff, List.forall₂_same]
  exact fun line hline => (hlines line hline).typed (hsound line hline)

theorem distinct_wordEntries (hkeys : (lines.map (·.1)).Nodup) : Distinct (wordEntries lines) := by
  have hne : lines.Pairwise fun a b => a.1 ≠ b.1 := List.pairwise_map.1 hkeys
  exact List.pairwise_map.2 (hne.imp fun hab => by simpa [Value.same] using hab)

/-- What is said of a note with a fault. -/
def noteFaultText (row column : Nat) : String :=
  s!"invalid YAML at line {row + 1} column {column + 1}"

/-- The first line that is unsound decides what is read. -/
theorem read_of_lineFault? {column : Nat}
    (hlines : ∀ l ∈ before ++ line :: after, IsEntry l)
    (hkeys : ((before ++ line :: after).map (·.1)).Nodup)
    (hbefore : ∀ l ∈ before, lineFault? (fieldChars l) = none)
    (hline : lineFault? (fieldChars line) = some column) :
    ∃ mark, Yaml.read (note (before ++ line :: after)).toList = .error (.here mark) ∧
      mark.line = before.length ∧ mark.column = column := by
  have htext : (note (before ++ line :: after)).toList = noteChars
      (before.map fieldChars ++ fieldChars line :: after.map fieldChars) := by
    rw [toList_note, ← List.map_cons, ← List.map_append]
    rfl
  have hearlier : ∀ l ∈ before, IsEntry l := fun l hl => hlines l (List.mem_append_left _ hl)
  have hentry : IsEntry line := hlines line (by simp)
  have hsound : ∀ l ∈ before.map fieldChars, IsLine l :=
    List.forall_mem_map.2 fun l hl => (hearlier l hl).isLine (hbefore l hl)
  have hafter : ∀ l ∈ after.map fieldChars, IsPair l :=
    List.forall_mem_map.2 fun l hl => (hlines l (by simp [hl])).isPair
  obtain ⟨hfirst, -, hdisjoint⟩ := List.nodup_append.1 (List.map_append ▸ hkeys)
  have htyped := forall₂_typed hearlier hbefore
  have hdistinct := distinct_wordEntries hfirst
  obtain ⟨hrow, hcolumn⟩ := Yaml.Lexer.linesEnd_place (before.map fieldChars) .origin rfl
  rw [htext]
  rw [lineFault?] at hline
  -- The key is too long, or the value is refused; the lines before are read either way.
  split_ifs at hline with hlong hrefused
  · obtain rfl := Option.some.inj hline
    refine ⟨_, Yaml.read_long_key hsound htyped hdistinct hentry.isPair hlong hafter
      hentry.key.plainValue?, ?_, ?_⟩
    · simpa [Yaml.Mark.skip, Yaml.Mark.origin] using hrow
    · simp [Yaml.Mark.skip, hcolumn]
  · obtain rfl := Option.some.inj hline
    have hnew : ∀ e ∈ wordEntries before, e.1.same (.string line.1) = false := by
      intro e he
      obtain ⟨l, hl, rfl⟩ := List.mem_map.1 he
      have hne : l.1 ≠ line.1 := hdisjoint l.1 (List.mem_map.2 ⟨l, hl, rfl⟩) line.1 (by simp)
      simpa [Value.same] using hne
    refine ⟨_, Yaml.read_refused hsound htyped hdistinct
      ⟨hentry.key.isWord, hentry.value, Nat.not_lt.1 hlong⟩ hentry.key.plainValue? hnew
      (Option.isNone_iff_eq_none.1 hrefused) hafter, ?_, ?_⟩
    · simpa [Yaml.Lexer.valueMark, Yaml.Mark.skip, Yaml.Mark.next, Yaml.Mark.origin] using hrow
    · simp [Yaml.Lexer.valueMark, Yaml.Mark.skip, Yaml.Mark.next, hcolumn]

/-- **A note of names and words** is read, or its first fault is reported. -/
theorem parse_words (key : Key) (hlines : ∀ line ∈ lines, IsEntry line)
    (hkeys : (lines.map (·.1)).Nodup) :
    Fragment.parse key (note lines) = match noteFault? (lines.map fieldChars) with
      | some (row, column) =>
        .error (.unreadableFragment key.entry key.field (noteFaultText row column))
      | none => .ok (wordEntries lines) := by
  by_cases hne : lines = []
  · subst hne
    rfl
  cases hfault : noteFault? (lines.map fieldChars) with
  | none =>
    have hsound := List.forall_mem_map.1 (Yaml.noteFault?_eq_none_iff.1 hfault)
    exact parse_of_typed key hne (fun line hline => (hlines line hline).isLine (hsound line hline))
      (forall₂_typed hlines hsound) (distinct_wordEntries hkeys)
  | some place =>
    -- The note is cut at the line of its first fault: what stands behind is not looked at.
    obtain ⟨row, column⟩ := place
    obtain ⟨before, line, after, hcut, rfl, hbefore, hline⟩ := Yaml.exists_of_noteFault? hfault
    obtain ⟨before, behind, rfl, rfl, hbehind⟩ := List.map_eq_append_iff.1 hcut
    obtain ⟨line, after, rfl, rfl, rfl⟩ := List.map_eq_cons_iff.1 hbehind
    have hblank := isAllBlank_note hne fun line hline => (hlines line hline).key.isWord
    obtain ⟨mark, hread, hrow, hcolumn⟩ := read_of_lineFault? hlines hkeys
      (List.forall_mem_map.1 hbefore) hline
    rw [Fragment.parse, hblank, hread, List.length_map, ← hrow, ← hcolumn]
    rfl

/-! ### Another value on a line -/

/-- A key of such a note is found on the first line that has it. -/
theorem lookup_wordEntries (name : String) : Fragment.lookup name (wordEntries lines)
    = (lines.find? (·.1 == name)).map fun line => (Yaml.plainValue? line.2.toList).getD .null := by
  have hnamed : (Fragment.isNamed name ∘ fun line : String × String =>
      ((.string line.1 : Value), (Yaml.plainValue? line.2.toList).getD .null)) = (·.1 == name) := rfl
  have hspelled : (Fragment.isSpelled name ∘ fun line : String × String =>
      ((.string line.1 : Value), (Yaml.plainValue? line.2.toList).getD .null)) = (·.1 == name) := rfl
  rw [Fragment.lookup_eq, wordEntries, List.find?_map, List.find?_map, hnamed, hspelled,
    Option.or_self, Option.map_map]
  rfl

variable {key old new name : String}

/-- So the value on the line of another key does not matter to it. -/
theorem lookup_wordEntries_congr (hname : name ≠ key) :
    Fragment.lookup name (wordEntries (before ++ (key, new) :: after))
      = Fragment.lookup name (wordEntries (before ++ (key, old) :: after)) := by
  have hskip : ∀ value : String,
      ((key, value) :: after).find? (·.1 == name) = after.find? (·.1 == name) := fun value =>
    List.find?_cons_of_neg (by simpa using hname.symm)
  simp only [lookup_wordEntries, List.find?_append, hskip]

/-- A word is refused or typed. -/
theorem isNone_plainValue?_iff (hword : IsWord old.toList) :
    (Yaml.plainValue? old.toList).isNone = true ↔ IsRefused old.toList := by
  rw [Option.isNone_iff_eq_none, (Yaml.plainValue?_word hword).1]

theorem lineFault?_congr (key : String) (hold : IsWord old.toList) (hnew : IsWord new.toList)
    (h : IsRefused old.toList ↔ IsRefused new.toList) :
    lineFault? (fieldChars (key, old)) = lineFault? (fieldChars (key, new)) := by
  rw [← isNone_plainValue?_iff hold, ← isNone_plainValue?_iff hnew, ← Bool.eq_iff_iff] at h
  rw [lineFault?, lineFault?, fieldChars, fieldChars, h]

/-- Another value makes another note of names and words with the same keys. -/
theorem isEntry_replace (before after : List (String × String))
    (hlines : ∀ line ∈ before ++ (key, old) :: after, IsEntry line)
    (hnew : IsWord new.toList) : ∀ line ∈ before ++ (key, new) :: after, IsEntry line := by
  intro line hline
  rcases List.mem_append.1 hline with hline | hline
  · exact hlines line (List.mem_append_left _ hline)
  · rcases List.mem_cons.1 hline with rfl | hline
    · exact ⟨(hlines (key, old) (by simp)).key, hnew⟩
    · exact hlines line (by simp [hline])

/-- **Another value on a line** leaves the keys of the other lines alone, unless one of the two values
    is refused and the other is not.  A value that is refused makes a note unreadable that was read. -/
theorem extract_other_line (entry field : String) (before after : List (String × String))
    (hlines : ∀ line ∈ before ++ (key, old) :: after, IsEntry line) (hnew : IsWord new.toList)
    (hkeys : ((before ++ (key, old) :: after).map (·.1)).Nodup) (hname : name ≠ key) :
    ((IsRefused old.toList ↔ IsRefused new.toList) →
      Fragment.extract ⟨entry, field⟩ (note (before ++ (key, new) :: after)) name
        = Fragment.extract ⟨entry, field⟩ (note (before ++ (key, old) :: after)) name) ∧
    ∀ v, Fragment.extract ⟨entry, field⟩ (note (before ++ (key, old) :: after)) name = .ok v →
      IsRefused new.toList →
        Fragment.extract ⟨entry, field⟩ (note (before ++ (key, new) :: after)) name
          = .error (.unreadableFragment entry field
            s!"invalid YAML at line {before.length + 1} column {key.length + 3}") := by
  have hkeys' : ((before ++ (key, new) :: after).map (·.1)).Nodup := by
    simpa using hkeys
  have hparse := parse_words ⟨entry, field⟩ hlines hkeys
  have hparse' := parse_words ⟨entry, field⟩ (isEntry_replace before after hlines hnew) hkeys'
  rw [List.map_append, List.map_cons] at hparse hparse'
  refine ⟨fun hrefused => ?_, fun v hv hrefused => ?_⟩
  · -- The two notes have their first fault at one place, or none, and then the key is looked up.
    have hold : IsWord old.toList := (hlines (key, old) (by simp)).value
    have hfault := Yaml.noteFault?_congr (before.map fieldChars) (after.map fieldChars)
      (lineFault?_congr key hold hnew hrefused)
    rw [← hfault] at hparse'
    cases hplace : noteFault?
        (before.map fieldChars ++ fieldChars (key, old) :: after.map fieldChars) with
    | none =>
      rw [hplace] at hparse hparse'
      rw [Fragment.extract_of_parse hparse, Fragment.extract_of_parse hparse',
        lookup_wordEntries_congr hname]
    | some place =>
      rw [hplace] at hparse hparse'
      rw [Fragment.extract_of_parse_error hparse, Fragment.extract_of_parse_error hparse']
  · -- The old note has no fault, so the first one in the new note is that of the new value.
    have hsound : noteFault? (before.map fieldChars ++ fieldChars (key, old) :: after.map fieldChars)
        = none := by
      rw [Option.eq_none_iff_forall_ne_some]
      intro place hplace
      rw [hplace] at hparse
      rw [Fragment.extract_of_parse_error hparse] at hv
      cases hv
    have hall := Yaml.noteFault?_eq_none_iff.1 hsound
    have hbefore : ∀ l ∈ before.map fieldChars, lineFault? l = none := fun l hl =>
      hall l (List.mem_append_left _ hl)
    have hlength : key.toList.length ≤ 1024 :=
      (Yaml.lineFault?_eq_none_iff.1 (hall (fieldChars (key, old)) (by simp))).1
    have hline : lineFault? (fieldChars (key, new)) = some (key.toList.length + 2) := by
      simp only [lineFault?, fieldChars, Nat.not_lt.2 hlength, if_false,
        (isNone_plainValue?_iff hnew).2 hrefused, if_true]
    rw [Yaml.noteFault?_of_before hbefore hline, List.length_map] at hparse'
    rw [Fragment.extract_of_parse_error hparse']
    rfl

/-- Two settings, a word and a number. -/
def twoSettings : List (String × String) := [("a", "b"), ("n", "1")]

theorem isEntry_twoSettings : ∀ l ∈ twoSettings, IsEntry l := by
  intro l hl
  simp only [twoSettings, List.mem_cons, List.not_mem_nil, or_false] at hl
  rcases hl with rfl | rfl
  · exact ⟨⟨⟨'a', [], rfl, by decide, by simp⟩, by decide⟩,
      Yaml.isWord_of_isAlphanum (by decide) (by decide)⟩
  · exact ⟨⟨⟨'n', [], rfl, by decide, by simp⟩, by decide⟩,
      Yaml.isWord_of_isAlphanum (by decide) (by decide)⟩

/-- The first of them is read. -/
theorem extract_twoSettings :
    Fragment.extract ⟨"db", "Notes"⟩ (note twoSettings) "a" = .ok (.string "b") :=
  Fragment.extract_of_parse (parse_words ⟨"db", "Notes"⟩ isEntry_twoSettings (by decide))

/-- The number is exchanged for another one, and for one that needs more than 64 bits. -/
theorem extract_other_line_wide :
    let wide := "18446744073709551616"
    (∀ l ∈ [("a", "b")] ++ ("n", "1") :: [], IsEntry l) ∧ IsWord "2".toList ∧ IsWord wide.toList ∧
      (([("a", "b")] ++ ("n", "1") :: []).map (·.1)).Nodup ∧ "a" ≠ "n" ∧
      (IsRefused "1".toList ↔ IsRefused "2".toList) ∧ IsRefused wide.toList ∧
      Fragment.extract ⟨"db", "Notes"⟩ "a: b\nn: 2" "a"
        = Fragment.extract ⟨"db", "Notes"⟩ "a: b\nn: 1" "a" ∧
      Fragment.extract ⟨"db", "Notes"⟩ "a: b\nn: 1" "a" = .ok (.string "b") ∧
      Fragment.extract ⟨"db", "Notes"⟩ "a: b\nn: 18446744073709551616" "a"
        = .error (.unreadableFragment "db" "Notes" "invalid YAML at line 2 column 4") := by
  intro wide
  have hone : IsWord "1".toList := Yaml.isWord_of_isAlphanum (by decide) (by decide)
  have htwo : IsWord "2".toList := Yaml.isWord_of_isAlphanum (by decide) (by decide)
  have hwide : IsWord wide.toList := Yaml.isWord_of_isAlphanum (by decide) (by decide)
  have hneither : IsRefused "1".toList ↔ IsRefused "2".toList := iff_of_false
    (mt (isNone_plainValue?_iff hone).2 (by decide)) (mt (isNone_plainValue?_iff htwo).2 (by decide))
  have hrefused : IsRefused wide.toList := (isNone_plainValue?_iff hwide).1 (by decide +kernel)
  have hname : "a" ≠ "n" := by decide
  have hsmall := extract_other_line "db" "Notes" [("a", "b")] [] isEntry_twoSettings htwo (by decide)
    hname
  have hlarge := extract_other_line "db" "Notes" [("a", "b")] [] isEntry_twoSettings hwide (by decide)
    hname
  exact ⟨isEntry_twoSettings, htwo, hwide, by decide, hname, hneither, hrefused, hsmall.1 hneither,
    extract_twoSettings, hlarge.2 _ extract_twoSettings hrefused⟩

/-- A number that needs more than 64 bits hides the key on the line before it. -/
theorem extract_hidden :
    (∀ l ∈ twoSettings, IsEntry l) ∧
      "18446744073709551616".toList.all Char.isAlphanum = true ∧
      Fragment.extract ⟨"db", "Notes"⟩ "a: b\nn: 1" "a" = .ok (.string "b") ∧
      Fragment.extract ⟨"db", "Notes"⟩ "a: b\nn: 18446744073709551616" "a"
        = .error (.unreadableFragment "db" "Notes" "invalid YAML at line 2 column 4") := by
  have hwide : "18446744073709551616".toList.all Char.isAlphanum = true := by decide
  have hlines := isEntry_replace [("a", "b")] [] isEntry_twoSettings
    (Yaml.isWord_of_isAlphanum (by decide) hwide)
  have hfault : noteFault? ([("a", "b"), ("n", "18446744073709551616")].map fieldChars)
      = some (1, 3) := by decide +kernel
  have hparse := parse_words ⟨"db", "Notes"⟩ hlines (by decide)
  rw [List.cons_append, List.nil_append, hfault] at hparse
  exact ⟨isEntry_twoSettings, hwide, extract_twoSettings, Fragment.extract_of_parse_error hparse⟩

end SecretFill
