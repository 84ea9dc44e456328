import Mathlib.Data.List.Basic
import Mathlib.Data.List.TakeWhile
import SecretFill.Handle

namespace SecretFill

/-!
# The grammar of handles

A handle is `entry/field` or `entry/field/subfield`.  How many separators a text has decides first what
becomes of it, then whether the entry and the field are there.  What is written back is the text that
was read, but for a separator behind which nothing stands.

* `Handle.firstPart`, `Handle.behindFirst` — what stands before the first separator, and behind it.
* `Handle.parse?_eq` — what becomes of a text, by its separators and its parts.
* `Handle.text_of_parse` — what is written back is what was read.
* `Handle.parse_grammar` — the grammar of handles.
-/

namespace Handle

/-! ### The parts of a text -/

/-- What stands before the first separator, or all of a text without one. -/
def firstPart (cs : List Char) : List Char := cs.takeWhile (· ≠ '/')

/-- What stands behind the first separator, or nothing. -/
def behindFirst (cs : List Char) : List Char := (cs.dropWhile (· ≠ '/')).drop 1

/-- How many separators a text has. -/
def separators (cs : List Char) : Nat := cs.count '/'

variable {cs : List Char} {raw : String} {h : Handle}

theorem not_mem_firstPart (cs : List Char) : '/' ∉ firstPart cs := by
  intro hmem
  simpa using List.mem_takeWhile_imp hmem

/-- A text is cut at its first separator. -/
theorem firstPart_append (hmem : '/' ∈ cs) : firstPart cs ++ '/' :: behindFirst cs = cs := by
  induction cs with
  | nil => cases hmem
  | cons c cs ih =>
    by_cases hc : c = '/'
    · simp [firstPart, behindFirst, hc]
    · have hcs : '/' ∈ cs := (List.mem_cons.1 hmem).resolve_left (Ne.symm hc)
      simpa [firstPart, behindFirst, hc] using ih hcs

/-- Without a separator the first part is all there is, -/
theorem firstPart_eq_self (hmem : '/' ∉ cs) : firstPart cs = cs := by
  induction cs with
  | nil => rfl
  | cons c cs ih =>
    rw [List.mem_cons, not_or] at hmem
    simpa [firstPart, Ne.symm hmem.1] using ih hmem.2

/-- and nothing stands behind it. -/
theorem behindFirst_eq_nil (hmem : '/' ∉ cs) : behindFirst cs = [] := by
  induction cs with
  | nil => rfl
  | cons c cs ih =>
    rw [List.mem_cons, not_or] at hmem
    simpa [behindFirst, Ne.symm hmem.1] using ih hmem.2

/-- What stands behind the first separator has all the others. -/
theorem separators_eq (hmem : '/' ∈ cs) : separators cs = separators (behindFirst cs) + 1 := by
  have hcount := congrArg (List.count '/') (firstPart_append hmem)
  rw [List.count_append, List.count_eq_zero.2 (not_mem_firstPart cs), List.count_cons_self,
    Nat.zero_add] at hcount
  exact hcount.symm

theorem separators_eq_zero : separators cs = 0 ↔ '/' ∉ cs := List.count_eq_zero

/-- The components of a text with a separator are the first part and those behind it. -/
theorem components_eq (hmem : '/' ∈ cs) :
    components '/' cs = firstPart cs :: components '/' (behindFirst cs) := by
  have happend := components_append (not_mem_firstPart cs) (behindFirst cs)
  rwa [firstPart_append hmem] at happend

/-! ### Reading -/

/-- An empty text counts as absent. -/
def present (cs : List Char) : Option String := if cs = [] then none else some (String.ofList cs)

theorem build_eq (entry field : List Char) (subfield : Option (List Char)) :
    build entry field subfield =
      if entry = [] then .error .emptyEntry
      else if field = [] then .error .emptyField
      else .ok ⟨String.ofList entry, String.ofList field, subfield.bind present⟩ := by
  have hsubfield : (subfield.filter fun s => !s.isEmpty).map String.ofList = subfield.bind present := by
    cases subfield with
    | none => rfl
    | some s => cases s <;> rfl
  simp [build, hsubfield]

/-- What becomes of a text: the separators are counted first, then the entry has to be there, then the
    field. -/
theorem parse?_eq (raw : String) :
    parse? raw =
      if separators raw.toList = 0 then .error .tooFew
      else if 2 < separators raw.toList then .error .tooMany
      else if firstPart raw.toList = [] then .error .emptyEntry
      else if firstPart (behindFirst raw.toList) = [] then .error .emptyField
      else .ok {
        entry := String.ofList (firstPart raw.toList)
        field := String.ofList (firstPart (behindFirst raw.toList))
        subfield := present (behindFirst (behindFirst raw.toList)) } := by
  rw [parse?]
  generalize raw.toList = cs
  -- The components are taken off in front, so the cases are the separators one after the other.
  by_cases hfirst : '/' ∈ cs
  · rw [components_eq hfirst, separators_eq hfirst]
    by_cases hsecond : '/' ∈ behindFirst cs
    · rw [components_eq hsecond, separators_eq hsecond]
      by_cases hthird : '/' ∈ behindFirst (behindFirst cs)
      · -- What stands behind the third separator has a component, so there are too many.
        obtain ⟨piece, pieces, hrest⟩ :=
          exists_components '/' (behindFirst (behindFirst (behindFirst cs)))
        rw [components_eq hthird, separators_eq hthird, hrest]
        simp
      · rw [components_of_not_mem hthird, separators_eq_zero.2 hthird]
        simp [build_eq]
    · rw [components_of_not_mem hsecond, separators_eq_zero.2 hsecond,
        behindFirst_eq_nil hsecond, firstPart_eq_self hsecond]
      simp [build_eq, present]
  · rw [components_of_not_mem hfirst, separators_eq_zero.2 hfirst]
    rfl

/-- What a text is read as, if it is read. -/
theorem parse_eq_ok_iff : parse raw = .ok h ↔
    (separators raw.toList = 1 ∨ separators raw.toList = 2) ∧ firstPart raw.toList ≠ [] ∧
      firstPart (behindFirst raw.toList) ≠ [] ∧ h = {
        entry := String.ofList (firstPart raw.toList)
        field := String.ofList (firstPart (behindFirst raw.toList))
        subfield := present (behindFirst (behindFirst raw.toList)) } := by
  rw [parse, parse?_eq]
  split_ifs with hnone hmany hentry hfield
  · simp [Except.mapError, hnone]
  · simp only [Except.mapError, reduceCtorEq, false_iff]
    omega
  · simp [Except.mapError, hentry]
  · simp [Except.mapError, hfield]
  · have hcount : separators raw.toList = 1 ∨ separators raw.toList = 2 := by omega
    rw [and_iff_right hcount, and_iff_right hentry, and_iff_right hfield, eq_comm]
    simp [Except.mapError]

/-- Behind the only separator there is no other part. -/
theorem behindFirst_behindFirst (hone : separators cs = 1) : behindFirst (behindFirst cs) = [] := by
  have hfirst : '/' ∈ cs := List.count_pos_iff.1 (by rw [separators] at hone; omega)
  rw [separators_eq hfirst] at hone
  exact behindFirst_eq_nil (separators_eq_zero.1 (by omega))

/-- With at most two separators there is none behind the second. -/
theorem not_mem_third (hcount : separators cs = 1 ∨ separators cs = 2) :
    '/' ∉ behindFirst (behindFirst cs) := by
  intro hthird
  have hsecond : '/' ∈ behindFirst cs := by
    by_contra hnot
    rw [behindFirst_eq_nil hnot] at hthird
    cases hthird
  have hfirst : '/' ∈ cs := by
    by_contra hnot
    rw [behindFirst_eq_nil hnot] at hsecond
    cases hsecond
  have hpos : 0 < separators (behindFirst (behindFirst cs)) := List.count_pos_iff.2 hthird
  rw [separators_eq hfirst, separators_eq hsecond] at hcount
  omega

/-! ### Writing back -/

/-- A text with one or two separators, put together from its parts. -/
theorem parts_append (hcount : separators cs = 1 ∨ separators cs = 2) :
    firstPart cs ++ '/' :: (firstPart (behindFirst cs)
      ++ if separators cs = 2 then '/' :: behindFirst (behindFirst cs) else []) = cs := by
  have hfirst : '/' ∈ cs := by
    by_contra hnot
    rw [separators_eq_zero.2 hnot] at hcount
    omega
  have hrest : firstPart (behindFirst cs)
      ++ (if separators cs = 2 then '/' :: behindFirst (behindFirst cs) else []) = behindFirst cs := by
    rw [separators_eq hfirst] at hcount ⊢
    by_cases hsecond : '/' ∈ behindFirst cs
    · have hone : 0 < separators (behindFirst cs) := List.count_pos_iff.2 hsecond
      rw [if_pos (by omega), firstPart_append hsecond]
    · rw [separators_eq_zero.2 hsecond, firstPart_eq_self hsecond]
      simp
  rw [hrest, firstPart_append hfirst]

/-- The characters of the written form. -/
theorem toList_text (h : Handle) : h.text.toList = h.entry.toList ++ '/' :: (h.field.toList
    ++ h.subfield.elim [] fun subfield => '/' :: subfield.toList) := by
  rw [text]
  cases h.subfield <;> simp [toString]

/-- What is written back is what was read, but for a separator behind which nothing stands. -/
theorem text_of_parse (hparse : parse raw = .ok h) :
    raw = if separators raw.toList = 2 ∧ behindFirst (behindFirst raw.toList) = [] then h.text ++ "/"
      else h.text := by
  obtain ⟨hcount, -, -, rfl⟩ := parse_eq_ok_iff.1 hparse
  have hraw := parts_append hcount
  rw [← String.toList_inj]
  -- A third part is written behind a separator; without one the last separator is lost.
  by_cases hthird : behindFirst (behindFirst raw.toList) = []
  · by_cases htwo : separators raw.toList = 2
    · rw [if_pos ⟨htwo, hthird⟩]
      rw [if_pos htwo, hthird] at hraw
      simpa [toList_text, present, hthird] using hraw.symm
    · rw [if_neg fun h => htwo h.1]
      rw [if_neg htwo] at hraw
      simpa [toList_text, present, hthird] using hraw.symm
  · have htwo : separators raw.toList = 2 :=
      hcount.resolve_left fun hone => hthird (behindFirst_behindFirst hone)
    rw [if_neg fun h => hthird h.2]
    rw [if_pos htwo] at hraw
    simpa [toList_text, present, hthird] using hraw.symm

/-- A component of a handle: a text with no separator in it. -/
structure IsComponent (s : String) : Prop where
  /-- It is not empty. -/
  ne_nil : s.toList ≠ []
  /-- It has no separator. -/
  not_mem : '/' ∉ s.toList

/-- The components of a handle that can be written and read back. -/
structure IsWritable (h : Handle) : Prop where
  /-- The entry, -/
  entry : IsComponent h.entry
  /-- the field, -/
  field : IsComponent h.field
  /-- and the key, if there is one. -/
  subfield : ∀ s ∈ h.subfield, IsComponent s

theorem isWritable_of_parse (hparse : parse raw = .ok h) : h.IsWritable := by
  obtain ⟨hcount, hentry, hfield, rfl⟩ := parse_eq_ok_iff.1 hparse
  refine ⟨⟨by simpa using hentry, ?_⟩, ⟨by simpa using hfield, ?_⟩, fun s hs => ?_⟩
  · simpa using not_mem_firstPart raw.toList
  · simpa using not_mem_firstPart (behindFirst raw.toList)
  · simp only [present] at hs
    split at hs
    · cases hs
    · rename_i hthird
      obtain rfl := Option.some.inj hs
      exact ⟨by simpa using hthird, by simpa using not_mem_third hcount⟩

/-- **A handle that is written is read back.** -/
theorem parse_text (hw : h.IsWritable) : parse h.text = .ok h := by
  obtain ⟨entry, field, subfield⟩ := h
  have hbuild : parse? (text ⟨entry, field, subfield⟩) = .ok ⟨entry, field, subfield⟩ := by
    rw [parse?, toList_text, components_append hw.entry.not_mem]
    cases subfield with
    | none =>
      rw [Option.elim_none, List.append_nil, components_of_not_mem hw.field.not_mem]
      simp [build_eq, hw.entry.ne_nil, hw.field.ne_nil]
    | some s =>
      have hs : IsComponent s := hw.subfield s rfl
      rw [Option.elim_some, components_append hw.field.not_mem, components_of_not_mem hs.not_mem]
      simp [build_eq, hw.entry.ne_nil, hw.field.ne_nil, present, hs.ne_nil]
  rw [parse, hbuild]
  rfl

/-- What is written does not end in a separator. -/
theorem text_ne_append (hw : h.IsWritable) (s : String) : h.text ≠ s ++ "/" := by
  intro heq
  -- It ends in a component, and the last character of a component is no separator.
  obtain ⟨front, last, hlast, hfront⟩ : ∃ front last, IsComponent last ∧
      h.text.toList = front ++ last.toList := by
    cases hsub : h.subfield with
    | none =>
      exact ⟨h.entry.toList ++ ['/'], h.field, hw.field, by simp [toList_text, hsub]⟩
    | some s =>
      exact ⟨h.entry.toList ++ '/' :: (h.field.toList ++ ['/']), s, hw.subfield s hsub,
        by simp [toList_text, hsub]⟩
  have hends : (front ++ last.toList).getLast? = some '/' := by
    rw [← hfront, heq]
    simp
  rw [List.getLast?_append_of_ne_nil _ hlast.ne_nil] at hends
  exact hlast.not_mem (List.mem_of_getLast? hends)

/-- The texts that are read as a handle are its written form and, for a handle without a key, this form
    with a separator behind it. -/
theorem raw_cases (hparse : parse raw = .ok h) : raw = h.text ∨ raw = h.text ++ "/" := by
  have hraw := text_of_parse hparse
  split at hraw
  · exact .inr hraw
  · exact .inl hraw

/-- If a text with a separator behind it is read, so is the text, and alike. -/
theorem parse_of_append {s : String} (hparse : parse (s ++ "/") = .ok h) : parse s = .ok h := by
  have hw := isWritable_of_parse hparse
  rcases raw_cases hparse with hraw | hraw
  · exact absurd hraw.symm (text_ne_append hw s)
  · obtain rfl : s = h.text := by simpa using hraw
    exact parse_text hw

/-- Two texts are read alike iff they differ by such a separator at most. -/
theorem eq_iff_of_parse {raw' : String} {h' : Handle} (hparse : parse raw = .ok h)
    (hparse' : parse raw' = .ok h') : h = h' ↔ raw = raw' ∨ raw = raw' ++ "/" ∨ raw' = raw ++ "/" := by
  constructor
  · rintro rfl
    rcases raw_cases hparse with hraw | hraw <;> rcases raw_cases hparse' with hraw' | hraw' <;>
      simp [hraw, hraw']
  · rintro (rfl | rfl | rfl)
    · exact Except.ok.inj (hparse.symm.trans hparse')
    · exact Except.ok.inj ((parse_of_append hparse).symm.trans hparse')
    · exact Except.ok.inj (hparse.symm.trans (parse_of_append hparse'))

/-- What is said of a text that is refused. -/
theorem reason_of_parse {failure : Failure} (hparse : parse raw = .error failure) :
    failure = .malformedHandle raw
      (if separators raw.toList = 0 then "expected entry/field or entry/field/subfield"
      else if 2 < separators raw.toList then "too many '/' separated components (at most 3)"
      else if firstPart raw.toList = [] then "entry name is empty"
      else "field name is empty") := by
  rw [parse, parse?_eq] at hparse
  split_ifs at hparse ⊢ with hnone hmany hentry hfield
  · exact (Except.error.inj hparse).symm
  · exact (Except.error.inj hparse).symm
  · exact (Except.error.inj hparse).symm
  · exact (Except.error.inj hparse).symm
  · cases hparse

/-- **The grammar of handles.**  A text is read as a handle iff it has one or two separators and
    neither of its first two parts is empty.  The handle has these parts and, unless it is empty, the
    third one; what is written back is the text without a separator behind which nothing stands; this
    is read back, and no other text than these two is read as the handle.  Of a text that is refused
    the reason is said, first by its separators, then by its entry. -/
theorem parse_grammar (raw : String) :
    ((∃ h, parse raw = .ok h) ↔ (separators raw.toList = 1 ∨ separators raw.toList = 2) ∧
      firstPart raw.toList ≠ [] ∧ firstPart (behindFirst raw.toList) ≠ []) ∧
    (∀ h, parse raw = .ok h →
      h.entry.toList = firstPart raw.toList ∧
      h.field.toList = firstPart (behindFirst raw.toList) ∧
      (h.subfield = if behindFirst (behindFirst raw.toList) = [] then none
        else some (String.ofList (behindFirst (behindFirst raw.toList)))) ∧
      (raw = if separators raw.toList = 2 ∧ behindFirst (behindFirst raw.toList) = []
        then h.text ++ "/" else h.text) ∧
      parse h.text = .ok h ∧
      ∀ raw' h', parse raw' = .ok h' →
        (h = h' ↔ raw = raw' ∨ raw = raw' ++ "/" ∨ raw' = raw ++ "/")) ∧
    ∀ failure, parse raw = .error failure →
      failure = .malformedHandle raw
        (if separators raw.toList = 0 then "expected entry/field or entry/field/subfield"
        else if 2 < separators raw.toList then "too many '/' separated components (at most 3)"
        else if firstPart raw.toList = [] then "entry name is empty"
        else "field name is empty") := by
  refine ⟨?_, fun h hparse => ?_, fun failure hparse => reason_of_parse hparse⟩
  · simp only [parse_eq_ok_iff]
    constructor
    · rintro ⟨h, hcount, hentry, hfield, -⟩
      exact ⟨hcount, hentry, hfield⟩
    · rintro ⟨hcount, hentry, hfield⟩
      exact ⟨_, hcount, hentry, hfield, rfl⟩
  · have htext := text_of_parse hparse
    have hback := parse_text (isWritable_of_parse hparse)
    have heq := fun raw' h' (hparse' : parse raw' = .ok h') => eq_iff_of_parse hparse hparse'
    obtain ⟨-, -, -, rfl⟩ := parse_eq_ok_iff.1 hparse
    exact ⟨by simp, by simp, rfl, htext, hback, heq⟩

/-- A text with a separator behind which nothing stands, and one with nothing before the first. -/
theorem parse_grammar_trailing :
    parse "db/Notes/" = .ok ⟨"db", "Notes", none⟩ ∧
      "db/Notes/" = text ⟨"db", "Notes", none⟩ ++ "/" ∧
      parse (text ⟨"db", "Notes", none⟩) = .ok ⟨"db", "Notes", none⟩ ∧
      parse "/Notes" = .error (.malformedHandle "/Notes" "entry name is empty") := by
  have hparse : parse "db/Notes/" = .ok ⟨"db", "Notes", none⟩ := rfl
  have hrefused : parse "/Notes" = .error (.malformedHandle "/Notes" HandleFault.emptyEntry.message) :=
    rfl
  obtain ⟨-, -, -, hraw, hback, -⟩ := (parse_grammar "db/Notes/").2.1 _ hparse
  have hreason := (parse_grammar "/Notes").2.2 _ hrefused
  rw [if_pos (by decide)] at hraw
  rw [if_neg (by decide), if_neg (by decide), if_pos (by decide)] at hreason
  exact ⟨hparse, hraw, hback, hreason ▸ hrefused⟩

end Handle

end SecretFill
