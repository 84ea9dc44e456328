import SecretFill.Proofs.Rescanning

namespace SecretFill

/-!
# JSON documents with placeholders

A JSON document may have holes where the placeholders of handles stand.  To scan its text is to find
its holes, and to fill the placeholders is to fill the holes, whatever else is written between them.

* `Json.Tree.holes`, `Json.Tree.texts` — the holes and the texts of a document.
* `Json.Tree.fill` — fills the holes with documents.
* `Substitutes` — what the scanner reads of a part of a text, and what is left of this part.
* `Template.exists_row` — the part that a document with holes is.
* `Template.find_text` — the placeholders in its text are its holes.
-/

open Json (Datum Tree quoteChars escape commaSeparated)

/-! ### Documents with holes -/

namespace Json.Tree

variable {η : Type}

mutual

/-- The holes of a document, in order. -/
def holes : Tree η → List η
  | array items => itemHoles items
  | object members => memberHoles members
  | hole h => [h]
  | _ => []

/-- The holes of some items. -/
def itemHoles : List (Tree η) → List η
  | [] => []
  | item :: items => item.holes ++ itemHoles items

/-- The holes of some members. -/
def memberHoles : List (String × Tree η) → List η
  | [] => []
  | (_, value) :: members => value.holes ++ memberHoles members

end

mutual

/-- The strings of a document, the names of members among them. -/
def texts : Tree η → List String
  | string s => [s]
  | array items => itemTexts items
  | object members => memberTexts members
  | _ => []

/-- The strings of some items. -/
def itemTexts : List (Tree η) → List String
  | [] => []
  | item :: items => item.texts ++ itemTexts items

/-- The strings of some members. -/
def memberTexts : List (String × Tree η) → List String
  | [] => []
  | (name, value) :: members => name :: (value.texts ++ memberTexts members)

end

mutual

/-- Fills the holes of a document in order, and gives back what was not needed for them.  Where
    nothing is left to fill a hole with, it is null. -/
def fill : Tree η → List Datum → Datum × List Datum
  | null, values => (.null, values)
  | bool b, values => (.bool b, values)
  | number x, values => (.number x, values)
  | string s, values => (.string s, values)
  | array items, values =>
    let (items, values) := fillItems items values
    (.array items, values)
  | object members, values =>
    let (members, values) := fillMembers members values
    (.object members, values)
  | hole _, [] => (.null, [])
  | hole _, value :: values => (value, values)

/-- Fills the holes of some items. -/
def fillItems : List (Tree η) → List Datum → List Datum × List Datum
  | [], values => ([], values)
  | item :: items, values =>
    let (item, values) := item.fill values
    let (items, values) := fillItems items values
    (item :: items, values)

/-- Fills the holes of some members. -/
def fillMembers : List (String × Tree η) → List Datum → List (String × Datum) × List Datum
  | [], values => ([], values)
  | (name, value) :: members, values =>
    let (value, values) := value.fill values
    let (members, values) := fillMembers members values
    ((name, value) :: members, values)

end

end Json.Tree

/-- A JSON document with handles in its holes. -/
abbrev Template := Json.Tree String

namespace Template

/-- The placeholder of a handle. -/
def placeholder (raw : String) : List Char := '(' :: '(' :: (raw.toList ++ [')', ')'])

/-- The text of a document with a placeholder in each hole. -/
def text (t : Template) : String := String.ofList (t.chars placeholder)

/-- The document in which the holes are filled. -/
def filled (t : Template) (values : List Datum) : Datum := (t.fill values).1

end Template

/-! ### Parts of a text -/

/-- A part of a text is read as a row, whatever stands around it.  It has placeholders for some
    handles, and if these come to some documents, another text is left of it. -/
structure Substitutes (row : List Segment) (raws : List String) (values : List Datum)
    (cs out : List Char) : Prop where
  /-- The row is read where it stands. -/
  closed : Closed row
  /-- Its text is the part. -/
  source_eq : source row = cs
  /-- Its handles are the given ones. -/
  handles_eq : handlesOf row = raws
  /-- There is a document for each. -/
  length_eq : values.length = raws.length
  /-- What is left of the row. -/
  out_eq : source (remainder row (values.map fun d => .ok d.text)) = out

namespace Substitutes

variable {row row' : List Segment} {raws raws' : List String} {values values' : List Datum}
  {cs cs' out out' : List Char}

/-- Text without an opening delimiter is kept. -/
theorem literals (h : Closed (cs.map .literal)) : Substitutes (cs.map .literal) [] [] cs cs :=
  ⟨h, source_literals cs, handlesOf_literals cs, rfl, by simp⟩

/-- So is text without opening parentheses. -/
theorem kept (cs : List Char) (h : '(' ∉ cs) : Substitutes (cs.map .literal) [] [] cs cs :=
  literals (.of_not_mem h)

/-- A placeholder is replaced. -/
theorem hole {raw : String} (h : IsHandle raw.toList) (d : Datum) :
    Substitutes [.placeholder raw.toList] [raw] [d] (Template.placeholder raw) d.chars where
  closed := ⟨h, trivial⟩
  source_eq := source_placeholder raw.toList []
  handles_eq := by simp [handlesOf]
  length_eq := rfl
  out_eq := by simp [remainder, Datum.text]

/-- Parts may stand behind one another. -/
theorem append (h : Substitutes row raws values cs out)
    (h' : Substitutes row' raws' values' cs' out') :
    Substitutes (row ++ row') (raws ++ raws') (values ++ values') (cs ++ cs') (out ++ out') where
  closed := h.closed.append h'.closed
  source_eq := by rw [source_append, h.source_eq, h'.source_eq]
  handles_eq := by rw [handlesOf_append, h.handles_eq, h'.handles_eq]
  length_eq := by rw [List.length_append, List.length_append, h.length_eq, h'.length_eq]
  out_eq := by
    have hlength : (values.map fun d => (.ok d.text : Except Failure String)).length
        = (handlesOf row).length := by
      rw [List.length_map, h.length_eq, h.handles_eq]
    rw [List.map_append, remainder_append hlength, source_append, h.out_eq, h'.out_eq]

/-- Text may stand before and behind a part. -/
theorem between (h : Substitutes row raws values cs out) (first last : List Char)
    (hfirst : '(' ∉ first) (hlast : '(' ∉ last) :
    Substitutes (first.map .literal ++ (row ++ last.map .literal)) raws values
      (first ++ (cs ++ last)) (first ++ (out ++ last)) := by
  have hparts := (kept first hfirst).append (h.append (kept last hlast))
  simpa using hparts

/-- A part may stand before others, with a comma behind it if there are any. -/
theorem comma {texts outs : List (List Char)} (h : Substitutes row raws values cs out)
    (h' : Substitutes row' raws' values' (commaSeparated texts) (commaSeparated outs))
    (hlength : outs.length = texts.length) :
    ∃ row'', Substitutes row'' (raws ++ raws') (values ++ values') (commaSeparated (cs :: texts))
      (commaSeparated (out :: outs)) := by
  match texts, outs, hlength with
  | [], [], _ =>
    have hparts := h.append h'
    simp only [commaSeparated, List.append_nil] at hparts
    exact ⟨_, hparts⟩
  | _ :: _, _ :: _, _ =>
    exact ⟨_, h.append ((kept [','] (by decide)).append h')⟩

end Substitutes

/-! ### The text of a document with holes -/

/-- What is written of a string behind its first quote is closed if no opening delimiter is in the
    string: behind a parenthesis stands the last quote or what stands for another character. -/
theorem closed_escaped {cs : List Char} (h : ¬ ['(', '('] <:+: cs) :
    Closed ((cs.flatMap escape ++ ['"']).map .literal) := by
  induction cs with
  | nil => exact .of_not_mem (by decide)
  | cons c cs ih =>
    have hrest := ih fun hwithin => h (List.infix_cons hwithin)
    by_cases hopen : c = '('
    · subst hopen
      refine ⟨fun _ => ?_, hrest⟩
      cases cs with
      | nil => exact ⟨'"', [], rfl, by decide⟩
      | cons d ds =>
        -- Two parentheses in a row would be an opening delimiter.
        have hd : d ≠ '(' := by
          rintro rfl
          exact h ⟨[], ds, rfl⟩
        obtain ⟨e, es, hescape⟩ := List.exists_cons_of_ne_nil (Json.escape_ne_nil d)
        have hnext : (d :: ds).flatMap escape ++ ['"']
            = e :: (es ++ (ds.flatMap escape ++ ['"'])) := by
          rw [List.flatMap_cons, hescape, List.append_assoc]
          rfl
        refine ⟨e, _, congrArg (List.map Segment.literal) hnext, ?_⟩
        rintro rfl
        exact Json.not_mem_escape hd (hescape ▸ List.mem_cons_self)
    · rw [List.flatMap_cons, List.append_assoc, List.map_append]
      exact (Closed.of_not_mem (Json.not_mem_escape hopen)).append hrest

/-- So strings are closed. -/
theorem closed_quoteChars {cs : List Char} (h : ¬ ['(', '('] <:+: cs) :
    Closed ((quoteChars cs).map .literal) := by
  have hquote : Closed (['"'].map .literal) := .of_not_mem (by decide)
  exact hquote.append (closed_escaped h)

/-- No string has an opening delimiter in it, and every handle can stand between delimiters. -/
structure IsPlain (texts raws : List String) : Prop where
  /-- No placeholder begins in a string. -/
  texts : ∀ s ∈ texts, ¬ ['(', '('] <:+: s.toList
  /-- Every placeholder ends behind its handle. -/
  raws : ∀ raw ∈ raws, IsHandle raw.toList

namespace IsPlain

variable {texts texts' raws raws' : List String}

theorem left (h : IsPlain (texts ++ texts') (raws ++ raws')) : IsPlain texts raws :=
  ⟨fun s hs => h.texts s (List.mem_append_left _ hs),
    fun raw hraw => h.raws raw (List.mem_append_left _ hraw)⟩

theorem right (h : IsPlain (texts ++ texts') (raws ++ raws')) : IsPlain texts' raws' :=
  ⟨fun s hs => h.texts s (List.mem_append_right _ hs),
    fun raw hraw => h.raws raw (List.mem_append_right _ hraw)⟩

theorem tail {s : String} (h : IsPlain (s :: texts) raws) : IsPlain texts raws :=
  ⟨fun s' hs => h.texts s' (List.mem_cons_of_mem s hs), h.raws⟩

end IsPlain

/-- Values for two parts are values for the one and for the other. -/
theorem exists_split {values : List Datum} {raws raws' : List String}
    (h : values.length = (raws ++ raws').length) :
    ∃ vs vs', values = vs ++ vs' ∧ vs.length = raws.length ∧ vs'.length = raws'.length := by
  rw [List.length_append] at h
  refine ⟨values.take raws.length, values.drop raws.length, (List.take_append_drop _ _).symm, ?_,
    ?_⟩
  · rw [List.length_take]
    omega
  · rw [List.length_drop]
    omega

namespace Template

mutual

/-- **A document with holes** is a part of a text: its holes are the placeholders, and what is left
    of it is the document in which they are filled. -/
theorem exists_row : (t : Template) → IsPlain t.texts t.holes → (values : List Datum) →
    values.length = t.holes.length →
    ∃ row d, (∀ rest, t.fill (values ++ rest) = (d, rest)) ∧
      Substitutes row t.holes values (t.chars placeholder) d.chars
  | .null, _, [], _ => ⟨_, .null, fun _ => rfl, .kept _ (by decide)⟩
  | .bool b, _, [], _ => ⟨_, .bool b, fun _ => rfl, .kept _ (by cases b <;> decide)⟩
  | .number x, _, [], _ =>
    ⟨_, .number x, fun _ => rfl, .kept _ fun hopen =>
      absurd (x.isNumeralChar_of_mem hopen) (by decide)⟩
  | .string s, hplain, [], _ =>
    ⟨_, .string s, fun _ => rfl,
      .literals (closed_quoteChars (hplain.texts s List.mem_cons_self))⟩
  | .array items, hplain, values, hlength => by
    obtain ⟨row, ds, -, hfill, hrow⟩ := exists_row_items items hplain values hlength
    refine ⟨_, .array ds, fun rest => ?_,
      hrow.between ['['] [']'] (by decide) (by decide)⟩
    rw [Tree.fill, hfill]
  | .object members, hplain, values, hlength => by
    obtain ⟨row, ds, -, hfill, hrow⟩ := exists_row_members members hplain values hlength
    refine ⟨_, .object ds, fun rest => ?_,
      hrow.between ['{'] ['}'] (by decide) (by decide)⟩
    rw [Tree.fill, hfill]
  | .hole raw, hplain, [d], _ =>
    ⟨_, d, fun _ => rfl, .hole (hplain.raws raw List.mem_cons_self) d⟩

/-- So are items with holes, with the commas between them. -/
theorem exists_row_items : (items : List Template) →
    IsPlain (Tree.itemTexts items) (Tree.itemHoles items) → (values : List Datum) →
    values.length = (Tree.itemHoles items).length →
    ∃ row ds, (Tree.itemChars Empty.elim ds).length = (Tree.itemChars placeholder items).length ∧
      (∀ rest, Tree.fillItems items (values ++ rest) = (ds, rest)) ∧
      Substitutes row (Tree.itemHoles items) values
        (commaSeparated (Tree.itemChars placeholder items))
        (commaSeparated (Tree.itemChars Empty.elim ds))
  | [], _, [], _ => ⟨_, [], rfl, fun _ => rfl, .kept [] (by decide)⟩
  | item :: items, hplain, values, hlength => by
    obtain ⟨vs, vs', rfl, hvs, hvs'⟩ := exists_split hlength
    obtain ⟨row, d, hfill, hrow⟩ := exists_row item hplain.left vs hvs
    obtain ⟨row', ds, hcount, hfill', hrow'⟩ := exists_row_items items hplain.right vs' hvs'
    obtain ⟨row'', hboth⟩ := hrow.comma hrow' hcount
    refine ⟨row'', d :: ds, congrArg (· + 1) hcount, fun rest => ?_, hboth⟩
    rw [Tree.fillItems, List.append_assoc, hfill]
    simp only [hfill']

/-- So are members with holes. -/
theorem exists_row_members : (members : List (String × Template)) →
    IsPlain (Tree.memberTexts members) (Tree.memberHoles members) → (values : List Datum) →
    values.length = (Tree.memberHoles members).length →
    ∃ row ds, (Tree.memberChars Empty.elim ds).length
        = (Tree.memberChars placeholder members).length ∧
      (∀ rest, Tree.fillMembers members (values ++ rest) = (ds, rest)) ∧
      Substitutes row (Tree.memberHoles members) values
        (commaSeparated (Tree.memberChars placeholder members))
        (commaSeparated (Tree.memberChars Empty.elim ds))
  | [], _, [], _ => ⟨_, [], rfl, fun _ => rfl, .kept [] (by decide)⟩
  | (name, value) :: members, hplain, values, hlength => by
    obtain ⟨vs, vs', rfl, hvs, hvs'⟩ := exists_split hlength
    obtain ⟨row, d, hfill, hrow⟩ := exists_row value hplain.tail.left vs hvs
    obtain ⟨row', ds, hcount, hfill', hrow'⟩ :=
      exists_row_members members hplain.tail.right vs' hvs'
    have hname : Substitutes _ [] [] (quoteChars name.toList) (quoteChars name.toList) :=
      .literals (closed_quoteChars (hplain.texts name List.mem_cons_self))
    -- A member is its name, a colon and its value; the names have no holes.
    have hmember := hname.append
      ((Substitutes.kept [':'] (by decide)).append hrow)
    obtain ⟨row'', hboth⟩ := hmember.comma hrow' hcount
    refine ⟨row'', (name, d) :: ds, congrArg (· + 1) hcount, fun rest => ?_, hboth⟩
    rw [Tree.fillMembers, List.append_assoc, hfill]
    simp only [hfill']

end

variable {t : Template}

/-- The scanner reads a document with holes as a row that is left as the document in which they are
    filled. -/
theorem segments_text (h : IsPlain t.texts t.holes) {values : List Datum}
    (hlength : values.length = t.holes.length) :
    handlesOf (segments t.text.toList) = t.holes ∧
      source (remainder (segments t.text.toList) (values.map fun d => .ok d.text))
        = (t.filled values).chars := by
  obtain ⟨row, d, hfill, hrow⟩ := exists_row t h values hlength
  have hsegments : segments t.text.toList = row := by
    rw [text, String.toList_ofList, ← hrow.source_eq, segments_source hrow.closed.readable]
  have hfilled : t.filled values = d := by
    have hend := hfill []
    rw [List.append_nil] at hend
    rw [filled, hend]
  rw [hsegments, hfilled]
  exact ⟨hrow.handles_eq, hrow.out_eq⟩

/-- **The placeholders in the text of a document** are its holes. -/
theorem find_text (h : IsPlain t.texts t.holes) :
    (Placeholder.find t.text).map (·.handle) = t.holes := by
  have hlength : (t.holes.map fun _ => (.null : Datum)).length = t.holes.length := List.length_map _
  rw [← handlesOf_segments]
  exact (segments_text h hlength).1

end Template

end SecretFill
