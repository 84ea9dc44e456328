import SecretFill.Proofs.PlainLines

namespace SecretFill.Toml

/-!
# Plain documents

A document of plain lines is read as these say.  What lines give stays in the table whatever follows
them, and a broken line spoils the document.

* `read?_source` — a plain document has the keys of its lines with their values; if a key stands
  twice, it is no document.
* `exists_of_read?_written` — what lines give stays, whatever follows them.
* `IsBroken` — a line that has no key, no value, no end or too much; `read?_of_broken` — it spoils the
  document.
-/

/-! ### Documents -/

section Documents

variable {lines : List Line} {last : Line} {cs : List Char}

/-- No line begins with a byte order mark. -/
theorem head?_line (line : Line) {stop next : List Char} (h : Follows stop next) :
    (line.chars ++ stop).head? ≠ some '\uFEFF' := by
  have hnone : ∀ c, (line.chars ++ stop).head? = some c → c ≠ '\uFEFF' := by
    have hending : ∀ c, (line.ending ++ stop).head? = some c → c ≠ '\uFEFF' := by
      unfold Line.ending
      rw [List.append_assoc]
      refine head?_gap line.trail (by decide) (by decide) fun c hc => ?_
      cases hcomment : line.comment? with
      | none =>
        rw [hcomment] at hc
        cases h with
        | last => cases hc
        | others => exact Option.some.inj hc ▸ by decide
      | some comment =>
        rw [hcomment] at hc
        exact Option.some.inj hc ▸ by decide
    unfold Line.chars
    rw [List.append_assoc]
    refine head?_gap line.indent (by decide) (by decide) ?_
    cases line.assignment? with
    | none => exact hending
    | some a =>
      obtain ⟨c, name, hname⟩ := List.exists_cons_of_ne_nil a.bare.1
      intro d hd
      have hc : isKeyCharacter c = true := a.bare.2 c (by simp [hname])
      obtain rfl : c = d := by
        simpa [Assignment.chars, hname] using hd
      rintro rfl
      exact absurd hc (by decide)
  exact fun hmark => hnone _ hmark rfl

/-- A text without a byte order mark is read line by line. -/
theorem read?_of_head? (h : cs.head? ≠ some '\uFEFF') :
    read? (String.ofList cs) = (readLines (cs.length + 1) ⟨[], []⟩ cs).map Draft.root := by
  unfold read?
  rw [String.toList_ofList]
  simp only [if_neg h]

/-- Lines keep a byte order mark away from the beginning. -/
theorem head?_written (hmark : lines = [] → cs.head? ≠ some '\uFEFF') :
    (written lines ++ cs).head? ≠ some '\uFEFF' := by
  cases lines with
  | nil => exact hmark rfl
  | cons line lines =>
    have hwritten : written (line :: lines) ++ cs
        = line.chars ++ '\n' :: (written lines ++ cs) := by
      simp [written]
    rw [hwritten]
    exact head?_line line (.others _)

/-- The lines with which a document begins are read into an empty table. -/
theorem read?_written (hmark : lines = [] → cs.head? ≠ some '\uFEFF') :
    ((namesOf (givenBy lines)).Nodup → ∃ fuel entries, cs.length < fuel ∧
      Gives (givenBy lines) entries ∧ read? (String.ofList (written lines ++ cs))
        = (readLines fuel ⟨entries, []⟩ cs).map Draft.root) ∧
    (¬ (namesOf (givenBy lines)).Nodup → read? (String.ofList (written lines ++ cs)) = none) := by
  have hreads := reads_written lines (Nat.lt_succ_self (written lines ++ cs).length) []
  rw [read?_of_head? (head?_written hmark)]
  refine ⟨fun hnodup => ?_, fun htwice => ?_⟩
  · obtain ⟨fuel, entries, hfuel, hgives, hread⟩ := hreads.1 hnodup
    exact ⟨fuel, entries, hfuel, hgives, congrArg (Option.map Draft.root) hread⟩
  · exact congrArg (Option.map Draft.root) (hreads.2 htwice .nil)

/-- **A plain document** is read as its lines say; if a key stands twice, it is no document. -/
theorem read?_source (lines : List Line) (last : Line) :
    ((namesOf (givenBy (lines ++ [last]))).Nodup → ∃ entries,
      Gives (givenBy (lines ++ [last])) entries ∧
      read? (String.ofList (source lines last)) = some entries) ∧
    (¬ (namesOf (givenBy (lines ++ [last]))).Nodup →
      read? (String.ofList (source lines last)) = none) := by
  have hlast : last.chars ++ [] = last.chars := List.append_nil _
  have hhead : (source lines last).head? ≠ some '\uFEFF' :=
    head?_written fun _ => hlast ▸ head?_line last .last
  have hreads : Reads (givenBy (lines ++ [last])) ((source lines last).length + 1) []
      (source lines last) [] := by
    rw [givenBy_append]
    refine (reads_written lines (Nat.lt_succ_self _) []).trans fun fuel root hfuel => ?_
    have hline := reads_line last .last (hlast.symm ▸ hfuel) root
    rwa [hlast] at hline
  rw [read?_of_head? hhead]
  refine ⟨fun hnodup => ?_, fun htwice => congrArg (Option.map Draft.root) (hreads.2 htwice .nil)⟩
  obtain ⟨fuel, entries, hfuel, hgives, hread⟩ := hreads.1 hnodup
  obtain ⟨fuel, rfl⟩ := Nat.exists_eq_succ_of_ne_zero (Nat.ne_zero_of_lt hfuel)
  exact ⟨entries, hgives, congrArg (Option.map Draft.root) hread⟩

/-- No path leads into a plain value. -/
theorem Literal.isLeaf_value (l : Literal) (span : Span) : Entries.IsLeaf (l.value span) := by
  cases l <;> exact trivial

/-- **What lines give stays** in the table of a document, whatever follows them. -/
theorem exists_of_read?_written (hmark : lines = [] → cs.head? ≠ some '\uFEFF') {entries : Entries}
    (h : read? (String.ofList (written lines ++ cs)) = some entries) :
    (namesOf (givenBy lines)).Nodup ∧ ∀ given ∈ givenBy lines, ∃ entry ∈ entries,
      entry.1.text = given.1 ∧ ∃ span, entry.2 = given.2.value span := by
  by_cases hnodup : (namesOf (givenBy lines)).Nodup
  · obtain ⟨fuel, first, -, hgives, hread⟩ := (read?_written hmark).1 hnodup
    rw [hread] at h
    obtain ⟨d, hd, rfl⟩ := Option.map_eq_some_iff.1 h
    have hdistinct : Entries.Distinct first := by
      unfold Entries.Distinct
      rwa [hgives.names_eq]
    refine ⟨hnodup, fun given hgiven => ?_⟩
    obtain ⟨entry, hentry, hname, span, hvalue⟩ := hgives.exists_entry hgiven
    have hleaf : Entries.IsLeaf entry.2 := hvalue ▸ given.2.isLeaf_value span
    exact ⟨entry, ((Stable.mem hleaf).of_readLines ⟨hdistinct, hentry⟩ hd).2, hname, span, hvalue⟩
  · rw [(read?_written hmark).2 hnodup] at h
    cases h

end Documents

/-! ### Broken lines -/

/-- A line begins here that is neither an entry nor a header, whatever follows it. -/
inductive IsBroken : List Char → Prop where
  /-- No key can begin so. -/
  | noKey {c : Char} {cs : List Char} (other : isKeyCharacter c = false ∧ isGap c = false)
    (mark : c ∉ ['\n', '\r', '#', '[', '"', '\'', '\uFEFF']) : IsBroken (c :: cs)
  /-- A key, and no sign behind it. -/
  | noSign {name : String} {rest : List Char}
    (bare : IsBareKey name) (ends : EndsKey rest)
    (sign : ∀ c, (skipGap rest).head? = some c → c ≠ '=' ∧ c ≠ '.') : IsBroken (name.toList ++ rest)
  /-- A sign, and no value behind it. -/
  | noValue {name : String} {rest : List Char}
    (bare : IsBareKey name) (before behind : Gap)
    (value : ∀ c, rest.head? = some c → c = '\n' ∨ c = '#') :
    IsBroken (name.toList ++ (before.chars ++ '=' :: (behind.chars ++ rest)))
  /-- A quote that is not closed in its line. -/
  | noQuote {name : String} {quote : Char} {text stop next : List Char}
    (bare : IsBareKey name) (before behind : Gap)
    (begins : quote = '"' ∨ quote = '\'') (opened : ∀ c ∈ text, c ≠ quote ∧ c ≠ '\\')
    (follows : Follows stop next) :
    IsBroken (name.toList ++ (before.chars ++ '=' :: (behind.chars ++ quote :: (text ++ stop))))
  /-- Something behind the value. -/
  | surplus {c : Char} {cs : List Char} (a : Assignment) (trail : Gap)
    (ends : EndsValue (trail.chars ++ c :: cs)) (other : isGap c = false)
    (mark : c ∉ ['\n', '\r', '#']) : IsBroken (a.chars ++ (trail.chars ++ c :: cs))
  /-- A header whose bracket is not closed. -/
  | noBracket {name : String} {rest : List Char} (indent : Gap)
    (bare : IsBareKey name) (ends : EndsKey rest)
    (bracket : ∀ c, (skipGap rest).head? = some c → c ≠ ']' ∧ c ≠ '.') :
    IsBroken ('[' :: (indent.chars ++ (name.toList ++ rest)))

section Broken

variable {cs : List Char} {d : Draft}

theorem basicFrom_open {text stop next : List Char} (htext : ∀ c ∈ text, c ≠ '"' ∧ c ≠ '\\')
    (h : Follows stop next) (fuel : Nat) : basicFrom fuel (text ++ stop) = none := by
  induction text generalizing fuel with
  | nil => cases h <;> cases fuel <;> rfl
  | cons c text ih =>
    obtain ⟨hc, hback⟩ := htext c List.mem_cons_self
    cases fuel with
    | zero => rfl
    | succ fuel => simp [basicFrom, hc, hback, ih fun d hd => htext d (List.mem_cons_of_mem c hd)]

theorem literal_open {text stop next : List Char} (htext : ∀ c ∈ text, c ≠ '\'')
    (h : Follows stop next) : literal (text ++ stop) = none := by
  induction text with
  | nil => cases h <;> rfl
  | cons c text ih =>
    simp [literal, htext c List.mem_cons_self, ih fun d hd => htext d (List.mem_cons_of_mem c hd)]

/-- What is not closed in its line is no string. -/
theorem readString_open {quote : Char} {text stop next : List Char}
    (hquote : quote = '"' ∨ quote = '\'') (htext : ∀ c ∈ text, c ≠ quote ∧ c ≠ '\\')
    (h : Follows stop next) : readString (quote :: (text ++ stop)) = none := by
  -- Two more quotes would open a string over many lines.
  have hblock : ∀ tail, text ++ stop ≠ quote :: quote :: tail := by
    intro tail heq
    cases text with
    | nil =>
      cases h with
      | last => cases heq
      | others =>
        obtain ⟨rfl, -⟩ := List.cons.inj heq
        exact absurd hquote (by decide)
    | cons c text => exact (htext c List.mem_cons_self).1 (List.cons.inj heq).1
  rcases hquote with rfl | rfl
  · rw [Literal.readString_one.1 hblock]
    exact basicFrom_open htext h _
  · rw [Literal.readString_one.2 hblock]
    exact literal_open (fun c hc => (htext c hc).1) h

/-- Where nothing stands no value is read. -/
theorem readValue_missing (h : ∀ c, cs.head? = some c → c = '\n' ∨ c = '#') (depth : Nat) :
    readValue depth cs = none := by
  cases cs with
  | nil =>
    unfold readValue
    rfl
  | cons c cs =>
    have hempty : ∀ span, scalar? span [] = none := fun _ => rfl
    rcases h c rfl with rfl | rfl
    · have hsplit : splitScalar ('\n' :: cs) = ([], '\n' :: cs) := by
        simp [splitScalar, isScalarCharacter]
      unfold readValue
      simp [hsplit, hempty]
    · have hsplit : splitScalar ('#' :: cs) = ([], '#' :: cs) := by
        simp [splitScalar, isScalarCharacter]
      unfold readValue
      simp [hsplit, hempty]

/-- A text that is not read as an entry is no line. -/
theorem readLineEntry_of_none (h : readEntry (readValue maxDepth) cs = none) :
    readLineEntry d cs = none := by
  unfold readLineEntry
  rw [h]
  rfl

/-- No bare key begins with a blank, -/
theorem skipGap_bare {name : String} {rest : List Char}
    (h : IsBareKey name) :
    skipGap (name.toList ++ rest) = name.toList ++ rest := by
  obtain ⟨c, cs, hcs⟩ := List.exists_cons_of_ne_nil h.1
  rw [hcs]
  exact skipGap_cons (isGap_of_isKeyCharacter (h.2 c (by simp [hcs]))) _

/-- nor with a bracket. -/
theorem ne_of_bare {name : String} {rest tail : List Char}
    (h : IsBareKey name) :
    '[' :: tail ≠ name.toList ++ rest := by
  intro heq
  obtain ⟨c, cs, hcs⟩ := List.exists_cons_of_ne_nil h.1
  rw [hcs] at heq
  obtain ⟨rfl, -⟩ := List.cons.inj heq
  exact absurd (h.2 '[' (by simp [hcs])) (by decide)

/-- Without a key there is no entry, -/
theorem readEntry_noKey {c : Char} (other : isKeyCharacter c = false) (hbasic : c ≠ '"')
    (hliteral : c ≠ '\'') (rest : List Char) : readEntry (readValue maxDepth) (c :: rest) = none := by
  have hkey : readKey (c :: rest) = none := by
    rw [readKey.eq_3 _ (fun tail heq => absurd (List.cons.inj heq).1 hbasic)
      fun tail heq => absurd (List.cons.inj heq).1 hliteral]
    simp [other]
  unfold readEntry readPath readPathFrom
  rw [hkey]
  rfl

/-- nor without a sign behind the key, -/
theorem readEntry_noSign {name : String} {rest : List Char} (bare : IsBareKey name)
    (ends : EndsKey rest) (sign : ∀ c, (skipGap rest).head? = some c → c ≠ '=' ∧ c ≠ '.') :
    readEntry (readValue maxDepth) (name.toList ++ rest) = none := by
  obtain ⟨span, hpath⟩ := readPath_bare bare ends fun hdot => (sign '.' hdot).2 rfl
  unfold readEntry
  rw [hpath]
  simp only [Option.bind_eq_bind, Option.bind_some]
  split
  · rename_i heq
    obtain ⟨-, htail⟩ := Prod.mk.inj heq
    exact absurd rfl (sign '=' (by rw [htail]; rfl)).1
  · rfl

/-- nor without a value behind the sign, -/
theorem readEntry_noValue {name : String} {rest : List Char} (bare : IsBareKey name)
    (before behind : Gap) (value : ∀ c, rest.head? = some c → c = '\n' ∨ c = '#') :
    readEntry (readValue maxDepth)
      (name.toList ++ (before.chars ++ '=' :: (behind.chars ++ rest))) = none := by
  have hrest : skipGap rest = rest := by
    cases rest with
    | nil => rfl
    | cons c rest => rcases value c rfl with rfl | rfl <;> rfl
  obtain ⟨span, hentry⟩ := readEntry_bare bare (readValue maxDepth) before behind hrest
  rw [hentry, readValue_missing value]
  rfl

/-- nor with a string that is not closed. -/
theorem readEntry_noQuote {name : String} {quote : Char} {text stop next : List Char}
    (bare : IsBareKey name) (before behind : Gap) (begins : quote = '"' ∨ quote = '\'')
    (opened : ∀ c ∈ text, c ≠ quote ∧ c ≠ '\\') (follows : Follows stop next) :
    readEntry (readValue maxDepth)
      (name.toList ++ (before.chars ++ '=' :: (behind.chars ++ quote :: (text ++ stop)))) = none := by
  have hrest : skipGap (quote :: (text ++ stop)) = quote :: (text ++ stop) := by
    rcases begins with rfl | rfl <;> rfl
  obtain ⟨span, hentry⟩ := readEntry_bare bare (readValue maxDepth) before behind hrest
  rw [hentry, Literal.readValue_string begins, readString_open begins opened follows]
  rfl

/-- Behind a value the line does not end where something else stands. -/
theorem endLine?_surplus {c : Char} {rest : List Char} (trail : Gap) (other : isGap c = false)
    (mark : c ∉ ['\n', '\r', '#']) : endLine? (trail.chars ++ c :: rest) = none := by
  simp only [List.mem_cons, List.not_mem_nil, or_false, not_or] at mark
  obtain ⟨hfeed, hreturn, hcomment⟩ := mark
  unfold endLine?
  rw [skipGap_gap, skipGap_cons other]
  simp [hcomment, lineBreak?, hfeed, hreturn]

namespace IsBroken

/-- A broken line begins with a character that is not passed over. -/
theorem exists_head (h : IsBroken cs) : ∃ c rest, cs = c :: rest ∧ c ≠ '\uFEFF' ∧
    skipFill false cs = some cs := by
  have hkey : ∀ {name : String} {rest : List Char},
      IsBareKey name →
      ∃ c rest', name.toList ++ rest = c :: rest' ∧ c ≠ '\uFEFF' ∧
        skipFill false (name.toList ++ rest) = some (name.toList ++ rest) := by
    rintro name rest ⟨hne, hword⟩
    obtain ⟨c, cs, hcs⟩ := List.exists_cons_of_ne_nil hne
    have hc : isKeyCharacter c = true := hword c (by simp [hcs])
    rw [hcs]
    refine ⟨c, cs ++ rest, rfl, ?_, skipFill_text hc _⟩
    rintro rfl
    exact absurd hc (by decide)
  cases h with
  | @noKey c cs other mark =>
    simp only [List.mem_cons, List.not_mem_nil, or_false, not_or] at mark
    obtain ⟨hfeed, hreturn, hcomment, -, -, -, hmark⟩ := mark
    refine ⟨c, cs, rfl, hmark, ?_⟩
    rw [skipFill.eq_4 false c _ hfeed fun _ hr => absurd hr hreturn]
    simp [other.2, hcomment]
  | noSign bare => exact hkey bare
  | noValue bare => exact hkey bare
  | noQuote bare => exact hkey bare
  | @surplus c cs a trail =>
    have hchars : a.chars ++ (trail.chars ++ c :: cs) = a.name.toList ++ (a.before.chars ++ '=' ::
        (a.behind.chars ++ a.value.chars) ++ (trail.chars ++ c :: cs)) := by
      simp [Assignment.chars]
    rw [hchars]
    exact hkey a.bare
  | noBracket => exact ⟨'[', _, rfl, by decide, rfl⟩

/-- A bracket that is not closed makes no header. -/
theorem readHeader_eq_none {rest : List Char} (h : IsBroken ('[' :: rest)) (d : Draft) :
    readHeader d ('[' :: rest) rest = none := by
  generalize hcs : '[' :: rest = cs at h
  cases h with
  | noKey other mark =>
    obtain ⟨rfl, -⟩ := List.cons.inj hcs
    exact absurd mark (by decide)
  | noSign bare => exact absurd hcs (ne_of_bare bare)
  | noValue bare => exact absurd hcs (ne_of_bare bare)
  | noQuote bare => exact absurd hcs (ne_of_bare bare)
  | surplus a =>
    rw [Assignment.chars, List.append_assoc] at hcs
    exact absurd hcs (ne_of_bare a.bare)
  | @noBracket name tail indent bare ends bracket =>
    obtain ⟨-, rfl⟩ := List.cons.inj hcs
    have hname : skipGap (indent.chars ++ (name.toList ++ tail)) = name.toList ++ tail := by
      rw [skipGap_gap, skipGap_bare bare]
    have hother : ∀ c, (indent.chars ++ (name.toList ++ tail)).head? = some c → c ≠ '[' := by
      refine head?_gap indent (by decide) (by decide) fun c hc => ?_
      rintro rfl
      obtain ⟨rest, hrest⟩ := List.head?_eq_some_iff.1 hc
      exact ne_of_bare bare hrest.symm
    obtain ⟨span, hpath⟩ := readPath_bare bare ends fun hdot => (bracket '.' hdot).2 rfl
    unfold readHeader
    split
    · rename_i heq
      exact absurd rfl (hother '[' (by rw [heq]; rfl))
    · rw [hname, hpath]
      simp only [Option.bind_eq_bind, Option.bind_some]
      split
      · rename_i heq
        obtain ⟨-, htail⟩ := Prod.mk.inj heq
        exact absurd rfl (bracket ']' (by rw [htail]; rfl)).1
      · rfl

/-- What is broken without a bracket makes no entry, or there is no end of the line behind it. -/
theorem bind_readLineEntry {β : Type} (h : IsBroken cs) (hbracket : cs.head? ≠ some '[') (d : Draft)
    (f : Draft → List Char → Option β) :
    ((readLineEntry d cs).bind fun e => (endLine? e.2).bind (f e.1)) = none := by
  have hnone : readEntry (readValue maxDepth) cs = none →
      ((readLineEntry d cs).bind fun e => (endLine? e.2).bind (f e.1)) = none := by
    intro hentry
    rw [readLineEntry_of_none hentry]
    rfl
  cases h with
  | noKey other mark =>
    simp only [List.mem_cons, List.not_mem_nil, or_false, not_or] at mark
    exact hnone (readEntry_noKey other.1 mark.2.2.2.2.1 mark.2.2.2.2.2.1 _)
  | noSign bare ends sign => exact hnone (readEntry_noSign bare ends sign)
  | noValue bare before behind value => exact hnone (readEntry_noValue bare before behind value)
  | noQuote bare before behind begins opened follows =>
    exact hnone (readEntry_noQuote bare before behind begins opened follows)
  | @surplus c cs a trail ends other mark =>
    have hend : endLine? (trail.chars ++ c :: cs) = none := endLine?_surplus trail other mark
    obtain ⟨span, span', hentry⟩ := a.readEntry_chars ends
    unfold readLineEntry
    rw [hentry]
    simp only [Option.bind_eq_bind, Option.bind_some]
    -- The entry may be added, but nothing is read of the line behind it.
    cases Entries.change? false (Entries.insert? [] ⟨span, a.name⟩ (a.value.value span')) d.current
        .header d.root with
    | none => rfl
    | some root => simp only [Option.bind_some, hend, Option.bind_none]
  | noBracket => exact absurd rfl hbracket

/-- **A broken line** is not read, whatever follows it, -/
theorem readLines_eq_none (h : IsBroken cs) (indent : Gap) (fuel : Nat) (d : Draft) :
    readLines fuel d (indent.chars ++ cs) = none := by
  cases fuel with
  | zero => rfl
  | succ fuel =>
    have hcongr := readLines_congr (skipFill_gap indent cs) fuel d
    obtain ⟨c, rest, hcs, -, hfill⟩ := h.exists_head
    rw [hcongr]
    by_cases hbracket : c = '['
    · subst hbracket
      subst hcs
      rw [readLines, hfill]
      simp only [Option.bind_eq_bind, Option.bind_some, h.readHeader_eq_none d, Option.bind_none]
    · rw [hcs] at hfill
      rw [hcs, readLines_entry hfill hbracket, ← hcs]
      exact h.bind_readLineEntry (by rw [hcs]; simpa using hbracket) d _

end IsBroken

/-- and spoils the document. -/
theorem read?_of_broken (lines : List Line) (indent : Gap) (h : IsBroken cs) :
    read? (String.ofList (written lines ++ (indent.chars ++ cs))) = none := by
  have hmark : lines = [] → (indent.chars ++ cs).head? ≠ some '\uFEFF' := by
    rintro -
    obtain ⟨c, rest, rfl, hc, -⟩ := h.exists_head
    have hhead : ∀ d, (indent.chars ++ c :: rest).head? = some d → d ≠ '\uFEFF' :=
      head?_gap indent (by decide) (by decide) fun _ hd => Option.some.inj hd ▸ hc
    exact fun hmark => hhead _ hmark rfl
  by_cases hnodup : (namesOf (givenBy lines)).Nodup
  · obtain ⟨fuel, entries, -, -, hread⟩ := (read?_written hmark).1 hnodup
    rw [hread, h.readLines_eq_none]
    rfl
  · exact (read?_written hmark).2 hnodup

end Broken

end SecretFill.Toml
