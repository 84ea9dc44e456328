import SecretFill.Proofs.PlainValues
import SecretFill.Proofs.Tables

namespace SecretFill.Toml

/-!
# Plain lines

A line is plain if it is blank or gives a bare key a plain value, perhaps with a comment at its end.
Such lines are read one after the other, and each adds its entry to a table without headers.

* `Line` — the lines, with `Line.chars`, how they are written.
* `givenBy` — what lines give to keys; `Gives` — the entries for it.
* `Assignment.readLineEntry_chars` — a key with a value is read; `readLines_line` — so is its line.
* `Reads` — reading goes on at what stands behind; `Reads.trans` — what is read in two parts.
* `reads_written` — so lines are read, if no key stands twice.
-/

/-! ### Lines -/

/-- Spaces and tabs. -/
structure Gap where
  /-- The characters. -/
  chars : List Char
  /-- They are spaces and tabs. -/
  blank : ∀ c ∈ chars, isGap c = true

/-- A comment. -/
structure Comment where
  /-- The characters behind its mark. -/
  text : List Char
  /-- They may stand in a line. -/
  writable : ∀ c ∈ text, isText c = true

/-- A key that can be written without quotes: it is a word. -/
def IsBareKey (name : String) : Prop :=
  name.toList ≠ [] ∧ ∀ c ∈ name.toList, isKeyCharacter c = true

/-- A bare key with a value. -/
structure Assignment where
  /-- The key. -/
  name : String
  /-- It is written without quotes. -/
  bare : IsBareKey name
  /-- What stands before the sign between them. -/
  before : Gap
  /-- What stands behind it. -/
  behind : Gap
  /-- The value. -/
  value : Literal

/-- A line of a plain document. -/
structure Line where
  /-- What it begins with. -/
  indent : Gap
  /-- The key with its value, if it has one. -/
  assignment? : Option Assignment
  /-- What stands behind. -/
  trail : Gap
  /-- The comment, if it has one. -/
  comment? : Option Comment

/-- How a key with a value is written. -/
def Assignment.chars (a : Assignment) : List Char :=
  a.name.toList ++ (a.before.chars ++ '=' :: (a.behind.chars ++ a.value.chars))

namespace Line

/-- What is written behind the value. -/
def ending (line : Line) : List Char :=
  line.trail.chars ++ ((line.comment?.map fun comment => '#' :: comment.text).getD [])

/-- How a line is written. -/
def chars (line : Line) : List Char :=
  line.indent.chars ++ (((line.assignment?.map Assignment.chars).getD []) ++ line.ending)

end Line

/-- What may follow a line: nothing, or a line feed and other lines. -/
inductive Follows : List Char → List Char → Prop where
  /-- It is the last line. -/
  | last : Follows [] []
  /-- There are others. -/
  | others (cs : List Char) : Follows ('\n' :: cs) cs

section Gaps

variable {cs stop next : List Char} {c : Char}

theorem skipGap_gap (gap : Gap) (cs : List Char) : skipGap (gap.chars ++ cs) = skipGap cs :=
  List.dropWhile_append_of_pos gap.blank

theorem skipGap_cons (h : isGap c = false) (cs : List Char) : skipGap (c :: cs) = c :: cs := by
  simp [skipGap, h]

/-- A text with blanks before it begins with one of these, or as it does without them. -/
theorem head?_gap (gap : Gap) {P : Char → Prop} (hspace : P ' ') (htab : P '\t')
    (h : ∀ c, cs.head? = some c → P c) : ∀ c, (gap.chars ++ cs).head? = some c → P c := by
  obtain ⟨chars, blank⟩ := gap
  cases chars with
  | nil => exact h
  | cons d chars =>
    rintro _ ⟨⟩
    rcases isGap_cases (blank d List.mem_cons_self) with rfl | rfl
    · exact hspace
    · exact htab

/-- Spaces and tabs are dropped between values. -/
theorem skipFill_gap (gap : Gap) (cs : List Char) :
    skipFill false (gap.chars ++ cs) = skipFill false cs := by
  obtain ⟨chars, blank⟩ := gap
  induction chars with
  | nil => rfl
  | cons c chars ih =>
    have hrest := ih fun d hd => blank d (List.mem_cons_of_mem c hd)
    rcases isGap_cases (blank c List.mem_cons_self) with rfl | rfl
    · exact hrest
    · exact hrest

/-- A comment is dropped up to the end of its line. -/
theorem skipFill_comment (comment : Comment) (h : Follows stop next) :
    skipFill true (comment.text ++ stop) = skipFill false next := by
  obtain ⟨text, writable⟩ := comment
  induction text with
  | nil => cases h <;> rfl
  | cons c text ih =>
    have hc := writable c List.mem_cons_self
    have hfeed : c ≠ '\n' := by
      rintro rfl
      exact absurd hc (by decide)
    have hreturn : c ≠ '\r' := by
      rintro rfl
      exact absurd hc (by decide)
    rw [List.cons_append, skipFill.eq_4 true c _ hfeed fun _ hr => absurd hr hreturn]
    simp only [if_true, hc]
    exact ih fun d hd => writable d (List.mem_cons_of_mem c hd)

/-- What stands behind a value is dropped with the end of the line. -/
theorem skipFill_ending (line : Line) (h : Follows stop next) :
    skipFill false (line.ending ++ stop) = skipFill false next := by
  unfold Line.ending
  rw [List.append_assoc, skipFill_gap]
  cases line.comment? with
  | none => cases h <;> rfl
  | some comment =>
    show skipFill false ('#' :: (comment.text ++ stop)) = _
    rw [← skipFill_comment comment h]
    rfl

theorem isGap_of_isKeyCharacter (hc : isKeyCharacter c = true) : isGap c = false := by
  rw [← Bool.not_eq_true]
  intro hblank
  rcases isGap_cases hblank with rfl | rfl
  · exact absurd hc (by decide)
  · exact absurd hc (by decide)

/-- Where text begins nothing is dropped. -/
theorem skipFill_text (hc : isKeyCharacter c = true) (cs : List Char) :
    skipFill false (c :: cs) = some (c :: cs) := by
  have hother : ∀ {d : Char}, isKeyCharacter d = false → c ≠ d := by
    rintro _ hd rfl
    rw [hc] at hd
    cases hd
  rw [skipFill.eq_4 false c _ (hother (by decide)) fun _ hr => absurd hr (hother (by decide))]
  simp [isGap_of_isKeyCharacter hc, hother (d := '#') (by decide)]

/-- The end of a line is read. -/
theorem endLine?_ending (line : Line) (h : Follows stop next) :
    endLine? (line.ending ++ stop) = some next := by
  have hstop : skipGap stop = stop := by cases h <;> rfl
  unfold Line.ending endLine?
  rw [List.append_assoc, skipGap_gap]
  cases line.comment? with
  | none =>
    show (let rest := skipGap stop; _) = _
    rw [hstop]
    cases h <;> rfl
  | some comment =>
    have hdrop : (comment.text ++ stop).dropWhile isText = stop := by
      rw [List.dropWhile_append_of_pos comment.writable]
      cases h <;> rfl
    show (let rest := (comment.text ++ stop).dropWhile isText;
      if rest.isEmpty then some [] else lineBreak? rest) = _
    rw [hdrop]
    cases h <;> rfl

/-- No value goes on with this character. -/
def isStop (c : Char) : Bool :=
  !isScalarCharacter c && c ≠ '"' && c ≠ '\'' && !c.isDigit

/-- Blanks and whatever no value goes on with end a value. -/
theorem endsValue_gap (gap : Gap) (h : ∀ c, cs.head? = some c → isStop c = true ∧ c ≠ ' ') :
    EndsValue (gap.chars ++ cs) := by
  have hstop : ∀ {c}, isStop c = true →
      (isScalarCharacter c = false ∧ c ≠ '"' ∧ c ≠ '\'') ∧ c.isDigit = false := by
    intro c hc
    simpa [isStop, and_assoc] using hc
  have hblank : ∀ {c}, isGap c = true → isStop c = true := by
    intro c hc
    rcases isGap_cases hc with rfl | rfl <;> rfl
  obtain ⟨chars, blank⟩ := gap
  -- A time would stand behind one space, so two characters are looked at.
  match chars, blank with
  | [], _ =>
    refine ⟨fun c hc => (hstop (h c hc).1).1, fun c rest heq => ?_⟩
    exact absurd rfl (h ' ' (by simpa using congrArg List.head? heq)).2
  | [d], blank =>
    refine ⟨fun c hc => ?_, fun c rest heq => ?_⟩
    · obtain rfl := Option.some.inj hc
      exact (hstop (hblank (blank d (by simp)))).1
    · exact (hstop (h c (by simpa using congrArg List.head? (List.cons.inj heq).2)).1).2
  | d :: d' :: _, blank =>
    refine ⟨fun c hc => ?_, fun c rest heq => ?_⟩
    · obtain rfl := Option.some.inj hc
      exact (hstop (hblank (blank d (by simp)))).1
    · obtain ⟨-, hrest⟩ := List.cons.inj heq
      obtain ⟨rfl, -⟩ := List.cons.inj hrest
      exact (hstop (hblank (blank d' (by simp)))).2

/-- A value ends before what stands behind it in its line. -/
theorem endsValue_ending (line : Line) (h : Follows stop next) : EndsValue (line.ending ++ stop) := by
  unfold Line.ending
  rw [List.append_assoc]
  refine endsValue_gap _ fun c hc => ?_
  cases hcomment : line.comment? with
  | none =>
    rw [hcomment] at hc
    cases h with
    | last => cases hc
    | others cs =>
      obtain rfl := Option.some.inj hc
      decide
  | some comment =>
    rw [hcomment] at hc
    obtain rfl := Option.some.inj hc
    decide

end Gaps

/-! ### Keys with their values -/

/-- What a key cannot go on with stands first here, or nothing does. -/
def EndsKey (rest : List Char) : Prop := ∀ c, rest.head? = some c → isKeyCharacter c = false

/-- Blanks end a key, and so does what stands behind them if it is no part of one. -/
theorem endsKey_gap (gap : Gap) {c : Char} (hc : isKeyCharacter c = false) (cs : List Char) :
    EndsKey (gap.chars ++ c :: cs) :=
  head?_gap gap (P := fun c => isKeyCharacter c = false) rfl rfl fun _ hd => Option.some.inj hd ▸ hc

/-- What is given to keys, and an entry for each of them. -/
def Gives : List (String × Literal) → Entries → Prop :=
  List.Forall₂ fun given entry => entry.1.text = given.1 ∧ ∃ span, entry.2 = given.2.value span

section Keys

variable {name : String} {rest : List Char}

/-- A bare key is read as far as it goes, -/
theorem readKey_bare (hname : IsBareKey name)
    (hrest : EndsKey rest) :
    readKey (name.toList ++ rest) = some (⟨.between (name.toList ++ rest) rest, name⟩, rest) := by
  obtain ⟨hne, hword⟩ := hname
  have htake : (name.toList ++ rest).takeWhile isKeyCharacter = name.toList := by
    rw [List.takeWhile_append_of_pos hword]
    cases rest with
    | nil => simp
    | cons c rest => simp [hrest c rfl]
  have hdrop : (name.toList ++ rest).dropWhile isKeyCharacter = rest := by
    rw [List.dropWhile_append_of_pos hword]
    cases rest with
    | nil => rfl
    | cons c rest => simp [hrest c rfl]
  -- No quote can begin a bare key.
  have hquote : ∀ quote tail, isKeyCharacter quote = false → name.toList ++ rest ≠ quote :: tail := by
    intro quote tail hquote heq
    obtain ⟨c, cs, hcs⟩ := List.exists_cons_of_ne_nil hne
    rw [hcs] at heq hword
    obtain ⟨rfl, -⟩ := List.cons.inj heq
    rw [hword c List.mem_cons_self] at hquote
    cases hquote
  rw [readKey.eq_3 _ (fun tail => hquote '"' tail (by decide)) fun tail => hquote '\'' tail (by decide)]
  rw [htake, hdrop, if_neg (by simpa using hne)]
  simp only [String.ofList_toList]

/-- and it is a path if no dot follows. -/
theorem readPath_bare (hname : IsBareKey name)
    (hrest : EndsKey rest) (hdot : (skipGap rest).head? ≠ some '.') :
    ∃ span, readPath (name.toList ++ rest) = some (([], ⟨span, name⟩), skipGap rest) := by
  refine ⟨.between (name.toList ++ rest) rest, ?_⟩
  unfold readPath readPathFrom
  rw [readKey_bare hname hrest]
  simp only [Option.bind_eq_bind, Option.bind_some]
  split
  · rename_i heq
    rw [heq] at hdot
    exact absurd rfl hdot
  · rfl

/-- A key is read, and with a sign behind it a value. -/
theorem readEntry_bare (hname : IsBareKey name)
    (item : Reader) (before behind : Gap) (hrest : skipGap rest = rest) :
    ∃ span, readEntry item (name.toList ++ (before.chars ++ '=' :: (behind.chars ++ rest)))
      = (item rest).map fun e => (([], ⟨span, name⟩, e.1), e.2) := by
  have hsign : skipGap (before.chars ++ '=' :: (behind.chars ++ rest))
      = '=' :: (behind.chars ++ rest) := skipGap_gap _ _
  obtain ⟨span, hpath⟩ := readPath_bare hname (endsKey_gap before (c := '=') rfl _)
    (by rw [hsign]; simp)
  refine ⟨span, ?_⟩
  unfold readEntry
  rw [hpath, hsign]
  simp only [Option.bind_eq_bind, Option.bind_some, skipGap_gap, hrest]
  cases item rest <;> rfl

namespace Assignment

/-- **A key with a value** is read, where the value ends. -/
theorem readEntry_chars (a : Assignment) (h : EndsValue rest) :
    ∃ span span', readEntry (readValue maxDepth) (a.chars ++ rest)
      = some (([], ⟨span, a.name⟩, a.value.value span'), rest) := by
  have hchars : a.chars ++ rest
      = a.name.toList ++ (a.before.chars ++ '=' :: (a.behind.chars ++ (a.value.chars ++ rest))) := by
    simp [chars]
  have hvalue : skipGap (a.value.chars ++ rest) = a.value.chars ++ rest := by
    obtain ⟨c, cs, hcs, hc⟩ := a.value.exists_chars
    rw [hcs]
    exact skipGap_cons hc _
  obtain ⟨span, hentry⟩ := readEntry_bare a.bare (readValue maxDepth) a.before a.behind hvalue
  refine ⟨span, .between (a.value.chars ++ rest) rest, ?_⟩
  rw [hchars, hentry, a.value.readValue_chars h]
  rfl

/-- It is added to a table without headers, unless its key stands there already. -/
theorem readLineEntry_chars (a : Assignment) {d : Draft} (hd : d.current = []) (h : EndsValue rest) :
    ∃ entry, Gives [(a.name, a.value)] [entry] ∧ readLineEntry d (a.chars ++ rest)
      = if (d.root.find? a.name).isSome then none else some (⟨d.root ++ [entry], []⟩, rest) := by
  obtain ⟨span, span', hread⟩ := a.readEntry_chars h
  refine ⟨(⟨span, a.name⟩, a.value.value span'), .cons ⟨rfl, span', rfl⟩ .nil, ?_⟩
  obtain ⟨root, current⟩ := d
  obtain rfl : current = [] := hd
  unfold readLineEntry
  rw [hread]
  cases hfind : root.find? a.name <;>
    simp [Entries.change?, Entries.insert?, Entries.place?, hfind]

end Assignment

end Keys

/-! ### Rows of lines -/

/-- What some lines give to keys. -/
def givenBy (lines : List Line) : List (String × Literal) :=
  lines.filterMap fun line => line.assignment?.map fun a => (a.name, a.value)

/-- Lines in a text, each with its line feed. -/
def written (lines : List Line) : List Char := lines.flatMap fun line => line.chars ++ ['\n']

/-- A text that is made of lines, the last one of which may be empty. -/
def source (lines : List Line) (last : Line) : List Char := written lines ++ last.chars

section Rows

variable {d : Draft} {fuel : Nat} {cs stop next : List Char}

theorem readLines_congr (h : skipFill false cs = skipFill false next) (fuel : Nat) (d : Draft) :
    readLines (fuel + 1) d cs = readLines (fuel + 1) d next := by
  rw [readLines, readLines, h]

/-- A line that is no header is read as an entry, and nothing else may stand in it. -/
theorem readLines_entry {c : Char} {rest : List Char} (hfill : skipFill false cs = some (c :: rest))
    (hc : c ≠ '[') (fuel : Nat) (d : Draft) :
    readLines (fuel + 1) d cs
      = (readLineEntry d (c :: rest)).bind fun e => (endLine? e.2).bind (readLines fuel e.1) := by
  rw [readLines, hfill]
  simp only [Option.bind_eq_bind, Option.bind_some]
  split
  · rename_i heq
    cases heq
  · rename_i heq
    exact absurd (List.cons.inj heq).1 hc
  · rfl

/-- **One line** is read: one without a key is passed over, any other one adds its entry to a table
    without headers, unless its key stands there already. -/
theorem readLines_line (line : Line) (hd : d.current = []) (h : Follows stop next) (fuel : Nat) :
    (line.assignment? = none ∧
      readLines (fuel + 1) d (line.chars ++ stop) = readLines (fuel + 1) d next) ∨
    ∃ a entry, line.assignment? = some a ∧ Gives [(a.name, a.value)] [entry] ∧
      readLines (fuel + 1) d (line.chars ++ stop)
        = if (d.root.find? a.name).isSome then none
          else readLines fuel ⟨d.root ++ [entry], []⟩ next := by
  have hchars : line.chars ++ stop = line.indent.chars ++
      (((line.assignment?.map Assignment.chars).getD []) ++ (line.ending ++ stop)) := by
    simp [Line.chars]
  cases hassignment : line.assignment? with
  | none =>
    refine .inl ⟨rfl, readLines_congr ?_ fuel d⟩
    rw [hchars, hassignment, skipFill_gap]
    exact skipFill_ending line h
  | some a =>
    obtain ⟨entry, hgives, hentry⟩ := a.readLineEntry_chars hd (endsValue_ending line h)
    refine .inr ⟨a, entry, rfl, hgives, ?_⟩
    -- The line begins with its key.
    obtain ⟨c, name, hname⟩ := List.exists_cons_of_ne_nil a.bare.1
    have hc : isKeyCharacter c = true := a.bare.2 c (by simp [hname])
    obtain ⟨rest, hbegins⟩ : ∃ rest, a.chars ++ (line.ending ++ stop) = c :: rest := by
      rw [Assignment.chars, hname]
      exact ⟨_, rfl⟩
    have hfill : skipFill false (line.chars ++ stop) = some (c :: rest) := by
      rw [hchars, hassignment, skipFill_gap]
      show skipFill false (a.chars ++ _) = _
      rw [hbegins]
      exact skipFill_text hc _
    have hbracket : c ≠ '[' := by
      rintro rfl
      exact absurd hc (by decide)
    rw [readLines_entry hfill hbracket, ← hbegins, hentry]
    split
    · rfl
    · simp only [Option.bind_some, endLine?_ending line h]

/-- The keys of what is given. -/
def namesOf (given : List (String × Literal)) : List String := given.map Prod.fst

theorem Gives.names_eq {given : List (String × Literal)} {entries : Entries}
    (h : Gives given entries) : entries.names = namesOf given := by
  induction h with
  | nil => rfl
  | cons hentry _ ih => exact congrArg₂ List.cons hentry.1 ih

/-- For everything that is given there is an entry. -/
theorem Gives.exists_entry {given : List (String × Literal)} {entries : Entries}
    (h : Gives given entries) {g : String × Literal} (hg : g ∈ given) :
    ∃ entry ∈ entries, entry.1.text = g.1 ∧ ∃ span, entry.2 = g.2.value span := by
  induction h with
  | nil => cases hg
  | @cons first entry _ _ hentry _ ih =>
    rcases List.mem_cons.1 hg with rfl | hrest
    · exact ⟨entry, List.mem_cons_self, hentry⟩
    · obtain ⟨other, hother, hgiven⟩ := ih hrest
      exact ⟨other, List.mem_cons_of_mem _ hother, hgiven⟩

/-- Reading a text goes on at another one, with entries for what is given behind those of a table
    without headers.  If a key would stand twice, nothing is read. -/
def Reads (given : List (String × Literal)) (fuel : Nat) (root : Entries)
    (cs next : List Char) : Prop :=
  ((root.names ++ namesOf given).Nodup → ∃ fuel' entries, next.length < fuel' ∧
    Gives given entries ∧ readLines fuel ⟨root, []⟩ cs = readLines fuel' ⟨root ++ entries, []⟩ next) ∧
  (¬ (root.names ++ namesOf given).Nodup → root.Distinct → readLines fuel ⟨root, []⟩ cs = none)

/-- What is read in two parts is read as a whole. -/
theorem Reads.trans {given given' : List (String × Literal)} {root : Entries} {mid : List Char}
    (h : Reads given fuel root cs mid)
    (h' : ∀ fuel root, mid.length < fuel → Reads given' fuel root mid next) :
    Reads (given ++ given') fuel root cs next := by
  have hnames : root.names ++ namesOf (given ++ given')
      = (root.names ++ namesOf given) ++ namesOf given' := by
    simp [namesOf]
  have hroot : ∀ {entries}, Gives given entries →
      Entries.names (root ++ entries) = root.names ++ namesOf given := by
    intro entries hgives
    rw [← hgives.names_eq]
    exact List.map_append
  unfold Reads
  rw [hnames]
  refine ⟨fun hnodup => ?_, fun htwice hdistinct => ?_⟩
  · obtain ⟨fuel', entries, hfuel', hgives, hread⟩ := h.1 (List.nodup_append.1 hnodup).1
    obtain ⟨fuel'', entries', hfuel'', hgives', hread'⟩ :=
      (h' fuel' (root ++ entries) hfuel').1 (by rwa [hroot hgives])
    refine ⟨fuel'', entries ++ entries', hfuel'', List.rel_append hgives hgives', ?_⟩
    rw [hread, hread', List.append_assoc]
  · -- A key stands twice in the first part already, or one of the second stands there too.
    by_cases hfirst : (root.names ++ namesOf given).Nodup
    · obtain ⟨fuel', entries, hfuel', hgives, hread⟩ := h.1 hfirst
      have hkept : Entries.Distinct (root ++ entries) := by
        unfold Entries.Distinct
        rwa [hroot hgives]
      rw [hread]
      exact (h' fuel' (root ++ entries) hfuel').2 (by rwa [hroot hgives]) hkept
    · exact h.2 hfirst hdistinct

theorem givenBy_append (lines lines' : List Line) :
    givenBy (lines ++ lines') = givenBy lines ++ givenBy lines' := List.filterMap_append

/-- **One line** adds its entry to a table. -/
theorem reads_line (line : Line) (h : Follows stop next) {fuel : Nat}
    (hfuel : (line.chars ++ stop).length < fuel) (root : Entries) :
    Reads (givenBy [line]) fuel root (line.chars ++ stop) next := by
  obtain ⟨fuel, rfl⟩ := Nat.exists_eq_succ_of_ne_zero (Nat.ne_zero_of_lt hfuel)
  have hnext : next.length ≤ stop.length := by cases h <;> simp
  rw [List.length_append] at hfuel
  rcases readLines_line line (d := ⟨root, []⟩) rfl h fuel with
    ⟨hnone, hread⟩ | ⟨a, entry, hsome, hgives, hread⟩
  · have hgiven : givenBy [line] = [] := by simp [givenBy, hnone]
    unfold Reads
    rw [hread, hgiven]
    refine ⟨fun _ => ⟨fuel + 1, [], by omega, .nil, by rw [List.append_nil]⟩, fun htwice hdistinct => ?_⟩
    exact absurd (by simpa [namesOf, Entries.Distinct] using hdistinct) htwice
  · have hgiven : givenBy [line] = [(a.name, a.value)] := by simp [givenBy, hsome]
    have hlength : 1 ≤ line.chars.length := by
      simp only [Line.chars, hsome, Option.map_some, Option.getD_some, Assignment.chars,
        List.length_append, List.length_cons]
      omega
    unfold Reads
    rw [hread, hgiven]
    cases hfind : root.find? a.name with
    | some value =>
      -- The key stands in the table already.
      have hmem : a.name ∈ root.names := by
        by_contra hnew
        rw [Entries.find?_eq_none_iff.2 hnew] at hfind
        cases hfind
      refine ⟨fun hnodup => ?_, fun _ _ => rfl⟩
      exact absurd rfl ((List.nodup_append.1 hnodup).2.2 _ hmem _ List.mem_cons_self)
    | none =>
      refine ⟨fun _ => ⟨fuel, [entry], by omega, hgives, rfl⟩, fun htwice hdistinct => ?_⟩
      have hnew : a.name ∉ root.names := Entries.find?_eq_none_iff.1 hfind
      have hapart : ∀ name ∈ root.names, ∀ other ∈ namesOf [(a.name, a.value)], name ≠ other := by
        rintro name hname other hother rfl
        obtain rfl : name = a.name := List.mem_singleton.1 hother
        exact hnew hname
      exact absurd (List.nodup_append.2 ⟨hdistinct, List.nodup_singleton _, hapart⟩) htwice

/-- **Lines are read** one after the other. -/
theorem reads_written (lines : List Line) {fuel : Nat} (hfuel : (written lines ++ cs).length < fuel)
    (root : Entries) : Reads (givenBy lines) fuel root (written lines ++ cs) cs := by
  induction lines generalizing fuel root with
  | nil =>
    refine ⟨fun _ => ⟨fuel, [], hfuel, .nil, by rw [List.append_nil]; rfl⟩, fun htwice hdistinct => ?_⟩
    exact absurd (by simpa [givenBy, namesOf, Entries.Distinct] using hdistinct) htwice
  | cons line lines ih =>
    have hwritten : written (line :: lines) ++ cs = line.chars ++ '\n' :: (written lines ++ cs) := by
      simp [written]
    have hgiven : givenBy (line :: lines) = givenBy [line] ++ givenBy lines :=
      givenBy_append [line] lines
    rw [hwritten] at hfuel ⊢
    rw [hgiven]
    exact (reads_line line (.others _) hfuel root).trans fun fuel root hfuel => ih hfuel root

end Rows

end SecretFill.Toml
