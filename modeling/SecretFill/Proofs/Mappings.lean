import Mathlib.Data.List.Forall2
import SecretFill.Proofs.Keys
import SecretFill.Proofs.Words

namespace SecretFill.Yaml

/-!
# Mappings of words

The tokens of lines with a key and a value make a mapping of the words, entry after entry.  So a note
is the mapping of its lines, and where it is none, its first line that is unsound says where: a key that
is too long is a fault at its colon, and a value that is refused is one where it begins.

* `Typed` — the types of the words on a line.
* `value_lines` — the value of the tokens of some lines, up to what follows.
* `read_note` — the value of a note of sound lines.
* `read_long_key`, `read_refused` — the fault of a note with an unsound line.
-/

open Lexer (rows rowTokens lineTokens linesTokens valueMark linesEnd)

variable {line next : List Char × List Char} {before after lines : List (List Char × List Char)}

/-! ### Events -/

/-- One event, then the others. -/
theorem run_of_step {handles : Handles} {last : Option Fault} {fuel : Nat} {phase : Phase}
    {stack : List Phase} {tokens : List Token} {event : Event} {p : Progress}
    (hphase : phase ≠ .documentEnd) (h : step handles phase stack tokens = .ok (event, p)) :
    run handles last (fuel + 1) ⟨phase, stack, tokens⟩
      = (event :: (run handles last fuel p).1, (run handles last fuel p).2) := by
  simp only [run, hphase, if_false, h]

/-- The events of a line that begins at a mark. -/
def rowEvents (row : Mark × List Char × List Char) : List Event :=
  [⟨.scalar ⟨none, none⟩ row.2.1 true, row.1⟩,
    ⟨.scalar ⟨none, none⟩ row.2.2 true, valueMark row.1 row.2⟩]

/-- The tokens of lines in a mapping are read as scalars. -/
theorem run_rows {handles : Handles} {last : Option Fault} {stack : List Phase} (fuel : Nat)
    (rows : List (Mark × List Char × List Char)) (more : List Token) :
    run handles last (fuel + 2 * rows.length) ⟨.blockKey false, stack, rows.flatMap rowTokens ++ more⟩
      = (rows.flatMap rowEvents ++ (run handles last fuel ⟨.blockKey false, stack, more⟩).1,
        (run handles last fuel ⟨.blockKey false, stack, more⟩).2) := by
  induction rows with
  | nil => rfl
  | cons row rows ih =>
    obtain ⟨mark, line⟩ := row
    -- Each row takes two steps, one for its key and one for its value.
    have hkey : step handles (.blockKey false) stack
          (((mark, line) :: rows).flatMap rowTokens ++ more)
        = .ok (⟨.scalar ⟨none, none⟩ line.1 true, mark⟩, ⟨.blockValue, stack,
          ⟨.value, mark.skip line.1.length⟩ :: ⟨.scalar line.2 true, valueMark mark line⟩ ::
            (rows.flatMap rowTokens ++ more)⟩) := rfl
    have hvalue : step handles .blockValue stack
          (⟨.value, mark.skip line.1.length⟩ :: ⟨.scalar line.2 true, valueMark mark line⟩ ::
            (rows.flatMap rowTokens ++ more))
        = .ok (⟨.scalar ⟨none, none⟩ line.2 true, valueMark mark line⟩,
          ⟨.blockKey false, stack, rows.flatMap rowTokens ++ more⟩) := rfl
    have hfuel : fuel + 2 * ((mark, line) :: rows).length = fuel + 2 * rows.length + 1 + 1 := by
      simp only [List.length_cons]
      omega
    rw [hfuel, run_of_step (by decide) hkey, run_of_step (by decide) hvalue, ih]
    rfl

/-- The first key of a mapping has the start of the mapping before it. -/
theorem run_first {handles : Handles} {last : Option Fault} {fuel : Nat} {stack : List Phase}
    {token : Token} {tokens : List Token} (h : tokens ≠ []) :
    run handles last (fuel + 1) ⟨.blockKey true, stack, token :: tokens⟩
      = run handles last (fuel + 1) ⟨.blockKey false, stack, tokens⟩ := by
  obtain ⟨first, rest, rfl⟩ := List.exists_cons_of_ne_nil h
  rfl

/-- The events of lines, up to those of what follows them. -/
theorem events_lines (hne : lines ≠ []) (more : List Token) (last : Option Fault) :
    ∃ fuel, Reading.events (linesTokens 0 .origin lines ++ more, last)
      = (⟨.mappingStart ⟨none, none⟩, .origin⟩ :: ((rows .origin lines).flatMap rowEvents
            ++ (run defaultHandles last (fuel + 3) ⟨.blockKey false, [.documentEnd], more⟩).1),
        (run defaultHandles last (fuel + 3) ⟨.blockKey false, [.documentEnd], more⟩).2) := by
  have htokens : linesTokens 0 .origin lines ++ more
      = ⟨.blockMappingStart, .origin⟩ :: ((rows .origin lines).flatMap rowTokens ++ more) := by
    rw [Lexer.linesTokens_zero .origin hne, Lexer.linesTokens_one]
    rfl
  have hrest : (rows .origin lines).flatMap rowTokens ++ more ≠ [] := by
    obtain ⟨line, lines, rfl⟩ := List.exists_cons_of_ne_nil hne
    simp [rows, rowTokens, lineTokens]
  generalize rows .origin lines = rows at htokens hrest
  have hlength : rows.length ≤ (rows.flatMap rowTokens).length := by
    simp [List.length_flatMap, rowTokens, lineTokens, Lexer.keyTokens]
    omega
  -- Two steps are made for each line, and there is fuel for four on each token.
  obtain ⟨fuel, hfuel⟩ : ∃ fuel, 4 * (rows.flatMap rowTokens ++ more).length + 7
      = fuel + 3 + 2 * rows.length :=
    ⟨4 * (rows.flatMap rowTokens ++ more).length + 4 - 2 * rows.length, by
      rw [List.length_append]
      omega⟩
  have hstart : step defaultHandles (.root false) [.documentEnd]
        (⟨.blockMappingStart, .origin⟩ :: (rows.flatMap rowTokens ++ more))
      = .ok (⟨.mappingStart ⟨none, none⟩, .origin⟩, ⟨.blockKey true, [.documentEnd],
        ⟨.blockMappingStart, .origin⟩ :: (rows.flatMap rowTokens ++ more)⟩) := rfl
  have hevents : Reading.events
        (⟨.blockMappingStart, .origin⟩ :: (rows.flatMap rowTokens ++ more), last)
      = run defaultHandles last (4 * (rows.flatMap rowTokens ++ more).length + 7 + 1)
        ⟨.root false, [.documentEnd],
          ⟨.blockMappingStart, .origin⟩ :: (rows.flatMap rowTokens ++ more)⟩ := rfl
  refine ⟨fuel, ?_⟩
  rw [htokens, hevents, run_of_step (by decide) hstart, run_first hrest, hfuel, run_rows]

/-! ### Parts -/

/-- The parts of a line. -/
def rowParts (row : Mark × List Char × List Char) : List (Part × Mark) :=
  [(.scalar none row.2.1 true, row.1), (.scalar none row.2.2 true, valueMark row.1 row.2)]

/-- Scalars without anchors leave the references as they are. -/
theorem link_rows (naming : Naming) (index : Nat) (fault : Option Fault)
    (rows : List (Mark × List Char × List Char)) (events : List Event) :
    link naming index fault (rows.flatMap rowEvents ++ events)
      = { link naming (index + 2 * rows.length) fault events with
          parts := rows.flatMap rowParts
            ++ (link naming (index + 2 * rows.length) fault events).parts } := by
  induction rows generalizing index with
  | nil => rfl
  | cons row rows ih =>
    have hindex : index + 2 * (row :: rows).length = index + 1 + 1 + 2 * rows.length := by
      simp only [List.length_cons]
      omega
    simp only [List.flatMap_cons, rowEvents, rowParts, List.cons_append, List.nil_append, link,
      Naming.note, hindex, ih]

/-! ### Entries -/

/-- A line of words has the types that its words have as plain scalars. -/
structure Typed (line : List Char × List Char) (entry : Value × Value) : Prop where
  /-- The type of the key, -/
  key : plainValue? line.1 = some entry.1
  /-- and of the value. -/
  value : plainValue? line.2 = some entry.2

section Entries

variable {d : Document} {fuel depth jumps : Nat} {mark : Mark}
variable {earlier entries : List (Value × Value)} {parts : List (Part × Mark)}

/-- A plain scalar is read as the type of its text. -/
theorem node_plain {text : List Char} {start : Mark} : d.node (fuel + 1) depth false
      ⟨(.scalar none text true, start) :: parts, jumps⟩
    = match plainValue? text with
      | some v => .ok (v, ⟨parts, jumps⟩)
      | none => .error (.here start) := by
  cases h : plainValue? text <;> simp [Document.node, applicationTag?, scalarValue, h]

/-- A key that is not there yet is followed by its value. -/
theorem entries_row {row : Mark × List Char × List Char} {key : Value}
    (hkey : plainValue? row.2.1 = some key) (hnew : ∀ e ∈ earlier, e.1.same key = false) :
    d.entries (fuel + 2) depth mark earlier ⟨rowParts row ++ parts, jumps⟩
      = match plainValue? row.2.2 with
        | some v => d.entries (fuel + 1) depth mark (earlier ++ [(key, v)]) ⟨parts, jumps⟩
        | none => .error (.here (valueMark row.1 row.2)) := by
  have hany : (earlier.any fun entry => entry.1.same key) = false := by
    rw [List.any_eq_false]
    exact fun e he => by simp [hnew e he]
  rw [Document.entries]
  simp only [rowParts, List.cons_append, List.nil_append, node_plain, hkey, hany, bind, Except.bind]
  cases plainValue? row.2.2 <;> rfl

/-- The entries of lines are those that the words are typed as. -/
theorem entries_rows {rows : List (Mark × List Char × List Char)}
    (htyped : List.Forall₂ Typed (rows.map (·.2)) entries) (hdistinct : Distinct (earlier ++ entries)) :
    d.entries (fuel + 1 + rows.length) depth mark earlier ⟨rows.flatMap rowParts ++ parts, jumps⟩
      = d.entries (fuel + 1) depth mark (earlier ++ entries) ⟨parts, jumps⟩ := by
  induction rows generalizing earlier entries with
  | nil =>
    cases htyped
    rw [List.append_nil]
    rfl
  | cons row rows ih =>
    cases htyped with
    | @cons _ entry _ entries hrow hrows =>
      -- The key is new, since no two entries have the same.
      have hnew : ∀ e ∈ earlier, e.1.same entry.1 = false := fun e he =>
        (List.pairwise_append.1 hdistinct).2.2 e he entry List.mem_cons_self
      have hfuel : fuel + 1 + (row :: rows).length = fuel + rows.length + 2 := by
        simp only [List.length_cons]
        omega
      have hrest : fuel + rows.length + 1 = fuel + 1 + rows.length := by omega
      rw [List.flatMap_cons, List.append_assoc, hfuel, entries_row hrow.key hnew, hrow.value]
      simp only []
      rw [hrest, ih hrows (by simpa using hdistinct)]
      simp

/-- The value of lines, up to what becomes of the parts behind them. -/
theorem value_rows {rows : List (Mark × List Char × List Char)} (mark : Mark)
    (parts : List (Part × Mark)) (anchors : List (Nat × Nat)) (fault : Option Fault)
    (htyped : List.Forall₂ Typed (rows.map (·.2)) entries)
    (hdistinct : Distinct entries) :
    ∃ fuel, Document.value ⟨(.mappingStart none, mark) :: (rows.flatMap rowParts ++ parts), anchors, fault⟩
      = (Document.entries ⟨(.mappingStart none, mark) :: (rows.flatMap rowParts ++ parts), anchors, fault⟩
          (fuel + 2) 127 mark entries ⟨parts, 0⟩).bind fun out =>
            match fault with
            | some fault => .error fault
            | none => .ok (.mapping out.1) := by
  have hlength : rows.length ≤ (rows.flatMap rowParts).length := by
    simp [List.length_flatMap, rowParts]
    omega
  -- The mapping takes one step, and so does each line.
  obtain ⟨fuel, hfuel⟩ : ∃ fuel, 300 * (((Part.mappingStart none, mark)
      :: (rows.flatMap rowParts ++ parts)).length + 4) = fuel + 1 + 1 + rows.length + 1 :=
    ⟨300 * ((rows.flatMap rowParts ++ parts).length + 5) - 3 - rows.length, by
      rw [List.length_cons, List.length_append]
      omega⟩
  refine ⟨fuel, ?_⟩
  have hentries : ∀ d : Document,
      d.entries (fuel + 1 + 1 + rows.length) 127 mark [] ⟨rows.flatMap rowParts ++ parts, 0⟩
        = d.entries (fuel + 1 + 1) 127 mark ([] ++ entries) ⟨parts, 0⟩ := fun d =>
    entries_rows htyped hdistinct
  simp only [Document.value]
  rw [hfuel, show Document.maxDepth = 127 + 1 from rfl]
  simp only [Document.node, applicationTag?, Bool.false_eq_true, if_false, bind, Except.bind, pure,
    Except.pure]
  rw [hentries, List.nil_append]
  cases Document.entries _ (fuel + 1 + 1) 127 mark entries ⟨parts, 0⟩ with
  | error => rfl
  | ok => cases fault <;> rfl

end Entries

/-! ### Notes -/

section Notes

variable {entries : List (Value × Value)}

/-- The document behind the start of a mapping and some lines. -/
def Document.behind (rows : List (Mark × List Char × List Char)) (rest : Document) : Document :=
  { rest with parts := (.mappingStart none, .origin) :: (rows.flatMap rowParts ++ rest.parts) }

/-- The tokens of lines make a mapping, which goes on with what stands behind them. -/
theorem value_lines (hne : lines ≠ []) (more : List Token) (last : Option Fault) :
    ∃ steps index, Reading.value (linesTokens 0 .origin lines ++ more, last)
      = (Document.behind (rows .origin lines) (link ⟨[], []⟩ index
          (run defaultHandles last (steps + 3) ⟨.blockKey false, [.documentEnd], more⟩).2
          (run defaultHandles last (steps + 3) ⟨.blockKey false, [.documentEnd], more⟩).1)).value := by
  obtain ⟨steps, hevents⟩ := events_lines hne more last
  refine ⟨steps, 0 + 1 + 2 * (rows .origin lines).length, ?_⟩
  simp only [Reading.value, hevents, link, Naming.note, link_rows]
  rfl

/-- **The value of a note** is the mapping of its words. -/
theorem read_note (hne : lines ≠ []) (hlines : ∀ l ∈ lines, IsLine l)
    (htyped : List.Forall₂ Typed lines entries) (hdistinct : Distinct entries) :
    read (noteChars lines) = .ok (.mapping entries) := by
  obtain ⟨stop, htokens⟩ := tokens_note hne hlines
  obtain ⟨steps, index, hvalue⟩ := value_lines hne [⟨.blockEnd, stop⟩, ⟨.streamEnd, stop⟩] none
  obtain ⟨fuel, hrows⟩ := value_rows .origin [(.mappingEnd, stop)] [] none
    (by rwa [Lexer.map_snd_rows .origin lines]) hdistinct
  rw [read_eq, htokens, hvalue]
  exact hrows

/-- A key that is too long is a fault at its colon. -/
theorem read_long_key (hbefore : ∀ l ∈ before, IsLine l) (htyped : List.Forall₂ Typed before entries)
    (hdistinct : Distinct entries) (hnext : IsPair next) (hlength : 1024 < next.1.length)
    (hafter : ∀ l ∈ after, IsPair l) {key : Value} (hkey : plainValue? next.1 = some key) :
    read (noteChars (before ++ next :: after))
      = .error (.here ((linesEnd .origin before).skip next.1.length)) := by
  rw [read_eq, tokens_long_key hbefore hnext hlength hafter]
  by_cases hne : before = []
  · subst hne
    -- Nothing begins a mapping, so the key is the value of the document, which is cut off behind it.
    have hdocument : Reading.value ([⟨.scalar next.1 true, .origin⟩],
          some (.here (Mark.origin.skip next.1.length)))
        = Document.value ⟨[(.scalar none next.1 true, .origin)], [],
          some (.here (Mark.origin.skip next.1.length))⟩ := rfl
    refine hdocument.trans ?_
    simp only [Document.value, List.length_cons, List.length_nil]
    rw [node_plain, hkey]
    rfl
  · obtain ⟨steps, index, hvalue⟩ := value_lines hne []
      (some (.here ((linesEnd .origin before).skip next.1.length)))
    obtain ⟨fuel, hrows⟩ := value_rows .origin [] []
      (some (.here ((linesEnd .origin before).skip next.1.length)))
      (by rwa [Lexer.map_snd_rows .origin before]) hdistinct
    rw [if_neg hne, hvalue]
    exact hrows

/-- A value that is refused is a fault where it begins. -/
theorem read_refused {key : Value} (hbefore : ∀ l ∈ before, IsLine l)
    (htyped : List.Forall₂ Typed before entries) (hdistinct : Distinct entries) (hnext : IsLine next)
    (hkey : plainValue? next.1 = some key) (hnew : ∀ e ∈ entries, e.1.same key = false)
    (hrefused : plainValue? next.2 = none) (hafter : ∀ l ∈ after, IsPair l) :
    read (noteChars (before ++ next :: after))
      = .error (.here (valueMark (linesEnd .origin before) next)) := by
  have hlines : ∀ l ∈ before ++ [next], IsLine l := by
    intro l hl
    rcases List.mem_append.1 hl with hl | hl
    · exact hbefore l hl
    · exact List.mem_singleton.1 hl ▸ hnext
  have hne : before ++ [next] ≠ [] := by simp
  obtain ⟨more, last, htokens⟩ := tokens_lines hlines hne hafter
  obtain ⟨steps, index, hvalue⟩ := value_lines hne more last
  -- The reader stops at the value, so what is linked behind it does not matter.
  generalize link _ _ _ _ = rest at hvalue
  obtain ⟨fuel, hrows⟩ := value_rows .origin
    (rowParts (linesEnd .origin before, next) ++ rest.parts) rest.anchors rest.fault
    (by rwa [Lexer.map_snd_rows .origin before]) hdistinct
  rw [entries_row hkey hnew, hrefused] at hrows
  have hdocument : Document.behind (rows .origin (before ++ [next])) rest
      = ⟨(.mappingStart none, .origin) :: ((rows .origin before).flatMap rowParts
        ++ (rowParts (linesEnd .origin before, next) ++ rest.parts)), rest.anchors, rest.fault⟩ := by
    simp [Document.behind, Lexer.rows_append, rows]
  rw [← List.append_cons] at htokens
  rw [read_eq, htokens, hvalue, hdocument, hrows]
  rfl

end Notes

end SecretFill.Yaml
