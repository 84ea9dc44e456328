import Mathlib.Tactic.SplitIfs
import SecretFill.Yaml.Document

namespace SecretFill.Yaml

/-!
# Positions do not matter

The value of a text depends on the lexemes of its tokens, not on where they stand.  A row of tokens
that a fault cuts off tells the value too, if the document ends before the fault.

* `Tells` — one row of tokens begins another, positions apart.
* `Reading.value` — the value that a row of tokens tells.
* `value_tells` — the value that a row tells is the one that every row tells which it begins.
* `read_of_lexemes` — a text is read as its lexemes are.
-/

/-! ### Rows of tokens -/

/-- A row of tokens begins another one, positions apart; a `whole` row is all of it. -/
inductive Begins (whole : Bool) : List Token → List Token → Prop where
  /-- Both end. -/
  | nil : Begins whole [] []
  /-- A row that is not whole may end before the other. -/
  | cut {tokens : List Token} (h : whole = false) : Begins whole [] tokens
  /-- The first lexemes agree. -/
  | cons {lexeme : Lexeme} {mark mark' : Mark} {tokens others : List Token}
    (rest : Begins whole tokens others) :
    Begins whole (⟨lexeme, mark⟩ :: tokens) (⟨lexeme, mark'⟩ :: others)

variable {whole : Bool} {tokens others : List Token}

/-- The outcome over the longer row is the one over the shorter, unless that one needs more tokens
    or finds a fault. -/
def Foretells (whole : Bool) : Outcome → Outcome → Prop
  | .ok (event, p), o => ∃ mark tokens', o = .ok (⟨event.happening, mark⟩, ⟨p.phase, p.stack, tokens'⟩) ∧
      Begins whole p.tokens tokens'
  | .error none, o => whole = true → o = .error none
  | .error (some _), _ => True

/-- Of a row that is cut off nothing is foretold. -/
theorem Foretells.of_cut (h : whole = false) (o : Outcome) : Foretells whole starved o :=
  fun hwhole => absurd hwhole (by simp [h])

theorem Foretells.pop (h : Begins whole tokens others) (happening : Happening) (mark mark' : Mark)
    (stack : List Phase) :
    Foretells whole (.ok (⟨happening, mark⟩, .pop stack tokens))
      (.ok (⟨happening, mark'⟩, .pop stack others)) := by
  cases stack with
  | nil => exact ⟨mark', others, rfl, h⟩
  | cons phase stack => exact ⟨mark', others, rfl, h⟩

theorem Foretells.go (h : Begins whole tokens others) (happening : Happening) (mark mark' : Mark)
    (phase : Phase) (stack : List Phase) :
    Foretells whole (.ok (⟨happening, mark⟩, ⟨phase, stack, tokens⟩))
      (.ok (⟨happening, mark'⟩, ⟨phase, stack, others⟩)) :=
  ⟨mark', others, rfl, h⟩

theorem Begins.takeHead (h : Begins whole tokens others) :
    ((takeHead tokens).1.anchor = (takeHead others).1.anchor ∧
      (takeHead tokens).1.tag.map (fun t => (t.1, t.2.1))
        = (takeHead others).1.tag.map (fun t => (t.1, t.2.1)) ∧
      Begins whole (takeHead tokens).2 (takeHead others).2) ∨
    (takeHead tokens).2 = [] ∧ whole = false := by
  -- A head is an anchor and a tag in either order, so two lexemes decide what is taken.
  cases h with
  | nil => exact .inl ⟨rfl, rfl, .nil⟩
  | cut h => exact .inr ⟨rfl, h⟩
  | @cons lexeme mark mark' tokens others rest =>
    cases rest with
    | nil => cases lexeme <;> exact .inl ⟨rfl, rfl, by first | exact .nil | exact .cons .nil⟩
    | cut h =>
      cases lexeme with
      | anchor | tag => exact .inr ⟨rfl, h⟩
      | _ => exact .inl ⟨rfl, rfl, .cons (.cut h)⟩
    | @cons next _ _ _ _ rest =>
      cases lexeme with
      | anchor => cases next <;> exact .inl ⟨rfl, rfl, by first | exact rest | exact .cons rest⟩
      | tag => cases next <;> exact .inl ⟨rfl, rfl, by first | exact rest | exact .cons rest⟩
      | _ => exact .inl ⟨rfl, rfl, .cons (.cons rest)⟩

/-- The tag of a node in full. -/
def headTag (handles : Handles) : Option (List Char × List UInt8 × Mark) →
    Except Fault (Option (List UInt8))
  | none => .ok none
  | some (handle, suffix, mark) =>
    match fullTag? handles handle suffix with
    | some tag => .ok (some tag)
    | none => .error (.here mark)

/-- A node whose properties were read. -/
def nodeBehind (block unindented : Bool) (stack : List Phase) (start : Mark)
    (properties : Properties) (token : Token) (after : List Token) : Outcome :=
  match token.lexeme with
  | .scalar text plain => .ok (⟨.scalar properties text plain, start⟩, .pop stack after)
  | .flowSequenceStart =>
    .ok (⟨.sequenceStart properties, start⟩, ⟨.flowItem true, stack, token :: after⟩)
  | .flowMappingStart =>
    .ok (⟨.mappingStart properties, start⟩, ⟨.flowKey true, stack, token :: after⟩)
  | lexeme =>
    if unindented ∧ lexeme = .blockEntry then
      .ok (⟨.sequenceStart properties, start⟩, ⟨.unindentedItem, stack, token :: after⟩)
    else if block ∧ lexeme = .blockSequenceStart then
      .ok (⟨.sequenceStart properties, start⟩, ⟨.blockItem true, stack, token :: after⟩)
    else if block ∧ lexeme = .blockMappingStart then
      .ok (⟨.mappingStart properties, start⟩, ⟨.blockKey true, stack, token :: after⟩)
    else if properties.anchor.isSome ∨ properties.tag.isSome then
      .ok (⟨.scalar properties [] true, start⟩, .pop stack (token :: after))
    else refuse token.start

/-- The properties of a node, its first token behind them, and what follows. -/
def headed (handles : Handles) (tokens : List Token) :
    Except (Option Fault) (Properties × Token × List Token) :=
  match (takeHead tokens).2 with
  | [] => .error none
  | token :: after =>
    match headTag handles (takeHead tokens).1.tag with
    | .error fault => .error (some fault)
    | .ok tag => .ok (⟨(takeHead tokens).1.anchor, tag⟩, token, after)

theorem node_eq {handles : Handles} {block unindented : Bool} {stack : List Phase} {first : Token}
    (h : ∀ name, first.lexeme ≠ .alias name) :
    node handles block unindented stack (first :: tokens)
      = match headed handles (first :: tokens) with
        | .error fault => .error fault
        | .ok (properties, token, after) =>
          nodeBehind block unindented stack first.start properties token after := by
  obtain ⟨lexeme, mark⟩ := first
  cases lexeme with
  | «alias» name => exact absurd rfl (h name)
  | _ =>
    simp only [node, headed]
    -- From here on only what was taken off counts, whatever the first lexeme is.
    generalize takeHead (_ :: tokens) = head
    obtain ⟨⟨anchor, tag⟩, rest⟩ := head
    cases rest with
    | nil => rfl
    | cons token after =>
      cases tag with
      | none => rfl
      | some t =>
        obtain ⟨handle, suffix, mark⟩ := t
        simp only [headTag]
        cases fullTag? handles handle suffix <;> rfl

theorem Foretells.nodeBehind {block unindented : Bool} {stack : List Phase} {start start' : Mark}
    {properties : Properties} {lexeme : Lexeme} {mark mark' : Mark}
    (h : Begins whole tokens others) :
    Foretells whole (nodeBehind block unindented stack start properties ⟨lexeme, mark⟩ tokens)
      (nodeBehind block unindented stack start' properties ⟨lexeme, mark'⟩ others) := by
  have hrest : Begins whole (⟨lexeme, mark⟩ :: tokens) (⟨lexeme, mark'⟩ :: others) := .cons h
  cases lexeme with
  | scalar => exact .pop h _ _ _ _
  | flowSequenceStart | flowMappingStart => exact .go hrest _ _ _ _ _
  | _ =>
    simp only [Yaml.nodeBehind]
    -- The same tests are made of both rows, since only lexemes are tested.
    split
    · exact .go hrest _ _ _ _ _
    · split
      · exact .go hrest _ _ _ _ _
      · split
        · exact .go hrest _ _ _ _ _
        · split
          · exact .pop hrest _ _ _ _
          · trivial

theorem headTag_congr {handles : Handles} {tag tag' : Option (List Char × List UInt8 × Mark)}
    {full : Option (List UInt8)}
    (h : tag.map (fun t => (t.1, t.2.1)) = tag'.map (fun t => (t.1, t.2.1)))
    (hfull : headTag handles tag = .ok full) : headTag handles tag' = .ok full := by
  cases tag with
  | none =>
    cases tag' with
    | none => exact hfull
    | some t => simp at h
  | some t =>
    cases tag' with
    | none => simp at h
    | some t' =>
      obtain ⟨handle, suffix, mark⟩ := t
      obtain ⟨handle', suffix', mark'⟩ := t'
      simp only [Option.map_some, Option.some.injEq, Prod.mk.injEq] at h
      obtain ⟨rfl, rfl⟩ := h
      simp only [headTag] at hfull ⊢
      cases hf : fullTag? handles handle suffix with
      | some tag => rwa [hf] at hfull
      | none => simp [hf] at hfull

theorem Foretells.node {handles : Handles} {block unindented : Bool} {stack : List Phase}
    (h : Begins whole tokens others) :
    Foretells whole (node handles block unindented stack tokens)
      (node handles block unindented stack others) := by
  cases h with
  | nil => exact fun _ => rfl
  | cut h => exact .of_cut h _
  | @cons lexeme mark mark' tokens others rest =>
    by_cases halias : ∃ name, lexeme = .alias name
    · obtain ⟨name, rfl⟩ := halias
      exact .pop rest _ _ _ _
    · have hlexeme : ∀ name, lexeme ≠ .alias name := fun name h => halias ⟨name, h⟩
      have hrow : Begins whole (⟨lexeme, mark⟩ :: tokens) (⟨lexeme, mark'⟩ :: others) := .cons rest
      rw [node_eq hlexeme, node_eq hlexeme]
      -- Either both heads are taken off and the rows behind go on alike, or the shorter row is cut
      -- off within its head.
      rcases hrow.takeHead with ⟨hanchor, htag, hbegins⟩ | ⟨hnil, hcut⟩
      · simp only [headed]
        revert htag hanchor hbegins
        generalize takeHead (⟨lexeme, mark⟩ :: tokens) = head
        generalize takeHead (⟨lexeme, mark'⟩ :: others) = head'
        obtain ⟨⟨anchor, tag⟩, behind⟩ := head
        obtain ⟨⟨anchor', tag'⟩, behind'⟩ := head'
        rintro rfl htag (_ | ⟨hcut⟩ | ⟨hafter⟩)
        · exact fun _ => rfl
        · exact .of_cut hcut _
        · cases hfull : headTag handles tag with
          | error fault => trivial
          | ok full =>
            rw [headTag_congr htag hfull]
            exact .nodeBehind hafter
      · simp only [headed, hnil]
        exact .of_cut hcut _

theorem Foretells.missing (h : Begins whole tokens others) (mark mark' : Mark) (phase : Phase)
    (stack : List Phase) :
    Foretells whole (missing mark phase stack tokens) (missing mark' phase stack others) :=
  .go h _ _ _ _ _

theorem Foretells.blockPart {handles : Handles} {ends : Lexeme → Bool} {unindented : Bool}
    {indicator indicator' : Token} {next : Phase} {stack : List Phase}
    (h : Begins whole tokens others) :
    Foretells whole (blockPart handles ends unindented indicator next stack tokens)
      (blockPart handles ends unindented indicator' next stack others) := by
  cases h with
  | nil => exact fun _ => rfl
  | cut h => exact .of_cut h _
  | cons rest =>
    simp only [Yaml.blockPart]
    split
    · exact .missing (.cons rest) _ _ _ _
    · exact .node (.cons rest)

theorem Foretells.flowPart {handles : Handles} {ends : Lexeme → Bool} {next : Phase}
    {stack : List Phase} (h : Begins whole tokens others) :
    Foretells whole (flowPart handles ends next stack tokens)
      (flowPart handles ends next stack others) := by
  cases h with
  | nil => exact fun _ => rfl
  | cut h => exact .of_cut h _
  | cons rest =>
    simp only [Yaml.flowPart]
    split
    · exact .missing (.cons rest) _ _ _ _
    · exact .node (.cons rest)

theorem Foretells.flowItem {handles : Handles} {stack : List Phase}
    (h : Begins whole tokens others) :
    Foretells whole (flowItem handles stack tokens) (flowItem handles stack others) := by
  cases h with
  | nil => exact fun _ => rfl
  | cut h => exact .of_cut h _
  | @cons lexeme _ _ _ _ rest =>
    simp only [Yaml.flowItem]
    split
    · exact .go rest _ _ _ _ _
    · exact .pop rest _ _ _ _
    · exact .node (.cons rest)

theorem Foretells.flowKey {handles : Handles} {stack : List Phase}
    (h : Begins whole tokens others) :
    Foretells whole (flowKey handles stack tokens) (flowKey handles stack others) := by
  cases h with
  | nil => exact fun _ => rfl
  | cut h => exact .of_cut h _
  | @cons lexeme _ _ _ _ rest =>
    simp only [Yaml.flowKey]
    split
    · exact .flowPart rest
    · exact .pop rest _ _ _ _
    · exact .node (.cons rest)

/-- **One step** over a row comes to what it comes to over every row that it begins. -/
theorem Foretells.step {handles : Handles} {phase : Phase} {stack : List Phase}
    (h : Begins whole tokens others) :
    Foretells whole (step handles phase stack tokens) (step handles phase stack others) := by
  cases h with
  | nil => cases phase <;> exact fun _ => rfl
  | cut h => cases phase <;> exact .of_cut h _
  | @cons lexeme mark mark' tokens others rest =>
    have hrow : Begins whole (⟨lexeme, mark⟩ :: tokens) (⟨lexeme, mark'⟩ :: others) := .cons rest
    cases phase with
    | documentEnd => exact fun _ => rfl
    | root explicit =>
      simp only [Yaml.step]
      split
      · exact .pop hrow _ _ _ _
      · exact .node hrow
    | blockItem first | blockKey first =>
      -- the start token of the collection still stands before its first part
      have hchosen : Begins whole (if first then tokens else ⟨lexeme, mark⟩ :: tokens)
          (if first then others else ⟨lexeme, mark'⟩ :: others) := by
        split <;> assumption
      simp only [Yaml.step]
      revert hchosen
      generalize (if first = true then tokens else ⟨lexeme, mark⟩ :: tokens) = left
      generalize (if first = true then others else ⟨lexeme, mark'⟩ :: others) = right
      intro hchosen
      cases hchosen with
      | nil => exact fun _ => rfl
      | cut h => exact .of_cut h _
      | cons rest =>
        simp only
        split
        · exact .blockPart rest
        · exact .pop rest _ _ _ _
        · trivial
    | unindentedItem =>
      simp only [Yaml.step]
      split
      · exact .blockPart rest
      · exact .pop hrow _ _ _ _
    | blockValue =>
      simp only [Yaml.step]
      split
      · exact .blockPart rest
      · exact .missing hrow _ _ _ _
    | flowItem first =>
      cases first with
      | true => exact .flowItem rest
      | false =>
        simp only [Yaml.step]
        split
        · exact .pop rest _ _ _ _
        · exact .flowItem rest
        · trivial
    | pairKey =>
      simp only [Yaml.step]
      split
      · exact .missing rest _ _ _ _
      · exact .node hrow
    | pairValue =>
      simp only [Yaml.step]
      split
      · exact .flowPart rest
      · exact .missing hrow _ _ _ _
    | pairEnd => exact .go hrow _ _ _ _ _
    | flowKey first =>
      cases first with
      | true => exact .flowKey rest
      | false =>
        simp only [Yaml.step]
        split
        · exact .pop rest _ _ _ _
        · exact .flowKey rest
        · trivial
    | flowValue =>
      simp only [Yaml.step]
      split
      · exact .flowPart rest
      · exact .missing hrow _ _ _ _
    | flowMissing => exact .missing hrow _ _ _ _

/-! ### Events -/

/-- Tokens with the fault behind them. -/
abbrev Reading := List Token × Option Fault

/-- What is read of one text begins what is read of another: all of both, or so much of the first
    that a fault cuts it off. -/
def Tells (r r' : Reading) : Prop :=
  (r.2 = none ∧ r'.2 = none ∧ Begins true r.1 r'.1) ∨ (r.2.isSome = true ∧ Begins false r.1 r'.1)

theorem Begins.length_le (h : Begins whole tokens others) : tokens.length ≤ others.length := by
  induction h with
  | nil => exact Nat.le_refl _
  | cut => exact Nat.zero_le _
  | cons rest ih => exact Nat.succ_le_succ ih

theorem Begins.length_eq (h : Begins true tokens others) : tokens.length = others.length := by
  induction h with
  | nil => rfl
  | cut h => exact absurd h (by decide)
  | cons rest ih => exact congrArg (· + 1) ih

/-- How two rows of tokens end of which one begins the other: both are whole and equally long, and no
    fault stands behind the second, or the first one ends in a fault. -/
def EndsWithin (whole : Bool) (last last' : Option Fault) (length length' : Nat) : Prop :=
  (whole = true ∧ last' = none ∧ length = length') ∨ (last.isSome = true ∧ length ≤ length')

section EndsWithin

variable {last last' : Option Fault} {n n' : Nat}

theorem EndsWithin.of_none (h : EndsWithin whole none last' n n') :
    whole = true ∧ last' = none ∧ n = n' :=
  h.resolve_right fun h => absurd h.1 (by decide)

theorem EndsWithin.exists_succ (h : EndsWithin whole last last' (n + 1) n') :
    ∃ m, n' = m + 1 ∧ EndsWithin whole last last' n m := by
  rcases h with ⟨hwhole, hlast, rfl⟩ | ⟨hlast, hle⟩
  · exact ⟨n, rfl, .inl ⟨hwhole, hlast, rfl⟩⟩
  · exact ⟨n' - 1, by omega, .inr ⟨hlast, by omega⟩⟩

end EndsWithin

/-- **A run** without a fault comes to the same happenings over every row which its row begins. -/
theorem run_tells {handles : Handles} {last last' : Option Fault} {fuel fuel' : Nat} {p : Progress}
    {events : List Event} (h : Begins whole p.tokens others)
    (hends : EndsWithin whole last last' fuel fuel')
    (hrun : run handles last fuel p = (events, none)) :
    ∃ events', run handles last' fuel' ⟨p.phase, p.stack, others⟩ = (events', none) ∧
      events'.map (·.happening) = events.map (·.happening) := by
  induction fuel generalizing fuel' p others events with
  | zero =>
    obtain ⟨rfl, rfl⟩ : [] = events ∧ last = none := by simpa [run] using hrun
    obtain ⟨-, rfl, rfl⟩ := hends.of_none
    exact ⟨[], rfl, rfl⟩
  | succ fuel ih =>
    obtain ⟨phase, stack, tokens⟩ := p
    obtain ⟨fuel', rfl, hrest⟩ := hends.exists_succ
    by_cases hend : phase = .documentEnd
    · subst hend
      obtain ⟨rfl, hfault⟩ : [] = events ∧ (if tokens.isEmpty then last else none) = none := by
        simpa [run] using hrun
      have hnone : (if others.isEmpty then last' else none) = none := by
        cases h with
        | cons rest => rfl
        | nil | cut =>
          -- Nothing is left, so the fault at the end counts, and there is none.
          obtain rfl : last = none := by simpa using hfault
          obtain ⟨-, rfl, -⟩ := hends.of_none
          simp
      exact ⟨[], by simpa [run] using hnone, rfl⟩
    · have hstep : Foretells whole (step handles phase stack tokens)
          (step handles phase stack others) := .step h
      simp only [run, hend, if_false] at hrun ⊢
      cases hleft : step handles phase stack tokens with
      | error fault =>
        cases fault with
        | some fault => simp [hleft] at hrun
        | none =>
          -- A row that gives out without a fault is whole, so the other one gives out as well.
          obtain ⟨rfl, rfl⟩ : [] = events ∧ last = none := by simpa [hleft] using hrun
          obtain ⟨hwhole, rfl, -⟩ := hends.of_none
          rw [hleft] at hstep
          rw [hstep hwhole]
          exact ⟨[], rfl, rfl⟩
      | ok out =>
        obtain ⟨event, p⟩ := out
        rw [hleft] at hstep
        obtain ⟨mark, tokens', hright, hbegins⟩ := hstep
        simp only [hleft] at hrun
        cases hnext : run handles last fuel p with
        | mk rest fault =>
          rw [hnext] at hrun
          obtain ⟨rfl, rfl⟩ : event :: rest = events ∧ fault = none := by simpa using hrun
          obtain ⟨events', hevents, hsame⟩ := ih hbegins hrest hnext
          refine ⟨⟨event.happening, mark⟩ :: events', ?_, by simp [hsame]⟩
          simp only [hright, hevents]

/-- What is read of directives is read of every row which their row begins; if a whole row has
    directives only, so has the other. -/
theorem directives_tells (version : Bool) (handles : Handles) (h : Begins whole tokens others) :
    match directives version handles tokens with
    | .ok (handles', rest) =>
      ∃ rest', directives version handles others = .ok (handles', rest') ∧ Begins whole rest rest'
    | .error none => whole = true → directives version handles others = .error none
    | .error (some _) => True := by
  induction h generalizing version handles with
  | nil => exact fun _ => rfl
  | cut h => exact fun hwhole => absurd hwhole (by simp [h])
  | @cons lexeme mark mark' tokens others hbegins ih =>
    cases lexeme with
    | versionDirective major minor =>
      simp only [directives]
      split_ifs
      · trivial
      · exact ih true handles
    | tagDirective handle expansion =>
      simp only [directives]
      split_ifs
      · trivial
      · exact ih version _
    | documentStart => exact ⟨others, rfl, hbegins⟩
    | _ => trivial

/-- The events that a reading gives rise to. -/
def Reading.events (r : Reading) : List Event × Option Fault :=
  let fuel := 4 * r.1.length + 4
  match r.1 with
  | [] => ([], r.2)
  | token :: _ =>
    match token.lexeme with
    | .streamEnd => ([], none)
    | .versionDirective .. | .tagDirective .. | .documentStart =>
      match directives false [] r.1 with
      | .error (some fault) => ([], some fault)
      | .error none => ([], r.2)
      | .ok (handles, rest) =>
        run (handles ++ defaultHandles) r.2 fuel ⟨.root true, [.documentEnd], rest⟩
    | _ => run defaultHandles r.2 fuel ⟨.root false, [.documentEnd], r.1⟩

/-- The value that a reading gives. -/
def Reading.value (r : Reading) : Except Fault Value :=
  (link ⟨[], []⟩ 0 r.events.2 r.events.1).value

theorem read_eq (text : List Char) : read text = Reading.value (Yaml.tokens text) := rfl

theorem events_tells {r r' : Reading} (h : Tells r r') {events : List Event}
    (hr : r.events = (events, none)) :
    ∃ events', r'.events = (events', none) ∧
      events'.map (·.happening) = events.map (·.happening) := by
  obtain ⟨left, last⟩ := r
  obtain ⟨right, last'⟩ := r'
  obtain ⟨whole, hbegins, hends⟩ : ∃ whole, Begins whole left right ∧
      EndsWithin whole last last' left.length right.length := by
    rcases h with ⟨hlast, hlast', hbegins⟩ | ⟨hlast, hbegins⟩
    · exact ⟨true, hbegins, .inl ⟨rfl, hlast', hbegins.length_eq⟩⟩
    · exact ⟨false, hbegins, .inr ⟨hlast, hbegins.length_le⟩⟩
  have hfuel : EndsWithin whole last last' (4 * left.length + 4) (4 * right.length + 4) :=
    hends.imp (fun h => ⟨h.1, h.2.1, by omega⟩) fun h => ⟨h.1, by omega⟩
  -- A row that gives out without a fault is whole.
  have hempty : ([], last) = (events, none) →
      whole = true ∧ ([], last') = (([] : List Event), (none : Option Fault)) ∧ events = [] := by
    intro h
    obtain ⟨rfl, rfl⟩ : [] = events ∧ last = none := by simpa using h
    obtain ⟨hwhole, rfl, -⟩ := hends.of_none
    exact ⟨hwhole, rfl, rfl⟩
  cases hbegins with
  | nil =>
    obtain ⟨-, hright, rfl⟩ := hempty hr
    exact ⟨[], hright, rfl⟩
  | cut hcut =>
    obtain ⟨hwhole, -⟩ := hempty hr
    simp [hcut] at hwhole
  | @cons lexeme mark mark' tokens others rest =>
    have hrow : Begins whole (⟨lexeme, mark⟩ :: tokens) (⟨lexeme, mark'⟩ :: others) := .cons rest
    have hdirectives := directives_tells false [] hrow
    cases lexeme with
    | streamEnd =>
      obtain rfl : [] = events := by simpa [Reading.events] using hr
      exact ⟨[], rfl, rfl⟩
    | versionDirective | tagDirective | documentStart =>
      simp only [Reading.events] at hr ⊢
      split at hr
      · simp at hr
      · rename_i hread
        rw [hread] at hdirectives
        obtain ⟨hwhole, hright, rfl⟩ := hempty hr
        rw [hdirectives hwhole]
        exact ⟨[], hright, rfl⟩
      · rename_i hread
        rw [hread] at hdirectives
        obtain ⟨rest', hright, hbegins⟩ := hdirectives
        rw [hright]
        exact run_tells hbegins hfuel hr
    | _ => exact run_tells (p := ⟨.root false, [.documentEnd], _⟩) hrow hfuel hr

/-! ### Values -/

/-- Two documents have the same parts and anchors, positions apart. -/
structure Document.Alike (d d' : Document) : Prop where
  /-- The parts are the same. -/
  parts : d.parts.map (·.1) = d'.parts.map (·.1)
  /-- The references lead to the same places. -/
  anchors : d.anchors = d'.anchors

/-- The same is left of two documents. -/
structure Rest.Alike (s s' : Rest) : Prop where
  /-- The parts that are left are the same. -/
  parts : s.parts.map (·.1) = s'.parts.map (·.1)
  /-- As many references were followed. -/
  jumps : s.jumps = s'.jumps

theorem Rest.Alike.exists_cons {part : Part} {mark : Mark} {rest : List (Part × Mark)} {jumps : Nat}
    {s : Rest} (h : Rest.Alike ⟨(part, mark) :: rest, jumps⟩ s) :
    ∃ mark' rest', s = ⟨(part, mark') :: rest', jumps⟩ ∧
      ∀ jumps, Rest.Alike ⟨rest, jumps⟩ ⟨rest', jumps⟩ := by
  obtain ⟨parts, jumps'⟩ := s
  obtain ⟨hparts, rfl⟩ := h
  cases parts with
  | nil => simp at hparts
  | cons first rest' =>
    obtain ⟨part', mark'⟩ := first
    obtain ⟨rfl, hrest⟩ : part = part' ∧ rest.map (·.1) = rest'.map (·.1) := by simpa using hparts
    exact ⟨mark', rest', rfl, fun jumps => ⟨hrest, rfl⟩⟩

/-- Two results agree: what one comes to, the other comes to, with the same left. -/
def Agree {α : Type} (r r' : Except Fault (α × Rest)) : Prop :=
  ∀ a s, r = .ok (a, s) → ∃ s', r' = .ok (a, s') ∧ s.Alike s'

/-- Happenings alone make a document. -/
theorem link_alike {naming : Naming} {index : Nat} {fault fault' : Option Fault}
    {events events' : List Event} (h : events.map (·.happening) = events'.map (·.happening))
    (hfault : fault.isSome = fault'.isSome) :
    (link naming index fault events).Alike (link naming index fault' events') ∧
      (link naming index fault events).fault.isSome
        = (link naming index fault' events').fault.isSome := by
  induction events generalizing naming index events' with
  | nil =>
    obtain rfl : events' = [] := by simpa using h.symm
    exact ⟨⟨rfl, rfl⟩, hfault⟩
  | cons event rest ih =>
    cases events' with
    | nil => simp at h
    | cons event' rest' =>
      obtain ⟨happening, mark⟩ := event
      obtain ⟨happening', mark'⟩ := event'
      obtain ⟨rfl, hrest⟩ : happening = happening' ∧
          rest.map (·.happening) = rest'.map (·.happening) := by simpa using h
      -- A part that is linked without looking at the anchors.
      have hgo : ∀ naming (part : Part),
          Document.Alike { link naming (index + 1) fault rest with
              parts := (part, mark) :: (link naming (index + 1) fault rest).parts }
            { link naming (index + 1) fault' rest' with
              parts := (part, mark') :: (link naming (index + 1) fault' rest').parts } ∧
          (link naming (index + 1) fault rest).fault.isSome
            = (link naming (index + 1) fault' rest').fault.isSome := by
        intro naming part
        obtain ⟨⟨hparts, hanchors⟩, hfault⟩ : (link naming (index + 1) fault rest).Alike
            (link naming (index + 1) fault' rest') ∧ _ := ih hrest
        exact ⟨⟨by simp [hparts], hanchors⟩, hfault⟩
      cases happening with
      | «alias» name =>
        simp only [link]
        cases naming.names.lookup name with
        | none => exact ⟨⟨rfl, rfl⟩, rfl⟩
        | some number => exact hgo _ _
      | _ => exact hgo _ _

theorem Agree.bind {α β : Type} {r r' : Except Fault (α × Rest)}
    {f f' : α × Rest → Except Fault (β × Rest)} (h : Agree r r')
    (hf : ∀ a s s', s.Alike s' → Agree (f (a, s)) (f' (a, s'))) :
    Agree (r >>= f) (r' >>= f') := by
  intro b t hb
  cases r with
  | error fault => cases hb
  | ok out =>
    obtain ⟨a, s⟩ := out
    obtain ⟨s', rfl, hs⟩ := h a s rfl
    exact hf a s s' hs b t hb

theorem Agree.ok {α : Type} {a : α} {s s' : Rest} (h : s.Alike s') :
    Agree (.ok (a, s)) (.ok (a, s')) := by
  rintro _ _ ⟨⟩
  exact ⟨s', rfl, h⟩

theorem Agree.error {α : Type} {fault : Fault} {r : Except Fault (α × Rest)} :
    Agree (.error fault) r := by
  rintro _ _ ⟨⟩

namespace Document

variable {d d' : Document}

/-- A reference leads to the same parts. -/
theorem Alike.jump (h : d.Alike d') {number jumps : Nat} {s : Rest}
    (hs : d.jump number jumps = .ok s) : ∃ s', d'.jump number jumps = .ok s' ∧ s.Alike s' := by
  have hlength : d.parts.length = d'.parts.length := by
    simpa using congrArg List.length h.parts
  simp only [Document.jump, maxJumps, hlength, h.anchors] at hs ⊢
  split at hs
  · cases hs
  · rename_i hjumps
    cases hindex : d'.anchors.lookup number with
    | none => simp [hindex] at hs
    | some index =>
      obtain rfl : ⟨d.parts.drop index, jumps + 1⟩ = s := by simpa [hindex] using hs
      exact ⟨⟨d'.parts.drop index, jumps + 1⟩, by simp [hjumps],
        ⟨by simp [List.map_drop, h.parts], rfl⟩⟩

/-- With so much fuel, what is left of two documents is read alike. -/
structure ReadsAlike (d d' : Document) (fuel : Nat) : Prop where
  /-- A node. -/
  node : ∀ depth tagged s s', s.Alike s' →
    Agree (d.node fuel depth tagged s) (d'.node fuel depth tagged s')
  /-- The items of a sequence. -/
  items : ∀ depth s s', s.Alike s' → Agree (d.items fuel depth s) (d'.items fuel depth s')
  /-- The entries of a mapping. -/
  entries : ∀ depth mark mark' before s s', s.Alike s' →
    Agree (d.entries fuel depth mark before s) (d'.entries fuel depth mark' before s')

namespace ReadsAlike

variable {fuel : Nat} {s s' : Rest}

/-- A node behind a reference. -/
theorem reference (h : ReadsAlike d d' fuel) (hd : d.Alike d') {depth number : Nat} {tagged : Bool}
    {mark mark' : Mark} {rest rest' : List (Part × Mark)} {jumps : Nat}
    (hleft : ∀ jumps, Rest.Alike ⟨rest, jumps⟩ ⟨rest', jumps⟩) :
    Agree (d.node (fuel + 1) depth tagged ⟨(.reference number, mark) :: rest, jumps⟩)
      (d'.node (fuel + 1) depth tagged ⟨(.reference number, mark') :: rest', jumps⟩) := by
  intro value s hvalue
  simp only [Document.node] at hvalue ⊢
  cases hjump : d.jump number jumps with
  | error fault => simp [hjump, bind, Except.bind] at hvalue
  | ok target =>
    obtain ⟨target', hjump', htarget⟩ := hd.jump hjump
    rw [hjump] at hvalue
    rw [hjump']
    have hread : Agree
        (d.node fuel depth false target >>= fun out =>
          pure (out.1, (⟨rest, out.2.jumps⟩ : Rest)))
        (d'.node fuel depth false target' >>= fun out =>
          pure (out.1, (⟨rest', out.2.jumps⟩ : Rest))) :=
      (h.node _ _ _ _ htarget).bind fun value s s' hs => .ok (hs.jumps ▸ hleft _)
    exact hread value s hvalue

theorem node_succ (h : ReadsAlike d d' fuel) (hd : d.Alike d') (depth : Nat) (tagged : Bool)
    (hs : s.Alike s') :
    Agree (d.node (fuel + 1) depth tagged s) (d'.node (fuel + 1) depth tagged s') := by
  obtain ⟨_ | ⟨⟨part, mark⟩, rest⟩, jumps⟩ := s
  · rw [Document.node]
    exact .error
  · obtain ⟨mark', rest', rfl, hleft⟩ := hs.exists_cons
    have htagged : ∀ name, Agree
        (d.node fuel depth true ⟨(part, mark) :: rest, jumps⟩ >>= fun out =>
          pure (Value.tagged name out.1, out.2))
        (d'.node fuel depth true ⟨(part, mark') :: rest', jumps⟩ >>= fun out =>
          pure (Value.tagged name out.1, out.2)) :=
      fun name => (h.node _ _ _ _ hs).bind fun value s s' hs => .ok hs
    cases part with
    | reference number => exact h.reference hd hleft
    | scalar tag text plain =>
      simp only [Document.node]
      split
      · exact htagged _
      · split
        · exact .ok (hleft _)
        · exact .error
    | sequenceStart tag =>
      simp only [Document.node]
      split
      · exact htagged _
      · exact .error
      · exact (h.items _ _ _ (hleft _)).bind fun items s s' hs => .ok hs
    | mappingStart tag =>
      simp only [Document.node]
      split
      · exact htagged _
      · exact .error
      · exact (h.entries _ _ _ _ _ _ (hleft _)).bind fun entries s s' hs => .ok hs
    | sequenceEnd | mappingEnd => exact .error

theorem items_succ (h : ReadsAlike d d' fuel) (depth : Nat) (hs : s.Alike s') :
    Agree (d.items (fuel + 1) depth s) (d'.items (fuel + 1) depth s') := by
  obtain ⟨_ | ⟨⟨part, mark⟩, rest⟩, jumps⟩ := s
  · rw [Document.items]
    exact .error
  · obtain ⟨mark', rest', rfl, hleft⟩ := hs.exists_cons
    cases part with
    | sequenceEnd => exact .ok (hleft _)
    | _ =>
      simp only [Document.items]
      exact (h.node _ _ _ _ hs).bind fun item s s' hs =>
        (h.items _ _ _ hs).bind fun items s s' hs => .ok hs

theorem entries_succ (h : ReadsAlike d d' fuel) (depth : Nat) (start start' : Mark)
    (before : List (Value × Value)) (hs : s.Alike s') :
    Agree (d.entries (fuel + 1) depth start before s)
      (d'.entries (fuel + 1) depth start' before s') := by
  obtain ⟨_ | ⟨⟨part, mark⟩, rest⟩, jumps⟩ := s
  · rw [Document.entries]
    exact .error
  · obtain ⟨mark', rest', rfl, hleft⟩ := hs.exists_cons
    cases part with
    | mappingEnd => exact .ok (hleft _)
    | _ =>
      simp only [Document.entries]
      refine (h.node _ _ _ _ hs).bind fun key s s' hs => ?_
      split
      · exact .error
      · exact (h.node _ _ _ _ hs).bind fun value s s' hs => h.entries _ _ _ _ _ _ hs

end ReadsAlike

/-- Reading a node, items or entries of documents with the same parts comes to the same. -/
theorem Alike.reads (h : d.Alike d') (fuel : Nat) : ReadsAlike d d' fuel := by
  induction fuel with
  | zero =>
    refine ⟨?_, ?_, ?_⟩
    · intro depth tagged s s' _
      rw [Document.node]
      exact .error
    · intro depth s s' _
      rw [Document.items]
      exact .error
    · intro depth mark mark' before s s' _
      rw [Document.entries]
      exact .error
  | succ fuel ih =>
    exact ⟨fun depth tagged _ _ hs => ih.node_succ h depth tagged hs,
      fun depth _ _ hs => ih.items_succ depth hs,
      fun depth mark mark' before _ _ hs => ih.entries_succ depth mark mark' before hs⟩

/-- A document has a value only if no fault cuts it off. -/
theorem fault_of_value {v : Value} (h : d.value = .ok v) : d.fault = none := by
  obtain ⟨parts, anchors, fault⟩ := d
  cases fault with
  | none => rfl
  | some fault =>
    simp only [Document.value] at h
    generalize Document.node _ _ _ _ _ = r at h
    cases r <;> cases h

/-- A document without parts is empty; otherwise its value is that of its first node. -/
theorem value_eq (h : d.fault = none) :
    d.value = if d.parts = [] then .ok .null
      else (d.node (300 * (d.parts.length + 4)) maxDepth false ⟨d.parts, 0⟩).map (·.1) := by
  obtain ⟨parts, anchors, fault⟩ := d
  obtain rfl : fault = none := h
  cases parts with
  | nil => rfl
  | cons part rest =>
    simp only [Document.value, List.cons_ne_nil, if_false]
    generalize Document.node _ _ _ _ _ = r
    cases r <;> rfl

/-- Documents with the same parts have the same value. -/
theorem Alike.value (h : d.Alike d') (hfault : d'.fault = none) {v : Value} (hv : d.value = .ok v) :
    d'.value = .ok v := by
  have hlength : d.parts.length = d'.parts.length := by
    simpa using congrArg List.length h.parts
  have hnil : d.parts = [] ↔ d'.parts = [] := by
    rw [← List.length_eq_zero_iff, ← List.length_eq_zero_iff, hlength]
  rw [value_eq (fault_of_value hv)] at hv
  rw [value_eq hfault, ← hlength]
  by_cases hparts : d.parts = []
  · rw [if_pos hparts] at hv
    rwa [if_pos (hnil.1 hparts)]
  · rw [if_neg (mt hnil.2 hparts)]
    rw [if_neg hparts] at hv
    -- Both documents are read with the same fuel, since they have equally many parts.
    have hread := (h.reads (300 * (d.parts.length + 4))).node maxDepth false ⟨d.parts, 0⟩
      ⟨d'.parts, 0⟩ ⟨h.parts, rfl⟩
    cases hnode : d.node (300 * (d.parts.length + 4)) maxDepth false ⟨d.parts, 0⟩ with
    | error fault => simp [hnode, Except.map] at hv
    | ok out =>
      obtain ⟨s', hs', -⟩ := hread out.1 out.2 hnode
      rw [hnode] at hv
      rw [hs', ← hv]
      rfl

end Document

/-- The fault behind the events of a document stays behind its parts. -/
theorem fault_of_link {naming : Naming} {index : Nat} {fault : Option Fault} {events : List Event}
    (h : (link naming index fault events).fault = none) : fault = none := by
  induction events generalizing naming index with
  | nil => exact h
  | cons event rest ih =>
    obtain ⟨happening, mark⟩ := event
    cases happening with
    | «alias» name =>
      simp only [link] at h
      split at h
      · exact ih h
      · cases h
    | _ => exact ih h

/-- **The value** that a reading gives is the one that every reading gives which it begins. -/
theorem value_tells {r r' : Reading} (h : Tells r r') {v : Value} (hr : r.value = .ok v) :
    r'.value = .ok v := by
  have hlink : (link ⟨[], []⟩ 0 r.events.2 r.events.1).fault = none := Document.fault_of_value hr
  have hfault : r.events.2 = none := fault_of_link hlink
  obtain ⟨events', hevents', hsame⟩ := events_tells h (Prod.ext rfl hfault : r.events = (_, none))
  obtain ⟨halike, hnone⟩ : (link ⟨[], []⟩ 0 none r.events.1).Alike (link ⟨[], []⟩ 0 none events') ∧
      _ := link_alike hsame.symm rfl
  rw [hfault] at hlink
  rw [hlink] at hnone
  rw [Reading.value, hfault] at hr
  rw [Reading.value, hevents']
  exact halike.value (by simpa using hnone.symm) hr

/-! ### Lexemes without positions -/

/-- Tokens that all stand at the start. -/
def placed (lexemes : List Lexeme) : List Token := lexemes.map fun lexeme => ⟨lexeme, .origin⟩

/-- Only the lexemes of a row count. -/
theorem begins_of_lexemes {tokens others : List Token}
    (h : tokens.map (·.lexeme) = others.map (·.lexeme)) : Begins true tokens others := by
  induction tokens generalizing others with
  | nil =>
    obtain rfl : others = [] := by simpa using h.symm
    exact .nil
  | cons token tokens ih =>
    obtain ⟨lexeme, mark⟩ := token
    cases others with
    | nil => cases h
    | cons other others =>
      obtain ⟨lexeme', mark'⟩ := other
      obtain ⟨rfl, hrest⟩ := List.cons.inj h
      exact .cons (ih hrest)

/-- A text is read as its lexemes are. -/
theorem read_of_lexemes {text : List Char} {tokens : List Token} {lexemes : List Lexeme} {v : Value}
    (htokens : Yaml.tokens text = (tokens, none)) (hlexemes : tokens.map (·.lexeme) = lexemes)
    (hv : Reading.value (placed lexemes, none) = .ok v) : read text = .ok v := by
  rw [read_eq, htokens]
  refine value_tells (.inl ⟨rfl, rfl, begins_of_lexemes ?_⟩) hv
  simp [placed, hlexemes, Function.comp_def]

end SecretFill.Yaml
