import SecretFill.Proofs.Positions

namespace SecretFill.Yaml

/-!
# The last token of a document

A row of tokens with the end of the stream behind it gives rise to all events of its document: neither
the tokens nor the events that are counted on run out before.  A document marker in place of the end of
the stream changes none of them.

* `Progress.Ready` — the stream ends behind the tokens that are left.
* `Progress.owed` — how many events may come at most.
* `run_ready` — no fault behind the tokens is reported.
* `run_asMarker` — the end of the stream counts as a document marker.
* `events_marker` — the events of a document with a marker behind it.
-/

variable {handles : Handles} {phase : Phase} {stack : List Phase} {tokens : List Token} {token : Token}
  {event : Event} {bound : Nat}

/-! ### The end of the stream -/

/-- The stream ends behind a row of tokens. -/
def Ended (tokens : List Token) : Prop := ∃ mark, tokens.getLast? = some ⟨.streamEnd, mark⟩

theorem Ended.ne_nil (h : Ended tokens) : tokens ≠ [] := by
  rintro rfl
  obtain ⟨mark, hlast⟩ := h
  cases hlast

theorem Ended.tail (h : Ended (token :: tokens)) (hne : token.lexeme ≠ .streamEnd) : Ended tokens := by
  obtain ⟨mark, hlast⟩ := h
  cases tokens with
  | nil =>
    obtain rfl := Option.some.inj hlast
    exact absurd rfl hne
  | cons other tokens => exact ⟨mark, List.getLast?_cons_cons ▸ hlast⟩

theorem Ended.takeHead (h : Ended tokens) : Ended (takeHead tokens).2 := by
  unfold Yaml.takeHead
  split
  · exact (h.tail (by simp)).tail (by simp)
  · exact (h.tail (by simp)).tail (by simp)
  · exact h.tail (by simp)
  · exact h.tail (by simp)
  · exact h

theorem length_takeHead (tokens : List Token) : (takeHead tokens).2.length ≤ tokens.length := by
  unfold takeHead
  split <;> simp only [List.length_cons] <;> omega

/-! ### What is owed -/

/-- How many tokens still stand before the next one that counts: the start token of a collection before
    its first part. -/
def Phase.opens : Phase → Nat
  | .blockItem true | .blockKey true | .flowItem true | .flowKey true => 1
  | _ => 0

/-- How many events may come in a phase that take no token. -/
def Phase.owed : Phase → Nat
  | .root _ | .unindentedItem | .blockValue | .pairEnd | .flowValue | .flowMissing => 1
  -- A pair may lack its value, and then it ends.
  | .pairValue => 2
  | .pairKey => 3
  | _ => 0

/-- How many events may come in the phases that wait. -/
def owedBy : List Phase → Nat
  | [] => 0
  | phase :: stack => phase.owed + owedBy stack

@[simp] theorem owedBy_cons : owedBy (phase :: stack) = phase.owed + owedBy stack := rfl

/-- How many events may come at most: fewer than four for each token, besides those that take none. -/
def Progress.owed (p : Progress) : Nat := 4 * p.tokens.length + p.phase.owed + owedBy p.stack

/-- The phases that wait are past the start of their collections. -/
def Underway (stack : List Phase) : Prop := ∀ phase ∈ stack, phase.opens = 0

theorem Underway.cons (hphase : phase.opens = 0) (h : Underway stack) : Underway (phase :: stack) :=
  List.forall_mem_cons.2 ⟨hphase, h⟩

/-- The stream ends behind the tokens that are left. -/
structure Progress.Ready (p : Progress) : Prop where
  /-- The stream ends behind the tokens that count. -/
  ended : Ended (p.tokens.drop p.phase.opens)
  /-- What waits is past its start. -/
  waits : Underway p.stack

/-- An outcome that owes less than a bound.  It is not for want of tokens that there is no event. -/
def Settles (bound : Nat) : Outcome → Prop
  | .ok (_, p) => p.Ready ∧ p.owed < bound
  | .error none => False
  | .error (some _) => True

theorem Settles.go (hended : Ended (tokens.drop phase.opens)) (hwaits : Underway stack)
    (hbound : 4 * tokens.length + phase.owed + owedBy stack < bound) :
    Settles bound (.ok (event, ⟨phase, stack, tokens⟩)) := ⟨⟨hended, hwaits⟩, hbound⟩

theorem Settles.pop (hended : Ended tokens) (hwaits : Underway stack)
    (hbound : 4 * tokens.length + owedBy stack < bound) :
    Settles bound (.ok (event, .pop stack tokens)) := by
  cases stack with
  | nil => exact .go hended hwaits hbound
  | cons phase stack =>
    obtain ⟨hphase, hwaits⟩ := List.forall_mem_cons.1 hwaits
    refine .go ?_ hwaits ?_
    · rw [hphase]
      exact hended
    · rw [owedBy_cons] at hbound
      omega

theorem Settles.nodeBehind {block unindented : Bool} {start : Mark} {properties : Properties}
    (hended : Ended (token :: tokens)) (hwaits : Underway stack)
    (hbound : 4 * (tokens.length + 1) + owedBy stack + unindented.toNat < bound) :
    Settles bound (nodeBehind block unindented stack start properties token tokens) := by
  have htail : ∀ lexeme, token.lexeme = lexeme → lexeme ≠ .streamEnd → Ended tokens :=
    fun lexeme heq hne => hended.tail (heq ▸ hne)
  have hlength : (token :: tokens).length = tokens.length + 1 := rfl
  -- Whatever the node is, what it leaves owes less than the token that it took.
  unfold Yaml.nodeBehind
  split
  · rename_i heq
    exact .pop (htail _ heq (by simp)) hwaits (by omega)
  · rename_i heq
    exact .go (htail _ heq (by simp)) hwaits (by simp only [Phase.owed]; omega)
  · rename_i heq
    exact .go (htail _ heq (by simp)) hwaits (by simp only [Phase.owed]; omega)
  · split
    · rename_i hitem
      have hone : unindented.toNat = 1 := congrArg Bool.toNat hitem.1
      exact .go hended hwaits (by simp only [Phase.owed]; omega)
    · split
      · rename_i hsequence
        exact .go (htail _ hsequence.2 (by simp)) hwaits (by simp only [Phase.owed]; omega)
      · split
        · rename_i hmapping
          exact .go (htail _ hmapping.2 (by simp)) hwaits (by simp only [Phase.owed]; omega)
        · split
          · exact .pop hended hwaits (by omega)
          · trivial

theorem Settles.node {block unindented : Bool} (hended : Ended tokens)
    (hwaits : Underway stack)
    (hbound : 4 * tokens.length + owedBy stack + unindented.toNat < bound) :
    Settles bound (node handles block unindented stack tokens) := by
  obtain ⟨first, rest, rfl⟩ := List.exists_cons_of_ne_nil hended.ne_nil
  by_cases halias : ∃ name, first.lexeme = .alias name
  · obtain ⟨name, halias⟩ := halias
    obtain ⟨lexeme, mark⟩ := first
    obtain rfl : lexeme = .alias name := halias
    exact .pop (hended.tail (by simp)) hwaits (by simp only [List.length_cons] at hbound; omega)
  · rw [node_eq fun name hname => halias ⟨name, hname⟩, headed]
    -- Properties are not the end of the stream, so a token is left behind them.
    have hbehind := hended.takeHead
    have hlength := length_takeHead (first :: rest)
    obtain ⟨token, after, hcons⟩ := List.exists_cons_of_ne_nil hbehind.ne_nil
    rw [hcons] at hbehind hlength
    rw [hcons]
    cases headTag handles (takeHead (first :: rest)).1.tag with
    | error fault => trivial
    | ok tag => exact .nodeBehind hbehind hwaits (by simp only [List.length_cons] at *; omega)

theorem Settles.blockPart {ends : Lexeme → Bool} {unindented : Bool} {indicator : Token} {next : Phase}
    (hended : Ended tokens) (hnext : next.opens = 0) (hwaits : Underway stack)
    (hbound : 4 * tokens.length + next.owed + owedBy stack + 1 < bound) :
    Settles bound (blockPart handles ends unindented indicator next stack tokens) := by
  obtain ⟨token, rest, rfl⟩ := List.exists_cons_of_ne_nil hended.ne_nil
  rw [Yaml.blockPart]
  split
  · exact .go (hnext ▸ hended) hwaits (by omega)
  · have hone := Bool.toNat_le unindented
    exact .node hended (hwaits.cons hnext) (by rw [owedBy_cons]; omega)

theorem Settles.flowPart {ends : Lexeme → Bool} {next : Phase} (hended : Ended tokens)
    (hnext : next.opens = 0) (hwaits : Underway stack)
    (hbound : 4 * tokens.length + next.owed + owedBy stack < bound) :
    Settles bound (flowPart handles ends next stack tokens) := by
  obtain ⟨token, rest, rfl⟩ := List.exists_cons_of_ne_nil hended.ne_nil
  rw [Yaml.flowPart]
  split
  · exact .go (hnext ▸ hended) hwaits (by omega)
  · exact .node hended (hwaits.cons hnext)
      (by rw [owedBy_cons, Bool.toNat_false]; omega)

theorem Settles.flowItem (hended : Ended tokens) (hwaits : Underway stack)
    (hbound : 4 * tokens.length + owedBy stack < bound) :
    Settles bound (flowItem handles stack tokens) := by
  obtain ⟨token, rest, rfl⟩ := List.exists_cons_of_ne_nil hended.ne_nil
  have hlength : (token :: rest).length = rest.length + 1 := rfl
  rw [Yaml.flowItem]
  split
  · rename_i heq
    exact .go (hended.tail (by simp [heq])) hwaits (by simp only [Phase.owed]; omega)
  · rename_i heq
    exact .pop (hended.tail (by simp [heq])) hwaits (by omega)
  · exact .node hended (hwaits.cons rfl)
      (by simp only [owedBy_cons, Phase.owed, Bool.toNat_false]; omega)

theorem Settles.flowKey (hended : Ended tokens) (hwaits : Underway stack)
    (hbound : 4 * tokens.length + owedBy stack + 1 < bound) :
    Settles bound (flowKey handles stack tokens) := by
  obtain ⟨token, rest, rfl⟩ := List.exists_cons_of_ne_nil hended.ne_nil
  have hlength : (token :: rest).length = rest.length + 1 := rfl
  rw [Yaml.flowKey]
  split
  · rename_i heq
    exact .flowPart (hended.tail (by simp [heq])) rfl hwaits (by simp only [Phase.owed]; omega)
  · rename_i heq
    exact .pop (hended.tail (by simp [heq])) hwaits (by omega)
  · exact .node hended (hwaits.cons rfl)
      (by simp only [owedBy_cons, Phase.owed, Bool.toNat_false]; omega)

/-- **One step** owes less than before, and it has the tokens that it needs. -/
theorem Settles.step (handles : Handles) {p : Progress} (h : p.Ready)
    (hphase : p.phase ≠ .documentEnd) : Settles p.owed (step handles p.phase p.stack p.tokens) := by
  obtain ⟨phase, stack, tokens⟩ := p
  obtain ⟨hended, hwaits⟩ := h
  simp only [Progress.owed] at hended hwaits hphase ⊢
  cases tokens with
  | nil => exact absurd List.drop_nil hended.ne_nil
  | cons token tokens =>
    have hlength : (token :: tokens).length = tokens.length + 1 := rfl
    cases phase with
    | documentEnd => exact absurd rfl hphase
    | root explicit =>
      simp only [Yaml.step]
      split
      · exact .pop hended hwaits (by simp only [Phase.owed]; omega)
      · exact .node hended hwaits (by simp only [Phase.owed, Bool.toNat_false]; omega)
    | blockItem first | blockKey first =>
      -- the start token of the collection still stands before its first part
      have hchosen : Ended (if first then tokens else token :: tokens) := by
        cases first <;> exact hended
      have hle : (if first then tokens else token :: tokens).length ≤ tokens.length + 1 := by
        cases first <;> simp
      simp only [Yaml.step]
      revert hchosen hle
      generalize (if first = true then tokens else token :: tokens) = chosen
      intro hchosen hle
      obtain ⟨indicator, rest, rfl⟩ := List.exists_cons_of_ne_nil hchosen.ne_nil
      rw [List.length_cons] at hle
      simp only
      split
      · rename_i heq
        exact .blockPart (hchosen.tail (by simp [heq])) rfl hwaits (by simp only [Phase.owed]; omega)
      · rename_i heq
        exact .pop (hchosen.tail (by simp [heq])) hwaits (by omega)
      · trivial
    | unindentedItem =>
      simp only [Yaml.step]
      split
      · rename_i heq
        exact .blockPart (hended.tail (by simp [heq])) rfl hwaits (by simp only [Phase.owed]; omega)
      · exact .pop hended hwaits (by simp only [Phase.owed]; omega)
    | blockValue =>
      simp only [Yaml.step]
      split
      · rename_i heq
        exact .blockPart (hended.tail (by simp [heq])) rfl hwaits (by simp only [Phase.owed]; omega)
      · exact .go hended hwaits (by simp only [Phase.owed]; omega)
    | flowItem first =>
      cases first with
      | true => exact .flowItem hended hwaits (by omega)
      | false =>
        simp only [Yaml.step]
        split
        · rename_i heq
          exact .pop (hended.tail (by simp [heq])) hwaits (by omega)
        · rename_i heq
          exact .flowItem (hended.tail (by simp [heq])) hwaits (by omega)
        · trivial
    | pairKey =>
      simp only [Yaml.step]
      split
      · rename_i hends
        have hne : token.lexeme ≠ .streamEnd := fun heq => by rw [heq] at hends; cases hends
        exact .go (hended.tail hne) hwaits (by simp only [Phase.owed]; omega)
      · exact .node hended (hwaits.cons rfl)
          (by simp only [owedBy_cons, Phase.owed, Bool.toNat_false]; omega)
    | pairValue =>
      simp only [Yaml.step]
      split
      · rename_i heq
        exact .flowPart (hended.tail (by simp [heq])) rfl hwaits (by simp only [Phase.owed]; omega)
      · exact .go hended hwaits (by simp only [Phase.owed]; omega)
    | pairEnd => exact .go hended hwaits (by simp only [Phase.owed]; omega)
    | flowKey first =>
      cases first with
      | true => exact .flowKey hended hwaits (by omega)
      | false =>
        simp only [Yaml.step]
        split
        · rename_i heq
          exact .pop (hended.tail (by simp [heq])) hwaits (by omega)
        · rename_i heq
          exact .flowKey (hended.tail (by simp [heq])) hwaits (by omega)
        · trivial
    | flowValue =>
      simp only [Yaml.step]
      split
      · rename_i heq
        exact .flowPart (hended.tail (by simp [heq])) rfl hwaits (by simp only [Phase.owed]; omega)
      · exact .go hended hwaits (by simp only [Phase.owed]; omega)
    | flowMissing => exact .go hended hwaits (by simp only [Phase.owed]; omega)

/-- **A run** ends with its document: neither its tokens nor the events that are counted on run out
    before, so it does not come to the fault behind them. -/
theorem run_ready {last last' : Option Fault} {fuel : Nat} {p : Progress} (h : p.Ready)
    (hfuel : p.owed < fuel) : run handles last fuel p = run handles last' fuel p := by
  -- Each event lowers what is owed, so the fuel outlasts the document.
  induction fuel generalizing p with
  | zero => cases hfuel
  | succ fuel ih =>
    have hsettles := Settles.step handles h
    obtain ⟨phase, stack, tokens⟩ := p
    simp only [run]
    split
    · rename_i hend
      subst hend
      have hne : tokens.isEmpty = false := List.isEmpty_eq_false_iff.2 h.ended.ne_nil
      rw [hne]
      rfl
    · rename_i hphase
      have hsettles := hsettles hphase
      cases hstep : step handles phase stack tokens with
      | error fault =>
        rw [hstep] at hsettles
        cases fault with
        | none => exact hsettles.elim
        | some fault => rfl
      | ok out =>
        rw [hstep] at hsettles
        obtain ⟨hready, hlower⟩ := hsettles
        simp only [ih hready (Nat.lt_of_lt_of_le hlower (Nat.le_of_lt_succ hfuel))]

/-! ### The end of the stream as a document marker -/

/-- A document marker for the end of the stream. -/
def Lexeme.asMarker : Lexeme → Lexeme
  | .streamEnd => .documentStart
  | lexeme => lexeme

/-- The same for a token. -/
def Token.asMarker (token : Token) : Token := ⟨token.lexeme.asMarker, token.start⟩

@[simp] theorem asMarker_lexeme : token.asMarker.lexeme = token.lexeme.asMarker := rfl

@[simp] theorem asMarker_start : token.asMarker.start = token.start := rfl

/-- The same for the tokens that are left behind an event. -/
def withMarkers : Outcome → Outcome :=
  Except.map fun out => (out.1, { out.2 with tokens := out.2.tokens.map Token.asMarker })

theorem apply_asMarker {ends : Lexeme → Bool} (h : ends .documentStart = ends .streamEnd)
    (lexeme : Lexeme) : ends lexeme.asMarker = ends lexeme := by
  cases lexeme with
  | streamEnd => exact h
  | _ => rfl

theorem withMarkers_pop (event : Event) (stack : List Phase) (tokens : List Token) :
    withMarkers (.ok (event, .pop stack tokens))
    = .ok (event, .pop stack (tokens.map Token.asMarker)) := by
  cases stack <;> rfl

theorem takeHead_asMarker : takeHead (tokens.map Token.asMarker)
    = ((takeHead tokens).1, (takeHead tokens).2.map Token.asMarker) := by
  cases tokens with
  | nil => rfl
  | cons token rest =>
    obtain ⟨lexeme, mark⟩ := token
    cases rest with
    | nil => cases lexeme <;> rfl
    | cons next rest =>
      obtain ⟨next, mark'⟩ := next
      cases lexeme with
      | anchor | tag => cases next <;> rfl
      | _ => rfl

theorem headed_asMarker (handles : Handles) (tokens : List Token) :
    headed handles (tokens.map Token.asMarker) = (headed handles tokens).map fun out =>
      (out.1, out.2.1.asMarker, out.2.2.map Token.asMarker) := by
  simp only [headed, takeHead_asMarker]
  cases (takeHead tokens).2 with
  | nil => rfl
  | cons token after =>
    simp only [List.map_cons]
    cases headTag handles (takeHead tokens).1.tag <;> rfl

theorem nodeBehind_asMarker {block unindented : Bool} {start : Mark} {properties : Properties} :
    nodeBehind block unindented stack start properties token.asMarker (tokens.map Token.asMarker)
      = withMarkers (nodeBehind block unindented stack start properties token tokens) := by
  obtain ⟨lexeme, mark⟩ := token
  cases lexeme with
  | scalar => exact (withMarkers_pop _ _ _).symm
  | flowSequenceStart | flowMappingStart => rfl
  -- What remains is compared with signs that are neither of the two.
  | _ =>
    simp only [nodeBehind, Token.asMarker, Lexeme.asMarker, reduceCtorEq, and_false, if_false,
      and_true, apply_ite withMarkers, withMarkers_pop]
    rfl

theorem node_asMarker (handles : Handles) (block unindented : Bool) (stack : List Phase)
    (tokens : List Token) : node handles block unindented stack (tokens.map Token.asMarker)
      = withMarkers (node handles block unindented stack tokens) := by
  cases tokens with
  | nil => rfl
  | cons token rest =>
    by_cases halias : ∃ name, token.lexeme = .alias name
    · obtain ⟨name, halias⟩ := halias
      obtain ⟨lexeme, mark⟩ := token
      obtain rfl : lexeme = .alias name := halias
      exact (withMarkers_pop _ _ _).symm
    · have hlexeme : ∀ name, token.lexeme ≠ .alias name := fun name hname => halias ⟨name, hname⟩
      have hlexeme' : ∀ name, token.asMarker.lexeme ≠ .alias name := by
        intro name hname
        obtain ⟨lexeme, mark⟩ := token
        cases lexeme with
        | «alias» other => exact hlexeme other rfl
        | _ => cases hname
      have hheaded := headed_asMarker handles (token :: rest)
      rw [List.map_cons] at hheaded ⊢
      rw [node_eq hlexeme', node_eq hlexeme, hheaded]
      cases headed handles (token :: rest) with
      | error fault => rfl
      | ok out => exact nodeBehind_asMarker

theorem blockPart_asMarker {ends : Lexeme → Bool} {unindented : Bool} {indicator : Token}
    {next : Phase} (hends : ends .documentStart = ends .streamEnd) :
    blockPart handles ends unindented indicator next stack (tokens.map Token.asMarker)
      = withMarkers (blockPart handles ends unindented indicator next stack tokens) := by
  cases tokens with
  | nil => rfl
  | cons token rest =>
    have hnode := node_asMarker handles true unindented (next :: stack) (token :: rest)
    rw [List.map_cons] at hnode ⊢
    rw [blockPart, blockPart, hnode, Token.asMarker, apply_asMarker hends, apply_ite withMarkers]
    rfl

theorem flowPart_asMarker {ends : Lexeme → Bool} {next : Phase}
    (hends : ends .documentStart = ends .streamEnd) :
    flowPart handles ends next stack (tokens.map Token.asMarker)
      = withMarkers (flowPart handles ends next stack tokens) := by
  cases tokens with
  | nil => rfl
  | cons token rest =>
    have hnode := node_asMarker handles false false (next :: stack) (token :: rest)
    rw [List.map_cons] at hnode ⊢
    rw [flowPart, flowPart, hnode, Token.asMarker, apply_asMarker hends, apply_ite withMarkers]
    rfl

theorem flowItem_asMarker : flowItem handles stack (tokens.map Token.asMarker)
    = withMarkers (flowItem handles stack tokens) := by
  cases tokens with
  | nil => rfl
  | cons token rest =>
    obtain ⟨lexeme, mark⟩ := token
    have hnode := node_asMarker handles false false (.flowItem false :: stack) (⟨lexeme, mark⟩ :: rest)
    cases lexeme with
    | key => rfl
    | flowSequenceEnd => exact (withMarkers_pop _ _ _).symm
    | _ => exact hnode

theorem flowKey_asMarker : flowKey handles stack (tokens.map Token.asMarker)
    = withMarkers (flowKey handles stack tokens) := by
  cases tokens with
  | nil => rfl
  | cons token rest =>
    obtain ⟨lexeme, mark⟩ := token
    have hnode := node_asMarker handles false false (.flowMissing :: stack) (⟨lexeme, mark⟩ :: rest)
    cases lexeme with
    | key => exact flowPart_asMarker rfl
    | flowMappingEnd => exact (withMarkers_pop _ _ _).symm
    | _ => exact hnode

/-- **One step** tells the end of the stream from a document marker nowhere. -/
theorem step_asMarker : step handles phase stack (tokens.map Token.asMarker)
    = withMarkers (step handles phase stack tokens) := by
  cases tokens with
  | nil => cases phase <;> rfl
  | cons token rest =>
    cases phase with
    | documentEnd => rfl
    | root explicit =>
      have hnode := node_asMarker handles true false stack (token :: rest)
      rw [List.map_cons] at hnode ⊢
      have hends := apply_asMarker (show endsDocument _ = _ from rfl) token.lexeme
      simp only [step, hnode, asMarker_lexeme, asMarker_start, hends, apply_ite withMarkers,
        withMarkers_pop, List.map_cons]
    | blockItem first | blockKey first =>
      -- the start token of the collection still stands before its first part
      have hchosen : (if first then rest.map Token.asMarker else (token :: rest).map Token.asMarker)
          = (if first then rest else token :: rest).map Token.asMarker := by
        split <;> rfl
      simp only [step, List.map_cons] at hchosen ⊢
      rw [hchosen]
      generalize (if first = true then rest else token :: rest) = chosen
      cases chosen with
      | nil => rfl
      | cons indicator after =>
        obtain ⟨lexeme, mark⟩ := indicator
        cases lexeme with
        | blockEntry | key => first | exact blockPart_asMarker rfl | rfl
        | blockEnd => exact (withMarkers_pop _ _ _).symm
        | _ => rfl
    | unindentedItem =>
      obtain ⟨lexeme, mark⟩ := token
      have hpop := withMarkers_pop ⟨.sequenceEnd, mark⟩ stack (⟨lexeme, mark⟩ :: rest)
      cases lexeme with
      | blockEntry => exact blockPart_asMarker rfl
      | _ => exact hpop.symm
    | blockValue =>
      obtain ⟨lexeme, mark⟩ := token
      cases lexeme with
      | value => exact blockPart_asMarker rfl
      | _ => rfl
    | flowItem first =>
      cases first with
      | true => exact flowItem_asMarker
      | false =>
        obtain ⟨lexeme, mark⟩ := token
        cases lexeme with
        | flowSequenceEnd => exact (withMarkers_pop _ _ _).symm
        | flowEntry => exact flowItem_asMarker
        | _ => rfl
    | pairKey =>
      have hnode := node_asMarker handles false false (.pairValue :: stack) (token :: rest)
      rw [List.map_cons] at hnode ⊢
      have hends := apply_asMarker (show endsPairKey _ = _ from rfl) token.lexeme
      simp only [step, hnode, asMarker_lexeme, asMarker_start, hends, apply_ite withMarkers]
      rfl
    | pairValue =>
      obtain ⟨lexeme, mark⟩ := token
      cases lexeme with
      | value => exact flowPart_asMarker rfl
      | _ => rfl
    | pairEnd => rfl
    | flowKey first =>
      cases first with
      | true => exact flowKey_asMarker
      | false =>
        obtain ⟨lexeme, mark⟩ := token
        cases lexeme with
        | flowMappingEnd => exact (withMarkers_pop _ _ _).symm
        | flowEntry => exact flowKey_asMarker
        | _ => rfl
    | flowValue =>
      obtain ⟨lexeme, mark⟩ := token
      cases lexeme with
      | value => exact flowPart_asMarker rfl
      | _ => rfl
    | flowMissing => rfl

/-- **A run** comes to the same events with a document marker for the end of the stream. -/
theorem run_asMarker {last : Option Fault} {fuel : Nat} : run handles last fuel
    ⟨phase, stack, tokens.map Token.asMarker⟩ = run handles last fuel ⟨phase, stack, tokens⟩ := by
  induction fuel generalizing phase stack tokens with
  | zero => rfl
  | succ fuel ih =>
    simp only [run, step_asMarker, List.isEmpty_map]
    split
    · rfl
    · cases step handles phase stack tokens with
      | error fault => cases fault <;> rfl
      | ok out => simp only [withMarkers, Except.map, ih]

/-! ### Documents -/

section Documents

variable {left rest : List Token} {mark : Mark} {fuel : Nat}

/-- The events of a document with a marker behind it. -/
theorem run_marker {explicit : Bool} (left : List Token) {last last' : Option Fault}
    (hfuel : 4 * (left.length + 1) + 1 < fuel) :
    run handles last fuel ⟨.root explicit, [.documentEnd], left ++ [⟨.documentStart, mark⟩]⟩
      = run handles last' fuel ⟨.root explicit, [.documentEnd], left ++ [⟨.streamEnd, mark⟩]⟩ := by
  have hready : Progress.Ready
      ⟨.root explicit, [.documentEnd], left ++ [⟨.streamEnd, mark⟩]⟩ :=
    ⟨⟨mark, List.getLast?_concat⟩, by simp [Underway, Phase.opens]⟩
  have howed : Progress.owed ⟨.root explicit, [.documentEnd], left ++ [⟨.streamEnd, mark⟩]⟩ < fuel := by
    simpa [Progress.owed, Phase.owed, owedBy] using hfuel
  -- Both rows become the same one when the end of the stream counts as a marker.
  have hmarkers : (left ++ [(⟨.documentStart, mark⟩ : Token)]).map Token.asMarker
      = (left ++ [(⟨.streamEnd, mark⟩ : Token)]).map Token.asMarker := by
    simp [Token.asMarker, Lexeme.asMarker]
  rw [← run_asMarker, hmarkers, run_asMarker, run_ready hready howed]

/-- Directives come to an end before the last token. -/
theorem directives_marker {version : Bool} {handles handles' : Handles} (left : List Token)
    (h : directives version handles (left ++ [⟨.streamEnd, mark⟩]) = .ok (handles', rest)) :
    ∃ behind, behind.length ≤ left.length ∧ rest = behind ++ [⟨.streamEnd, mark⟩] ∧
      ∀ token, directives version handles (left ++ [token]) = .ok (handles', behind ++ [token]) := by
  induction left generalizing version handles with
  | nil => cases h
  | cons first left ih =>
    -- A directive that is accepted leaves the rest of the row to the induction.
    have hstep : ∀ {version handles}, directives version handles (left ++ [⟨.streamEnd, mark⟩])
        = .ok (handles', rest) → ∃ behind, behind.length ≤ left.length + 1 ∧
        rest = behind ++ [⟨.streamEnd, mark⟩] ∧
        ∀ token, directives version handles (left ++ [token]) = .ok (handles', behind ++ [token]) :=
      fun h => (ih h).imp fun behind h => ⟨Nat.le_succ_of_le h.1, h.2⟩
    simp only [List.cons_append, directives, List.length_cons] at h ⊢
    split at h
    · split at h
      · cases h
      · rename_i hversion
        simp only [hversion]
        exact hstep h
    · split at h
      · cases h
      · rename_i hhandle
        simp only [hhandle]
        exact hstep h
    · obtain ⟨rfl, rfl⟩ := Prod.mk.inj (Except.ok.inj h)
      exact ⟨left, Nat.le_succ _, rfl, fun _ => rfl⟩
    · cases h

/-- **A document marker** behind a document that has events changes none of them, whatever fault comes
    next. -/
theorem events_marker {last : Option Fault} {events : List Event}
    (h : Reading.events (left ++ [⟨.streamEnd, mark⟩], none) = (events, none)) (hne : events ≠ []) :
    Reading.events (left ++ [⟨.documentStart, mark⟩], last) = (events, none) := by
  cases left with
  | nil => exact absurd (Prod.mk.inj h).1.symm hne
  | cons first left =>
    have hlength : ∀ token : Token, (first :: left ++ [token]).length = left.length + 2 := fun token =>
      List.length_append
    simp only [Reading.events, hlength] at h ⊢
    simp only [List.cons_append] at h ⊢
    split at h
    case h_1 => exact absurd (Prod.mk.inj h).1.symm hne
    -- Directives are read up to the marker of the document, and the run begins behind it.
    case h_2 | h_3 | h_4 =>
      split at h
      · cases (Prod.mk.inj h).2
      · exact absurd (Prod.mk.inj h).1.symm hne
      · rename_i hread
        obtain ⟨behind, hle, rfl, hmarker⟩ := directives_marker (first :: left) hread
        rw [List.length_cons] at hle
        have hread' := hmarker ⟨.documentStart, mark⟩
        rw [List.cons_append] at hread'
        rw [hread']
        exact (run_marker behind (by omega)).trans h
    -- Without directives the run begins at the first token.
    case h_5 => exact (run_marker (first :: left) (by rw [List.length_cons]; omega)).trans h

end Documents

end SecretFill.Yaml
