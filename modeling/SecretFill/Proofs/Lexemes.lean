import SecretFill.Proofs.Seams

namespace SecretFill.Yaml

/-!
# What a lexeme does to the lexer

The lexer chooses by the text at its cursor what it reads next, and then reads it.  Whatever it reads,
its cursor moves on, no token is lost, and a key that may have begun stands before what was read.

* `Lexer.choose`, `Lexer.perform` — the choice and what is done for it; `Lexer.fetchHere_eq`.
* `Lexer.dropStale_eq`, `Lexer.noteCandidate_eq` — keys that may have begun are dropped and noted.
* `Lexer.Fair` — what holds of them between two lexemes.
* `Lexer.perform_passes` — every lexeme takes a character of the text.
-/

namespace Lexer

open Cursor

/-! ### Which lexeme stands at the cursor -/

/-- What the lexer reads next. -/
inductive Choice where
  /-- The end of the text. -/
  | finish
  /-- A directive. -/
  | directive
  /-- A document marker. -/
  | marker (lexeme : Lexeme)
  /-- An opening bracket. -/
  | opening (lexeme : Lexeme)
  /-- A closing bracket. -/
  | closing (lexeme : Lexeme)
  /-- A comma. -/
  | comma
  /-- The hyphen of a block sequence. -/
  | entry
  /-- The question mark before a key. -/
  | key
  /-- The colon behind a key. -/
  | value
  /-- An anchor or a reference to one. -/
  | name (lexeme : List Char → Lexeme)
  /-- A tag. -/
  | tag
  /-- A block scalar. -/
  | block (folded : Bool)
  /-- A quoted scalar. -/
  | quoted (double : Bool)
  /-- A plain scalar. -/
  | plain
  /-- Nothing that may stand here. -/
  | fault

/-- What begins a node or a property of one. -/
def chooseNode (flow : Bool) (c : Char) (rest : List Char) : Choice :=
  if c = '*' then .name .alias
  else if c = '&' then .name .anchor
  else if c = '!' then .tag
  else if c = '|' ∧ !flow then .block false
  else if c = '>' ∧ !flow then .block true
  else if c = '\'' then .quoted false
  else if c = '"' then .quoted true
  else if beginsPlain flow (c :: rest) then .plain
  else .fault

/-- What has a sign of its own, or else what begins a node. -/
def chooseSign (flow : Bool) (c : Char) (rest : List Char) : Choice :=
  if c = '[' then .opening .flowSequenceStart
  else if c = '{' then .opening .flowMappingStart
  else if c = ']' then .closing .flowSequenceEnd
  else if c = '}' then .closing .flowMappingEnd
  else if c = ',' then .comma
  else if c = '-' ∧ atSeparation rest then .entry
  else if c = '?' ∧ (flow ∨ atSeparation rest) then .key
  else if c = ':' ∧ (flow ∨ atSeparation rest) then .value
  else chooseNode flow c rest

/-- What the lexer reads next, inside brackets or not, at this column and before this text. -/
def choose (flow : Bool) (column : Nat) : List Char → Choice
  | [] => .finish
  | c :: rest =>
    if column = 0 ∧ c = '%' then .directive
    else if column = 0 ∧ atDocumentStart (c :: rest) then .marker .documentStart
    else if column = 0 ∧ atDocumentEnd (c :: rest) then .marker .documentEnd
    else chooseSign flow c rest

/-- Reads a lexeme. -/
def perform (s : Lexer) : Choice → Except Fault Lexer
  | .finish => s.fetchEnd
  | .directive => s.fetchDirective
  | .marker lexeme => s.fetchMarker lexeme
  | .opening lexeme => s.fetchOpen lexeme
  | .closing lexeme => s.fetchClose lexeme
  | .comma => s.fetchComma
  | .entry => s.fetchEntry
  | .key => s.fetchKey
  | .value => s.fetchValue
  | .name lexeme => s.fetchName lexeme
  | .tag => s.fetchTag
  | .block folded => s.fetchBlock folded
  | .quoted double => s.fetchQuoted (if double then doubleQuoted else singleQuoted)
  | .plain => s.fetchPlain
  | .fault => .error (.here s.cursor.mark)

theorem fetchHere_eq (s : Lexer) :
    s.fetchHere = s.perform (choose s.inFlow s.cursor.mark.column s.cursor.rest) := by
  unfold fetchHere
  cases s.cursor.rest with
  | nil => rfl
  | cons c rest =>
    simp only [choose, chooseSign, chooseNode, apply_ite s.perform]
    rfl

/-- Leaving margins leaves open whether the lexer is inside brackets. -/
theorem unroll_eq (s : Lexer) (target : Nat) :
    s.unroll target = { s with
      margin := (s.unroll target).margin
      outerMargins := (s.unroll target).outerMargins
      pending := (s.unroll target).pending } := by
  unfold unroll
  split
  · rfl
  · rfl

@[simp] theorem unroll_cursor (s : Lexer) (target : Nat) : (s.unroll target).cursor = s.cursor := by
  rw [unroll_eq]

/-- Reads the lexeme at the cursor; all white space before it was skipped. -/
def proceed (s : Lexer) : Except Fault Lexer := s.dropStale >>= fun s =>
  (s.unroll (s.cursor.mark.column + 1)).perform
    (choose s.inFlow s.cursor.mark.column s.cursor.rest)

theorem fetch_eq_proceed (s : Lexer) : s.fetch = s.skipSpace.proceed := by
  unfold fetch proceed
  congr 1
  funext s
  rw [fetchHere_eq, unroll_eq]
  rfl

/-! ### Keys that may have begun -/

/-- A candidate of some level of brackets. -/
def Knows (s : Lexer) (c : Candidate) : Prop := some c ∈ s.candidate :: s.outerCandidates

/-- Whether a required candidate is too far back. -/
def isLost (now : Mark) (c : Candidate) : Bool := isStale now c && c.required

theorem refresh_eq (now : Mark) (o : Option Candidate) : refresh now o =
    if o.any (isLost now) then .error (.here now) else .ok (o.filter (!isStale now ·)) := by
  cases o with
  | none => rfl
  | some c =>
    cases hstale : isStale now c <;> cases hrequired : c.required <;>
      simp [refresh, isLost, Option.filter, hstale, hrequired]

theorem mapM_refresh (now : Mark) (l : List (Option Candidate)) : l.mapM (refresh now) =
    if l.any (·.any (isLost now)) then .error (.here now)
    else .ok (l.map (·.filter (!isStale now ·))) := by
  induction l with
  | nil => rfl
  | cons o l ih =>
    rw [List.mapM_cons, ih, refresh_eq]
    -- The first candidate that is lost is a fault, wherever it stands.
    cases ho : o.any (isLost now) with
    | true =>
      simp [ho]
      rfl
    | false =>
      cases hl : l.any (·.any (isLost now)) with
      | true =>
        simp [ho, hl]
        rfl
      | false =>
        simp [ho, hl]
        rfl

/-- What is left of the candidates when those too far back are dropped. -/
def refreshed (s : Lexer) : Lexer := { s with
  candidate := s.candidate.filter (!isStale s.cursor.mark ·)
  outerCandidates := s.outerCandidates.map (·.filter (!isStale s.cursor.mark ·)) }

theorem dropStale_eq (s : Lexer) : s.dropStale =
    if (s.candidate :: s.outerCandidates).any (·.any (isLost s.cursor.mark)) then
      .error (.here s.cursor.mark)
    else .ok s.refreshed := by
  unfold dropStale
  rw [mapM_refresh, refresh_eq, List.any_cons]
  cases houter : s.outerCandidates.any (·.any (isLost s.cursor.mark)) with
  | true =>
    simp
    rfl
  | false =>
    cases hinner : s.candidate.any (isLost s.cursor.mark) with
    | true =>
      simp
      rfl
    | false =>
      simp
      rfl

/-- No required candidate is too far back if the others can be dropped. -/
theorem dropStale_eq_ok {s s' : Lexer} (h : s.dropStale = .ok s') :
    s' = s.refreshed ∧ ∀ c, s.Knows c → isLost s.cursor.mark c = false := by
  rw [dropStale_eq] at h
  split at h
  · cases h
  · rename_i hany
    refine ⟨(Except.ok.inj h).symm, fun c hc => ?_⟩
    rw [Bool.not_eq_true, List.any_eq_false] at hany
    simpa using hany _ hc

theorem knows_refreshed {s : Lexer} {c : Candidate} :
    s.refreshed.Knows c ↔ s.Knows c ∧ isStale s.cursor.mark c = false := by
  simp only [Knows, refreshed, List.mem_cons, List.mem_map]
  constructor
  · rintro (h | ⟨o, ho, h⟩)
    · obtain ⟨h, hfresh⟩ := Option.filter_eq_some_iff.1 h.symm
      exact ⟨.inl h.symm, by simpa using hfresh⟩
    · obtain ⟨rfl, hfresh⟩ := Option.filter_eq_some_iff.1 h
      exact ⟨.inr ho, by simpa using hfresh⟩
  · rintro ⟨h | h, hfresh⟩
    · exact .inl (Option.filter_eq_some_iff.2 ⟨h.symm, by simpa using hfresh⟩).symm
    · exact .inr ⟨_, h, Option.filter_eq_some_iff.2 ⟨rfl, by simpa using hfresh⟩⟩

theorem dropCandidate_eq (s : Lexer) : s.dropCandidate =
    if s.candidate.any (·.required) then .error (.here s.cursor.mark)
    else .ok { s with candidate := none } := rfl

theorem dropCandidate_eq_ok {s s' : Lexer} (h : s.dropCandidate = .ok s') :
    s' = { s with candidate := none } := by
  rw [dropCandidate_eq] at h
  split at h
  · cases h
  · exact (Except.ok.inj h).symm

theorem dropCandidate_cursor {s s' : Lexer} (h : s.dropCandidate = .ok s') :
    s'.cursor = s.cursor := by
  rw [dropCandidate_eq_ok h]

/-- The candidate that is noted at the cursor. -/
def here (s : Lexer) : Candidate where
  required := !s.inFlow && s.margin == s.cursor.mark.column + 1
  number := s.nextNumber
  mark := s.cursor.mark

theorem noteCandidate_eq (s : Lexer) : s.noteCandidate =
    if !s.keyAllowed then .ok s
    else if s.candidate.any (·.required) then .error (.here s.cursor.mark)
    else .ok { s with candidate := some s.here } := by
  unfold noteCandidate
  split
  · rfl
  · rw [dropCandidate_eq]
    split
    · rfl
    · rfl

theorem noteCandidate_eq_ok {s s' : Lexer} (h : s.noteCandidate = .ok s') :
    s' = s ∨ s' = { s with candidate := some s.here } := by
  rw [noteCandidate_eq] at h
  split at h
  · exact .inl (Except.ok.inj h).symm
  · split at h
    · cases h
    · exact .inr (Except.ok.inj h).symm

/-- Without a new candidate: the cursor moves on, no token is lost, and no candidate is new. -/
structure Narrows (s s' : Lexer) : Prop where
  /-- The cursor moves on. -/
  moves : s.cursor.Moves s'.cursor
  /-- No token is lost. -/
  number : s.nextNumber ≤ s'.nextNumber
  /-- No candidate is new. -/
  knows : ∀ c, s'.Knows c → s.Knows c
  /-- No token is given out, and the end of the text is not noted. -/
  same : s'.released = s.released ∧ s'.ended = s.ended

/-- A lexeme was read: the cursor moves over it, and a candidate that is new stands before it.  If
    that one is required, it is the only one. -/
structure Passes (s s' : Lexer) : Prop where
  /-- The cursor moves on, -/
  moves : s.cursor.Moves s'.cursor
  /-- over one character at least. -/
  shorter : s'.cursor.rest.length < s.cursor.rest.length
  /-- No token is lost. -/
  number : s.nextNumber ≤ s'.nextNumber
  /-- A new candidate stands before the lexeme. -/
  knows : ∀ c, s'.Knows c → s.Knows c ∨
    c = s.here ∧ (c.required = true → ∀ c', s'.Knows c' → c' = c)
  /-- No token is given out, and the end of the text is not noted. -/
  same : s'.released = s.released ∧ s'.ended = s.ended

/-- The candidates stand before the cursor, and a required one comes before all others. -/
structure Fair (s : Lexer) : Prop where
  /-- A candidate stands before the cursor. -/
  before : ∀ c, s.Knows c → c.mark.Before s.cursor.mark
  /-- A candidate is one of the tokens that are held back, or the next one. -/
  number : ∀ c, s.Knows c → s.released ≤ c.number ∧ c.number ≤ s.nextNumber
  /-- A required candidate comes first. -/
  first : ∀ c, s.Knows c → c.required = true → ∀ c', s.Knows c' → c.number ≤ c'.number

section Steps

variable {s s' s'' : Lexer}

theorem Narrows.refl (s : Lexer) : s.Narrows s := ⟨.refl _, Nat.le_refl _, fun _ h => h, rfl, rfl⟩

theorem Narrows.trans (h : s.Narrows s') (h' : s'.Narrows s'') : s.Narrows s'' :=
  ⟨h.moves.trans h'.moves, h.number.trans h'.number, fun c hc => h.knows c (h'.knows c hc),
    h'.same.1.trans h.same.1, h'.same.2.trans h.same.2⟩

theorem Fair.narrows (h : s.Fair) (h' : s.Narrows s') : s'.Fair where
  before c hc := by
    have hbefore := h.before c (h'.knows c hc)
    rcases h'.moves.eq_or_before with heq | ⟨-, hmoves⟩
    · rw [heq]
      exact hbefore
    · exact hbefore.trans hmoves
  number c hc := by
    obtain ⟨hreleased, hnumber⟩ := h.number c (h'.knows c hc)
    exact ⟨h'.same.1 ▸ hreleased, hnumber.trans h'.number⟩
  first c hc hrequired c' hc' := h.first c (h'.knows c hc) hrequired c' (h'.knows c' hc')

theorem Fair.passes (h : s.Fair) (h' : s.Passes s') : s'.Fair where
  before c hc := by
    have hmoves : s.cursor.mark.Before s'.cursor.mark := by
      refine (h'.moves.eq_or_before.resolve_left fun heq => ?_).2
      exact absurd h'.shorter (by rw [heq]; exact Nat.lt_irrefl _)
    rcases h'.knows c hc with hc | ⟨rfl, -⟩
    · exact (h.before c hc).trans hmoves
    · exact hmoves
  number c hc := by
    rcases h'.knows c hc with hc | ⟨rfl, -⟩
    · exact ⟨h'.same.1 ▸ (h.number c hc).1, (h.number c hc).2.trans h'.number⟩
    · exact ⟨h'.same.1 ▸ Nat.le_add_right _ _, h'.number⟩
  first c hc hrequired c' hc' := by
    rcases h'.knows c hc with hold | ⟨-, hlone⟩
    · rcases h'.knows c' hc' with hold' | ⟨rfl, -⟩
      · exact h.first c hold hrequired c' hold'
      · exact (h.number c hold).2
    · rw [hlone hrequired c' hc']

theorem Narrows.passes (h : s.Narrows s')
    (hshorter : s'.cursor.rest.length < s.cursor.rest.length) : s.Passes s' :=
  ⟨h.moves, hshorter, h.number, fun c hc => .inl (h.knows c hc), h.same⟩

/-- A lexeme before which a key may begin. -/
theorem Narrows.passes_of_note (hnote : s.noteCandidate = .ok s') (h : s'.Narrows s'')
    (hshorter : s''.cursor.rest.length < s'.cursor.rest.length) : s.Passes s'' := by
  rcases noteCandidate_eq_ok hnote with rfl | rfl
  · exact h.passes hshorter
  · refine ⟨h.moves, hshorter, h.number, fun c hc => ?_, h.same⟩
    rcases List.mem_cons.1 (h.knows c hc) with heq | hmem
    · refine .inr ⟨Option.some.inj heq, fun hrequired c' hc' => ?_⟩
      obtain rfl := Option.some.inj heq
      have hflow : s.outerCandidates = [] := by
        have hrequired : !s.inFlow && s.margin == s.cursor.mark.column + 1 := hrequired
        simp only [Bool.and_eq_true, Bool.not_eq_true', inFlow] at hrequired
        simpa using hrequired.1
      rcases List.mem_cons.1 (h.knows c' hc') with heq' | hmem'
      · exact Option.some.inj heq'
      · rw [show _ = [] from hflow] at hmem'
        cases hmem'
    · exact .inl (List.mem_cons_of_mem _ hmem)

theorem narrows_skipSpace (s : Lexer) : s.Narrows s.skipSpace :=
  ⟨moves_skipFrom, Nat.le_refl _, fun _ h => h, rfl, rfl⟩

theorem narrows_refreshed (s : Lexer) : s.Narrows s.refreshed :=
  ⟨.refl _, Nat.le_refl _, fun _ h => (knows_refreshed.1 h).1, rfl, rfl⟩

theorem narrows_dropCandidate (h : s.dropCandidate = .ok s') : s.Narrows s' := by
  obtain rfl := dropCandidate_eq_ok h
  refine ⟨.refl _, Nat.le_refl _, fun c hc => ?_, rfl, rfl⟩
  rcases List.mem_cons.1 hc with heq | hmem
  · cases heq
  · exact List.mem_cons_of_mem _ hmem

theorem narrows_unroll (s : Lexer) (target : Nat) : s.Narrows (s.unroll target) := by
  unfold unroll
  split
  · exact .refl s
  · exact ⟨.refl _, by simp [nextNumber], fun _ h => h, rfl, rfl⟩

theorem narrows_roll (s : Lexer) (lexeme : Lexeme) (mark : Mark) (number : Nat) :
    s.Narrows (s.roll lexeme mark number) := by
  unfold roll
  split
  · exact .refl s
  · exact ⟨.refl _, Nat.add_le_add_left List.length_le_length_insertIdx _, fun _ h => h, rfl, rfl⟩

theorem narrows_push (s : Lexer) (lexeme : Lexeme) (mark : Mark) :
    s.Narrows (s.push lexeme mark) :=
  ⟨.refl _, by simp [nextNumber, push], fun _ h => h, rfl, rfl⟩

/-- The cursor moves on, and it changes whether a key may begin. -/
theorem narrows_move {cursor : Cursor} (h : s.cursor.Moves cursor) (keyAllowed : Bool) :
    s.Narrows { s with cursor, keyAllowed } :=
  ⟨h, Nat.le_refl _, fun _ h => h, rfl, rfl⟩

theorem narrows_take {lexeme : Lexeme} {n : Nat} (h : n ≤ s.cursor.rest.length) :
    s.Narrows (s.take lexeme n) :=
  (narrows_push s lexeme s.cursor.mark).trans ⟨moves_skip h, Nat.le_refl _, fun _ h => h, rfl, rfl⟩

/-- Beginning a collection leaves the cursor where it is. -/
theorem roll_eq (s : Lexer) (lexeme : Lexeme) (mark : Mark) (number : Nat) :
    s.roll lexeme mark number = { s with
      margin := (s.roll lexeme mark number).margin
      outerMargins := (s.roll lexeme mark number).outerMargins
      pending := (s.roll lexeme mark number).pending } := by
  unfold roll
  split
  · rfl
  · rfl

@[simp] theorem roll_cursor (s : Lexer) (lexeme : Lexeme) (mark : Mark) (number : Nat) :
    (s.roll lexeme mark number).cursor = s.cursor := by
  rw [roll_eq]

/-- A lexeme is added, and the cursor moves on. -/
theorem narrows_write {cursor : Cursor} (lexeme : Lexeme) (mark : Mark) (keyAllowed : Bool)
    (h : s.cursor.Moves cursor) : s.Narrows { s.push lexeme mark with keyAllowed, cursor } :=
  (narrows_push s lexeme mark).trans ⟨h, Nat.le_refl _, fun _ h => h, rfl, rfl⟩

theorem narrows_keyAllowed (keyAllowed : Bool) : s.Narrows { s with keyAllowed } :=
  ⟨.refl _, Nat.le_refl _, fun _ h => h, rfl, rfl⟩

/-- Leaves a level of brackets, if there is one. -/
def shut (s : Lexer) : Lexer :=
  match s.outerCandidates with
  | [] => s
  | candidate :: outerCandidates => { s with candidate, outerCandidates }

@[simp] theorem shut_cursor (s : Lexer) : s.shut.cursor = s.cursor := by
  unfold shut
  split <;> rfl

theorem fetchClose_eq (s : Lexer) (lexeme : Lexeme) : s.fetchClose lexeme =
    s.dropCandidate >>= fun s => .ok { s.take lexeme 1 with keyAllowed := false }.shut := by
  unfold fetchClose
  congr 1
  funext s
  cases houter : s.outerCandidates with
  | nil => simp [shut, take, push, houter]; rfl
  | cons candidate outer => simp [shut, take, push, houter]; rfl

theorem narrows_shut (s : Lexer) : s.Narrows s.shut := by
  refine ⟨by rw [shut_cursor]; exact .refl _, ?_, fun c hc => ?_, ?_⟩
  · unfold shut
    split <;> exact Nat.le_refl _
  · unfold shut at hc
    split at hc
    · exact hc
    · rename_i candidate outer houter
      have hc : some c ∈ candidate :: outer := hc
      exact List.mem_cons_of_mem _ (houter ▸ hc)
  · unfold shut
    split <;> exact ⟨rfl, rfl⟩

end Steps

/-! ### What the choice says of the text -/

/-- What a choice says of the text before which it is made. -/
def Choice.Suits (flow : Bool) (cs : List Char) : Choice → Prop
  | .finish => cs = []
  | .directive => cs.head? = some '%'
  | .marker _ => 3 ≤ cs.length
  | .name _ | .block _ => ∃ c ≠ '\n', cs.head? = some c
  | .tag => cs.head? = some '!'
  | .plain => endsWord flow cs = false
  | _ => True

section Choices

variable {flow : Bool} {column : Nat} {c : Char} {rest cs : List Char}

theorem suits_chooseNode (h : endsWord flow (c :: rest) = false) :
    (chooseNode flow c rest).Suits flow (c :: rest) := by
  have hhead : c ≠ '\n' → ∃ d ≠ '\n', (c :: rest).head? = some d := fun hc => ⟨c, hc, rfl⟩
  unfold chooseNode
  split_ifs with halias hanchor htag hliteral hfolded
  · exact hhead (by simp [halias])
  · exact hhead (by simp [hanchor])
  · exact congrArg some htag
  · exact hhead (by simp [hliteral.1])
  · exact hhead (by simp [hfolded.1])
  all_goals trivial

theorem suits_chooseSign : (chooseSign flow c rest).Suits flow (c :: rest) := by
  unfold chooseSign
  split_ifs with hopen hbrace hclose hshut hcomma _ _ hcolon
  any_goals trivial
  refine suits_chooseNode (Bool.eq_false_iff.2 fun hword => ?_)
  by_cases hc : c = ':'
  · exact hcolon ⟨hc, .inr (by simpa [endsWord, hc] using hword)⟩
  · have hindicator : flow && isFlowIndicator c := by simpa [endsWord, hc] using hword
    simp [isFlowIndicator, hopen, hbrace, hclose, hshut, hcomma] at hindicator

theorem suits_choose : (choose flow column cs).Suits flow cs := by
  have hthree : ∀ {d : Char} {cs : List Char}, Frame.atTriple d cs = true → 3 ≤ cs.length := by
    intro d cs htriple
    obtain ⟨rest, rfl⟩ := Frame.exists_of_atTriple htriple
    simp
  cases cs with
  | nil => rfl
  | cons c rest =>
    rw [choose]
    split_ifs with hdirective hstart hend
    · exact congrArg some hdirective.2
    · exact hthree (Frame.atDocumentStart_eq _ ▸ hstart.2)
    · exact hthree (Frame.atDocumentEnd_eq _ ▸ hend.2)
    · exact suits_chooseSign

end Choices

/-! ### Every lexeme takes a character -/

/-- What is read without a frame moves the cursor. -/
theorem moves_of_trails {α : Type} {c c' : Cursor} {a : α} {x y : Except Fault (α × Cursor)}
    {F : Frame} (h : F.Trails c x y) (hx : x = .ok (a, c')) : c.Moves c' := by
  subst hx
  exact h.1

/-- No text around a text. -/
def bare : Frame := ⟨0, 0, []⟩

theorem moves_directive {c c' : Cursor} {lexeme : Lexeme} (h : directive c = .ok (lexeme, c')) :
    c.Moves c' :=
  moves_of_trails (trails_directive (F := bare) (.alone rfl)) h

/-- A tag is not empty, since no exclamation mark may follow one. -/
theorem moves_tag {flow : Bool} {c c' : Cursor} {parts : List Char × List UInt8}
    (hhead : c.rest.head? = some '!') (h : tag flow c = .ok (parts, c')) :
    c.Moves c' ∧ c'.rest.length < c.rest.length := by
  have hmoves : c.Moves c' := (reads_tag (F := bare) (.alone rfl) hhead).moves h
  refine ⟨hmoves, (hmoves.eq_or_before.resolve_left ?_).1⟩
  rintro rfl
  rw [tag_eq] at h
  obtain ⟨⟨parts', c₁⟩, -, h⟩ := Json.exists_of_bind h
  dsimp only at h
  rw [ite_not] at h
  split at h
  · rename_i hends
    obtain ⟨rfl, rfl⟩ := Prod.mk.inj (Except.ok.inj h)
    obtain ⟨cs, hcs⟩ := List.head?_eq_some_iff.1 hhead
    simp [hcs, atSeparation, isGap, isBreak] at hends
  · cases h

/-- A plain scalar is not empty where no word ends. -/
theorem moves_plainScalar {flow : Bool} {margin : Nat} {c : Cursor} {p : PlainScalar}
    (hne : c.rest ≠ []) (hword : endsWord flow c.rest = false)
    (h : plainScalar flow margin c = .ok p) :
    c.Moves p.after ∧ p.after.rest.length < c.rest.length := by
  refine ⟨moves_plainFrom h, ?_⟩
  obtain ⟨rest, mark⟩ := c
  obtain ⟨d, cs, rfl⟩ := List.exists_cons_of_ne_nil hne
  -- The first character is taken, whether it is a break or not, and from there the recursion only
  -- moves on.
  have hread : ∃ read spacing cs' m, plainFrom flow margin read spacing cs' m = .ok p ∧
      cs'.length < (d :: cs).length := by
    unfold plainScalar at h
    by_cases hcrlf : d = '\r' ∧ ∃ cs', cs = '\n' :: cs'
    · obtain ⟨rfl, cs', rfl⟩ := hcrlf
      simp only [plainFrom] at h
      exact ⟨_, _, _, _, h, by simp only [List.length_cons]; omega⟩
    · have hempty : (!Spacing.empty.isEmpty && endsAfterSpacing flow margin (d :: cs) mark) = false :=
        rfl
      rw [plainFrom_cons fun cs' hd hcs => hcrlf ⟨hd, cs', hcs⟩, hword, hempty] at h
      simp only [Bool.false_eq_true, if_false] at h
      split_ifs at h with hbreak hgap hcolon
      · exact ⟨_, _, _, _, h, Nat.lt_succ_self _⟩
      · exact ⟨_, _, _, _, h, Nat.lt_succ_self _⟩
      · exact ⟨_, _, _, _, h, Nat.lt_succ_self _⟩
  obtain ⟨read, spacing, cs', m, hread, hlength⟩ := hread
  exact Nat.lt_of_le_of_lt (moves_plainFrom hread).length_le hlength

theorem moves_blockScalar {folded : Bool} {margin : Nat} {c c' : Cursor} {text : List Char}
    (h : blockScalar folded margin c = .ok (text, c')) : c.Moves c' := by
  obtain ⟨⟨header, c₁⟩, hheader, h⟩ := Json.exists_of_bind h
  exact (moves_of_trails (trails_blockHeader (F := bare) (.alone rfl)) hheader).trans
    (moves_blockFrom h)

section Passing

variable {s s' : Lexer}

theorem shorter_of_skip {c' : Cursor} (hne : s.cursor.rest ≠ []) (h : (s.cursor.skip 1).Moves c') :
    c'.rest.length < s.cursor.rest.length := by
  obtain ⟨d, cs, hcons⟩ := List.exists_cons_of_ne_nil hne
  refine Nat.lt_of_le_of_lt h.length_le ?_
  simp [Cursor.skip, hcons]

theorem moves_of_skip {c' : Cursor} (hne : s.cursor.rest ≠ []) (h : (s.cursor.skip 1).Moves c') :
    s.cursor.Moves c' :=
  (moves_skip (List.length_pos_iff.2 hne)).trans h

theorem passes_fetchDirective (hne : s.cursor.rest ≠ []) (h : s.fetchDirective = .ok s') :
    s.Passes s' := by
  obtain ⟨s₁, hdrop, h⟩ := Json.exists_of_bind h
  obtain ⟨⟨lexeme, c'⟩, hread, h⟩ := Json.exists_of_bind h
  obtain rfl := Except.ok.inj h
  have hnarrows := (narrows_unroll s 0).trans (narrows_dropCandidate hdrop)
  have hcursor : s₁.cursor = s.cursor := (dropCandidate_cursor hdrop).trans (unroll_cursor s 0)
  have hmoves := hcursor ▸ moves_directive hread
  exact (hnarrows.trans (narrows_write lexeme _ false (hcursor ▸ moves_of_skip hne hmoves))).passes
    (shorter_of_skip hne hmoves)

theorem passes_fetchMarker {lexeme : Lexeme} (hthree : 3 ≤ s.cursor.rest.length)
    (h : s.fetchMarker lexeme = .ok s') : s.Passes s' := by
  obtain ⟨s₁, hdrop, h⟩ := Json.exists_of_bind h
  obtain rfl := Except.ok.inj h
  have hnarrows := (narrows_unroll s 0).trans (narrows_dropCandidate hdrop)
  have hcursor : s₁.cursor = s.cursor := (dropCandidate_cursor hdrop).trans (unroll_cursor s 0)
  have htake : s₁.Narrows (s₁.take lexeme 3) := narrows_take (hcursor ▸ hthree)
  refine (hnarrows.trans (htake.trans (narrows_keyAllowed false))).passes ?_
  simp only [take, Cursor.skip, List.length_drop, hcursor]
  omega

theorem noteCandidate_cursor (h : s.noteCandidate = .ok s') : s'.cursor = s.cursor := by
  rcases noteCandidate_eq_ok h with rfl | rfl <;> rfl

theorem length_take_rest (lexeme : Lexeme) (hne : s.cursor.rest ≠ []) :
    (s.take lexeme 1).cursor.rest.length < s.cursor.rest.length :=
  shorter_of_skip hne (.refl _)

/-- A sign of one character behind steps that do not move the cursor. -/
theorem Narrows.passes_take {s₁ : Lexer} (h : s.Narrows s₁) (hcursor : s₁.cursor = s.cursor)
    (hne : s.cursor.rest ≠ []) (lexeme : Lexeme) (keyAllowed : Bool) :
    s.Passes { s₁.take lexeme 1 with keyAllowed } := by
  rw [← hcursor] at hne
  have htake : s₁.Narrows (s₁.take lexeme 1) := narrows_take (List.length_pos_iff.2 hne)
  exact (h.trans (htake.trans (narrows_keyAllowed keyAllowed))).passes
    (hcursor ▸ length_take_rest lexeme hne)

theorem passes_fetchOpen {lexeme : Lexeme} (hne : s.cursor.rest ≠ [])
    (h : s.fetchOpen lexeme = .ok s') : s.Passes s' := by
  obtain ⟨s₁, hnote, h⟩ := Json.exists_of_bind h
  obtain rfl := Except.ok.inj h
  rw [← noteCandidate_cursor hnote] at hne
  have htake : s₁.Narrows (s₁.take lexeme 1) := narrows_take (List.length_pos_iff.2 hne)
  refine Narrows.passes_of_note hnote ⟨htake.moves, htake.number, fun c hc => ?_, rfl, rfl⟩
    (length_take_rest lexeme hne)
  rcases List.mem_cons.1 hc with heq | hmem
  · cases heq
  · exact hmem

theorem passes_fetchClose {lexeme : Lexeme} (hne : s.cursor.rest ≠ [])
    (h : s.fetchClose lexeme = .ok s') : s.Passes s' := by
  rw [fetchClose_eq] at h
  obtain ⟨s₁, hdrop, h⟩ := Json.exists_of_bind h
  obtain rfl := Except.ok.inj h
  have hcursor := dropCandidate_cursor hdrop
  rw [← hcursor] at hne
  have htake : s₁.Narrows (s₁.take lexeme 1) := narrows_take (List.length_pos_iff.2 hne)
  refine ((narrows_dropCandidate hdrop).trans
    ((htake.trans (narrows_keyAllowed false)).trans (narrows_shut _))).passes ?_
  rw [shut_cursor]
  exact hcursor ▸ length_take_rest lexeme hne

theorem passes_fetchComma (hne : s.cursor.rest ≠ []) (h : s.fetchComma = .ok s') :
    s.Passes s' := by
  obtain ⟨s₁, hdrop, h⟩ := Json.exists_of_bind h
  obtain rfl := Except.ok.inj h
  exact (narrows_dropCandidate hdrop).passes_take (dropCandidate_cursor hdrop) hne .flowEntry true

theorem passes_fetchEntry (hne : s.cursor.rest ≠ []) (h : s.fetchEntry = .ok s') :
    s.Passes s' := by
  unfold fetchEntry at h
  simp only [] at h
  split at h
  · cases h
  · obtain ⟨s₁, hdrop, h⟩ := Json.exists_of_bind h
    obtain rfl := Except.ok.inj h
    exact ((narrows_roll _ _ _ _).trans (narrows_dropCandidate hdrop)).passes_take
      ((dropCandidate_cursor hdrop).trans (roll_cursor _ _ _ _)) hne .blockEntry _

theorem passes_fetchKey (hne : s.cursor.rest ≠ []) (h : s.fetchKey = .ok s') : s.Passes s' := by
  unfold fetchKey at h
  simp only [] at h
  split at h
  · cases h
  · obtain ⟨s₁, hdrop, h⟩ := Json.exists_of_bind h
    obtain rfl := Except.ok.inj h
    exact ((narrows_roll _ _ _ _).trans (narrows_dropCandidate hdrop)).passes_take
      ((dropCandidate_cursor hdrop).trans (roll_cursor _ _ _ _)) hne .key _

theorem passes_fetchValue (hne : s.cursor.rest ≠ []) (h : s.fetchValue = .ok s') :
    s.Passes s' := by
  have hroll : ∀ (s₁ : Lexer) mark number keyAllowed, s.Narrows s₁ → s₁.cursor = s.cursor →
      s.Passes { (s₁.roll .blockMappingStart mark number).take .value 1 with keyAllowed } := by
    intro s₁ mark number keyAllowed hnarrows hcursor
    exact (hnarrows.trans (narrows_roll s₁ .blockMappingStart mark number)).passes_take
      ((roll_cursor _ _ _ _).trans hcursor) hne .value keyAllowed
  unfold fetchValue at h
  -- With a candidate its key is put in before it; without one an empty key may begin a mapping.
  split at h
  · rename_i c hc
    obtain rfl := Except.ok.inj h
    refine hroll _ _ _ false ⟨.refl _, ?_, fun d hd => ?_, rfl, rfl⟩ rfl
    · exact Nat.add_le_add_left List.length_le_length_insertIdx _
    · rcases List.mem_cons.1 hd with heq | hmem
      · cases heq
      · exact List.mem_cons_of_mem _ hmem
  · simp only [] at h
    split at h
    · cases h
    · obtain rfl := Except.ok.inj h
      exact hroll s _ _ _ (.refl s) rfl

theorem passes_fetchName {lexeme : List Char → Lexeme} (hne : s.cursor.rest ≠ [])
    (h : s.fetchName lexeme = .ok s') : s.Passes s' := by
  obtain ⟨s₁, hnote, h⟩ := Json.exists_of_bind h
  simp only [] at h
  split at h
  · cases h
  · obtain rfl := Except.ok.inj h
    rw [← noteCandidate_cursor hnote] at hne
    have hmoves : (s₁.cursor.skip 1).Moves ((s₁.cursor.skip 1).skipWhile isName) :=
      moves_skipWhile _
    exact Narrows.passes_of_note hnote (narrows_write _ _ false (moves_of_skip hne hmoves))
      (shorter_of_skip hne hmoves)

theorem passes_fetchTag (hhead : s.cursor.rest.head? = some '!') (h : s.fetchTag = .ok s') :
    s.Passes s' := by
  obtain ⟨s₁, hnote, h⟩ := Json.exists_of_bind h
  obtain ⟨⟨⟨handle, suffix⟩, c'⟩, hread, h⟩ := Json.exists_of_bind h
  obtain rfl := Except.ok.inj h
  rw [← noteCandidate_cursor hnote] at hhead
  obtain ⟨hmoves, hshorter⟩ := moves_tag hhead hread
  exact Narrows.passes_of_note hnote (narrows_write _ _ false hmoves) hshorter

theorem passes_fetchBlock {folded : Bool} (hne : s.cursor.rest ≠ [])
    (h : s.fetchBlock folded = .ok s') : s.Passes s' := by
  obtain ⟨s₁, hdrop, h⟩ := Json.exists_of_bind h
  obtain ⟨⟨text, c'⟩, hread, h⟩ := Json.exists_of_bind h
  obtain rfl := Except.ok.inj h
  have hcursor := dropCandidate_cursor hdrop
  rw [← hcursor] at hne
  have hmoves := moves_blockScalar hread
  exact ((narrows_dropCandidate hdrop).trans
    (narrows_write _ _ true (moves_of_skip hne hmoves))).passes
    (hcursor ▸ shorter_of_skip hne hmoves)

theorem passes_fetchQuoted {double : Bool} (hne : s.cursor.rest ≠ [])
    (h : s.fetchQuoted (if double then doubleQuoted else singleQuoted) = .ok s') :
    s.Passes s' := by
  obtain ⟨s₁, hnote, h⟩ := Json.exists_of_bind h
  obtain ⟨⟨text, c'⟩, hread, h⟩ := Json.exists_of_bind h
  obtain rfl := Except.ok.inj h
  rw [← noteCandidate_cursor hnote] at hne
  have hmoves : (s₁.cursor.skip 1).Moves c' := by
    cases double with
    | true => exact moves_doubleFrom hread
    | false => exact moves_singleFrom hread
  exact Narrows.passes_of_note hnote (narrows_write _ _ false (moves_of_skip hne hmoves))
    (shorter_of_skip hne hmoves)

theorem passes_fetchPlain (hne : s.cursor.rest ≠ [])
    (hword : endsWord s.inFlow s.cursor.rest = false) (h : s.fetchPlain = .ok s') :
    s.Passes s' := by
  obtain ⟨s₁, hnote, h⟩ := Json.exists_of_bind h
  obtain ⟨p, hread, h⟩ := Json.exists_of_bind h
  obtain rfl := Except.ok.inj h
  have hflow : s₁.inFlow = s.inFlow := by
    rcases noteCandidate_eq_ok hnote with rfl | rfl <;> rfl
  rw [← noteCandidate_cursor hnote] at hne hword
  rw [hflow] at hread
  obtain ⟨hmoves, hshorter⟩ := moves_plainScalar hne hword hread
  exact Narrows.passes_of_note hnote (narrows_write _ _ _ hmoves) hshorter

theorem perform_passes (hne : s.cursor.rest ≠ []) {choice : Choice}
    (hchoice : choice.Suits s.inFlow s.cursor.rest) (h : s.perform choice = .ok s') :
    s.Passes s' := by
  cases choice with
  | finish => exact (hne hchoice).elim
  | directive => exact passes_fetchDirective hne h
  | marker lexeme => exact passes_fetchMarker hchoice h
  | opening lexeme => exact passes_fetchOpen hne h
  | closing lexeme => exact passes_fetchClose hne h
  | comma => exact passes_fetchComma hne h
  | entry => exact passes_fetchEntry hne h
  | key => exact passes_fetchKey hne h
  | value => exact passes_fetchValue hne h
  | name lexeme => exact passes_fetchName hne h
  | tag => exact passes_fetchTag hchoice h
  | block folded => exact passes_fetchBlock hne h
  | quoted double => exact passes_fetchQuoted hne h
  | plain => exact passes_fetchPlain hne hchoice h
  | fault => cases h

end Passing

end Lexer

end SecretFill.Yaml
