import SecretFill.Yaml.Block
import SecretFill.Yaml.Directive
import SecretFill.Yaml.Plain
import SecretFill.Yaml.Quoted

namespace SecretFill.Yaml

/-!
# From characters to tokens

The lexer reads one lexeme after the other.  A key without a question mark is recognised only at
its colon, so the tokens since a place where a key may have begun are held back: they are released
when the colon was found or can no longer come.

* `Candidate` — a place where a key may have begun.
* `Lexer` — the state of the lexer.
* `Lexer.fetch` — reads the next lexeme.
* `Lexer.release` — gives out the tokens that nothing holds back.
* `tokens` — the tokens of a text in order, up to the first fault.
-/

/-- A place where a key may have begun. -/
structure Candidate where
  /-- Whether the indentation admits nothing but a key here. -/
  required : Bool
  /-- The number of the token that begins the key. -/
  number : Nat
  /-- The position of the key. -/
  mark : Mark
deriving DecidableEq, Repr, Inhabited

/-- The state of the lexer.  A margin is the least column of nested block content, so the margin at
    the top is zero; the margins and candidates around the present ones are listed from inside
    out. -/
structure Lexer where
  /-- Where the lexer stands. -/
  cursor : Cursor
  /-- Whether a key may begin here. -/
  keyAllowed : Bool
  /-- The present margin. -/
  margin : Nat
  /-- The margins of the enclosing block collections. -/
  outerMargins : List Nat
  /-- Where a key may have begun on the present level of brackets. -/
  candidate : Option Candidate
  /-- The same for the enclosing levels. -/
  outerCandidates : List (Option Candidate)
  /-- The tokens that are held back. -/
  pending : List Token
  /-- How many tokens were given out. -/
  released : Nat
  /-- Whether the end of the text was reached. -/
  ended : Bool
deriving DecidableEq, Repr, Inhabited

namespace Lexer

/-- The lexer at the start of a text. -/
def start (text : List Char) : Lexer where
  cursor := ⟨text, .origin⟩
  keyAllowed := true
  margin := 0
  outerMargins := []
  candidate := none
  outerCandidates := []
  pending := []
  released := 0
  ended := false

/-- Whether the lexer is inside brackets. -/
def inFlow (s : Lexer) : Bool := !s.outerCandidates.isEmpty

/-- Adds a token. -/
def push (s : Lexer) (lexeme : Lexeme) (mark : Mark) : Lexer :=
  { s with pending := s.pending ++ [⟨lexeme, mark⟩] }

/-- Adds a lexeme of `width` characters and moves behind it. -/
def take (s : Lexer) (lexeme : Lexeme) (width : Nat) : Lexer :=
  { s.push lexeme s.cursor.mark with cursor := s.cursor.skip width }

/-! ### White space between tokens -/

/-- Moves to the next token: over spaces, over comments, over line breaks, and over tabs where they
    cannot be indentation.  A line break lets a key begin, except inside brackets. -/
def skipFrom (flow keyAllowed comment : Bool) : List Char → Mark → Bool × Cursor
  | [], mark => (keyAllowed, ⟨[], mark⟩)
  | '\r' :: '\n' :: rest, mark => skipFrom flow (keyAllowed || !flow) false rest (mark.nextLine 2)
  | c :: rest, mark =>
    if isBreak c then skipFrom flow (keyAllowed || !flow) false rest (mark.nextLine 1)
    else if comment then skipFrom flow keyAllowed true rest mark.next
    else if c == '#' then skipFrom flow keyAllowed true rest mark.next
    else if c == ' ' || (c == '\t' && (flow || !keyAllowed))
        || (c == byteOrderMark && mark.index == 0) then
      skipFrom flow keyAllowed false rest mark.next
    else (keyAllowed, ⟨c :: rest, mark⟩)

/-- Moves to the next token. -/
def skipSpace (s : Lexer) : Lexer :=
  let (keyAllowed, cursor) := skipFrom s.inFlow s.keyAllowed false s.cursor.rest s.cursor.mark
  { s with keyAllowed, cursor }

/-! ### Keys that may have begun -/

/-- Whether a candidate is too far back: a key stands on one line and has at most 1024
    characters. -/
def isStale (now : Mark) (c : Candidate) : Bool :=
  c.mark.line < now.line || c.mark.index + 1024 < now.index

/-- Drops a candidate that is too far back; a required one is missed. -/
def refresh (now : Mark) : Option Candidate → Except Fault (Option Candidate)
  | none => .ok none
  | some c =>
    if !isStale now c then .ok (some c)
    else if c.required then .error (.here now)
    else .ok none

/-- Drops all candidates that are too far back. -/
def dropStale (s : Lexer) : Except Fault Lexer := do
  let outerCandidates ← s.outerCandidates.mapM (refresh s.cursor.mark)
  let candidate ← refresh s.cursor.mark s.candidate
  return { s with candidate, outerCandidates }

/-- Gives up the candidate of the present level; a required one is missed. -/
def dropCandidate (s : Lexer) : Except Fault Lexer :=
  if s.candidate.any (·.required) then .error (.here s.cursor.mark)
  else .ok { s with candidate := none }

/-- Notes that a key may begin here. -/
def noteCandidate (s : Lexer) : Except Fault Lexer := do
  if !s.keyAllowed then return s
  let s ← s.dropCandidate
  return { s with
    candidate := some {
      required := !s.inFlow && s.margin == s.cursor.mark.column + 1
      number := s.released + s.pending.length
      mark := s.cursor.mark } }

/-! ### Indentation -/

/-- Leaves the margins beyond `target`, innermost first: how many, and what is left. -/
def leave (target margin : Nat) : List Nat → Nat × Nat × List Nat
  | [] => (0, margin, [])
  | outer :: rest =>
    if target < margin then
      let (count, margin, rest) := leave target outer rest
      (count + 1, margin, rest)
    else (0, margin, outer :: rest)

/-- Ends the block collections that are indented beyond `target`; brackets ignore indentation. -/
def unroll (s : Lexer) (target : Nat) : Lexer :=
  if s.inFlow then s
  else
    let (count, margin, outerMargins) := leave target s.margin s.outerMargins
    { s with
      margin, outerMargins,
      pending := s.pending ++ List.replicate count ⟨.blockEnd, s.cursor.mark⟩ }

/-- Begins a block collection at a mark if its column is not within the margin.  Its token goes
    before the token with this number. -/
def roll (s : Lexer) (lexeme : Lexeme) (mark : Mark) (number : Nat) : Lexer :=
  if s.inFlow || mark.column < s.margin then s
  else
    { s with
      margin := mark.column + 1
      outerMargins := s.margin :: s.outerMargins
      pending := s.pending.insertIdx (number - s.released) ⟨lexeme, mark⟩ }

/-- The number of the token that is added next. -/
def nextNumber (s : Lexer) : Nat := s.released + s.pending.length

/-! ### Lexemes -/

/-- The end of the text, which counts as the start of a line. -/
def fetchEnd (s : Lexer) : Except Fault Lexer := do
  let mark := s.cursor.mark
  let mark := if mark.column = 0 then mark else mark.nextLine 0
  let s := { s with cursor := { s.cursor with mark } }
  let s ← (s.unroll 0).dropCandidate
  return { s.push .streamEnd mark with keyAllowed := false, ended := true }

/-- A directive. -/
def fetchDirective (s : Lexer) : Except Fault Lexer := do
  let s ← (s.unroll 0).dropCandidate
  let (lexeme, cursor) ← directive (s.cursor.skip 1)
  return { s.push lexeme s.cursor.mark with keyAllowed := false, cursor }

/-- A document marker. -/
def fetchMarker (s : Lexer) (lexeme : Lexeme) : Except Fault Lexer := do
  let s ← (s.unroll 0).dropCandidate
  return { s.take lexeme 3 with keyAllowed := false }

/-- An opening bracket. -/
def fetchOpen (s : Lexer) (lexeme : Lexeme) : Except Fault Lexer := do
  let s ← s.noteCandidate
  return { s.take lexeme 1 with
    keyAllowed := true
    candidate := none
    outerCandidates := s.candidate :: s.outerCandidates }

/-- A closing bracket; one too many leaves the level as it is. -/
def fetchClose (s : Lexer) (lexeme : Lexeme) : Except Fault Lexer := do
  let s ← s.dropCandidate
  let s := { s.take lexeme 1 with keyAllowed := false }
  match s.outerCandidates with
  | [] => return s
  | candidate :: outerCandidates => return { s with candidate, outerCandidates }

/-- A comma. -/
def fetchComma (s : Lexer) : Except Fault Lexer := do
  let s ← s.dropCandidate
  return { s.take .flowEntry 1 with keyAllowed := true }

/-- The hyphen of a block sequence. -/
def fetchEntry (s : Lexer) : Except Fault Lexer := do
  if !s.inFlow && !s.keyAllowed then throw (.here s.cursor.mark)
  let s ← (s.roll .blockSequenceStart s.cursor.mark s.nextNumber).dropCandidate
  return { s.take .blockEntry 1 with keyAllowed := true }

/-- The question mark before a key. -/
def fetchKey (s : Lexer) : Except Fault Lexer := do
  if !s.inFlow && !s.keyAllowed then throw (.here s.cursor.mark)
  let s ← (s.roll .blockMappingStart s.cursor.mark s.nextNumber).dropCandidate
  return { s.take .key 1 with keyAllowed := !s.inFlow }

/-- The colon behind a key.  If a key may have begun, it did: its token is put where it began. -/
def fetchValue (s : Lexer) : Except Fault Lexer := do
  match s.candidate with
  | some c =>
    let s := { s with
      candidate := none
      pending := s.pending.insertIdx (c.number - s.released) ⟨.key, c.mark⟩ }
    return { (s.roll .blockMappingStart c.mark c.number).take .value 1 with keyAllowed := false }
  | none =>
    if !s.inFlow && !s.keyAllowed then throw (.here s.cursor.mark)
    let s := s.roll .blockMappingStart s.cursor.mark s.nextNumber
    return { s.take .value 1 with keyAllowed := !s.inFlow }

/-- The characters that may follow a name, apart from white space. -/
def endsName (cs : List Char) : Bool :=
  atSeparation cs || cs.head?.any "?:,]\x7d%@\x60".toList.contains

/-- An anchor or a reference to one. -/
def fetchName (s : Lexer) (lexeme : List Char → Lexeme) : Except Fault Lexer := do
  let s ← s.noteCandidate
  let name := (s.cursor.skip 1).rest.takeWhile isName
  let cursor := (s.cursor.skip 1).skipWhile isName
  if name.isEmpty || !endsName cursor.rest then throw (.here cursor.mark)
  return { s.push (lexeme name) s.cursor.mark with keyAllowed := false, cursor }

/-- A tag. -/
def fetchTag (s : Lexer) : Except Fault Lexer := do
  let s ← s.noteCandidate
  let ((handle, suffix), cursor) ← tag s.inFlow s.cursor
  return { s.push (.tag handle suffix) s.cursor.mark with keyAllowed := false, cursor }

/-- A block scalar. -/
def fetchBlock (s : Lexer) (folded : Bool) : Except Fault Lexer := do
  let s ← s.dropCandidate
  let (text, cursor) ← blockScalar folded s.margin (s.cursor.skip 1)
  return { s.push (.scalar text false) s.cursor.mark with keyAllowed := true, cursor }

/-- A quoted scalar. -/
def fetchQuoted (s : Lexer) (read : Cursor → Except Fault (List Char × Cursor)) :
    Except Fault Lexer := do
  let s ← s.noteCandidate
  let (text, cursor) ← read (s.cursor.skip 1)
  return { s.push (.scalar text false) s.cursor.mark with keyAllowed := false, cursor }

/-- A plain scalar. -/
def fetchPlain (s : Lexer) : Except Fault Lexer := do
  let s ← s.noteCandidate
  let scalar ← plainScalar s.inFlow s.margin s.cursor
  return { s.push (.scalar scalar.text true) s.cursor.mark with
    keyAllowed := scalar.endsLine
    cursor := scalar.after }

/-- The characters that begin no plain scalar. -/
def isIndicator (c : Char) : Bool := "-?:,[]\x7b\x7d#&*!|>'\"%@\x60".toList.contains c

/-- Whether a plain scalar begins here. -/
def beginsPlain (flow : Bool) : List Char → Bool
  | [] => false
  | c :: rest =>
    !(isIndicator c || isGap c) || (c == '-' && !(rest.head?.any isGap))
      || (!flow && (c == '?' || c == ':') && !atSeparation rest)

/-- Reads the lexeme at the cursor; all white space before it was skipped. -/
def fetchHere (s : Lexer) : Except Fault Lexer :=
  let flow := s.inFlow
  match s.cursor.rest with
  | [] => s.fetchEnd
  | c :: rest =>
    let separated := atSeparation rest
    -- Directives and document markers count at the start of a line only.
    if s.cursor.mark.column = 0 ∧ c = '%' then s.fetchDirective
    else if s.cursor.mark.column = 0 ∧ atDocumentStart (c :: rest) then s.fetchMarker .documentStart
    else if s.cursor.mark.column = 0 ∧ atDocumentEnd (c :: rest) then s.fetchMarker .documentEnd
    else if c = '[' then s.fetchOpen .flowSequenceStart
    else if c = '{' then s.fetchOpen .flowMappingStart
    else if c = ']' then s.fetchClose .flowSequenceEnd
    else if c = '}' then s.fetchClose .flowMappingEnd
    else if c = ',' then s.fetchComma
    else if c = '-' ∧ separated then s.fetchEntry
    else if c = '?' ∧ (flow ∨ separated) then s.fetchKey
    else if c = ':' ∧ (flow ∨ separated) then s.fetchValue
    -- What is left begins a node or a property of one.
    else if c = '*' then s.fetchName .alias
    else if c = '&' then s.fetchName .anchor
    else if c = '!' then s.fetchTag
    else if c = '|' ∧ !flow then s.fetchBlock false
    else if c = '>' ∧ !flow then s.fetchBlock true
    else if c = '\'' then s.fetchQuoted singleQuoted
    else if c = '"' then s.fetchQuoted doubleQuoted
    else if beginsPlain flow (c :: rest) then s.fetchPlain
    else .error (.here s.cursor.mark)

/-- Reads the next lexeme. -/
def fetch (s : Lexer) : Except Fault Lexer := do
  -- A line that starts further left ends block collections; the lexeme itself comes after that.
  let s ← s.skipSpace.dropStale
  (s.unroll (s.cursor.mark.column + 1)).fetchHere

/-! ### The tokens of a text -/

/-- Whether a candidate holds back the token with this number. -/
def holds (s : Lexer) (number : Nat) : Bool :=
  (s.candidate :: s.outerCandidates).any fun c => c.any (·.number == number)

/-- Splits tokens, the first of which has this number, before the first that is held back. -/
def splitHeld (s : Lexer) (number : Nat) : List Token → List Token × List Token
  | [] => ([], [])
  | token :: rest =>
    if s.holds number then ([], token :: rest)
    else
      let (free, held) := splitHeld s (number + 1) rest
      (token :: free, held)

/-- Gives out the tokens that nothing holds back. -/
def release (s : Lexer) : List Token × Lexer :=
  let (free, pending) := s.splitHeld s.released s.pending
  (free, { s with pending, released := s.released + free.length })

/-- Reads at most `fuel` lexemes. -/
def run : Nat → Lexer → List Token × Option Fault
  | 0, _ => ([], none)
  | fuel + 1, s =>
    match s.fetch >>= dropStale with
    | .error fault => ([], some fault)
    | .ok s =>
      let (free, s) := s.release
      if s.ended then (free, none)
      else
        let (tokens, fault) := run fuel s
        (free ++ tokens, fault)

end Lexer

/-- The tokens of a text, and the fault that ends them, if one does.  Characters that may not stand
    in a stream are found before any token; every lexeme but the end takes a character. -/
def tokens (text : List Char) : List Token × Option Fault :=
  if text.all isAllowed then (Lexer.start text).run (text.length + 1)
  else ([], some (.here .origin))

end SecretFill.Yaml
