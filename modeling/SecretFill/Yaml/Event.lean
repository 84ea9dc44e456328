import SecretFill.Yaml.Lexer

namespace SecretFill.Yaml

/-!
# From tokens to events

The events of a document are its nodes in order: scalars and references as they are, collections
as a start and an end.  Nodes that are left out become empty scalars.

* `Event` — one event with its position.
* `Phase` — what may come next inside a collection.
* `Handles` — what the tag handles of a document stand for.
* `step` — one event.
* `events` — the events of the first document, up to the first fault.
-/

/-- The properties of a node. -/
structure Properties where
  /-- The name that references use. -/
  anchor : Option (List Char)
  /-- The full tag. -/
  tag : Option (List UInt8)
deriving DecidableEq, Repr, Inhabited

/-- What happens in a document. -/
inductive Happening where
  /-- A reference to an anchor. -/
  | alias (name : List Char)
  /-- A scalar. -/
  | scalar (properties : Properties) (text : List Char) (plain : Bool)
  /-- A sequence begins. -/
  | sequenceStart (properties : Properties)
  /-- A sequence ends. -/
  | sequenceEnd
  /-- A mapping begins. -/
  | mappingStart (properties : Properties)
  /-- A mapping ends. -/
  | mappingEnd
deriving DecidableEq, Repr, Inhabited

/-- What happens in a document, and where. -/
structure Event where
  /-- What happens. -/
  happening : Happening
  /-- The position where it starts. -/
  mark : Mark
deriving DecidableEq, Repr, Inhabited

/-- What comes next.  The phases of enclosing nodes wait on a stack. -/
inductive Phase where
  /-- The node of the document; behind a marker it may be left out. -/
  | root (explicit : Bool)
  /-- The end of the document. -/
  | documentEnd
  /-- An item of a block sequence; the first one follows the start token. -/
  | blockItem (first : Bool)
  /-- An item of a block sequence that is not indented. -/
  | unindentedItem
  /-- A key of a block mapping. -/
  | blockKey (first : Bool)
  /-- The value of a block mapping. -/
  | blockValue
  /-- An item of a flow sequence. -/
  | flowItem (first : Bool)
  /-- The key of a pair in a flow sequence. -/
  | pairKey
  /-- The value of a pair in a flow sequence. -/
  | pairValue
  /-- The end of a pair in a flow sequence. -/
  | pairEnd
  /-- A key of a flow mapping. -/
  | flowKey (first : Bool)
  /-- The value of a flow mapping. -/
  | flowValue
  /-- The value of a key of a flow mapping that has no colon. -/
  | flowMissing
deriving DecidableEq, Repr, Inhabited

/-- What the tag handles of a document stand for; the first entry of a handle counts. -/
abbrev Handles := List (List Char × List UInt8)

/-- The handles that need no directive. -/
def defaultHandles : Handles :=
  [("!".toList, octets "!".toList), ("!!".toList, octets "tag:yaml.org,2002:".toList)]

/-- The state between two events. -/
structure Progress where
  /-- What comes next. -/
  phase : Phase
  /-- The phases of the enclosing nodes, innermost first. -/
  stack : List Phase
  /-- The tokens that are left. -/
  tokens : List Token
deriving DecidableEq, Repr, Inhabited

/-- Goes back to the phase of the enclosing node. -/
def Progress.pop (stack : List Phase) (tokens : List Token) : Progress :=
  match stack with
  | [] => ⟨.documentEnd, [], tokens⟩
  | phase :: stack => ⟨phase, stack, tokens⟩

/-- The tag with a handle and a suffix; without a handle the suffix is the tag. -/
def fullTag? (handles : Handles) (handle : List Char) (suffix : List UInt8) :
    Option (List UInt8) :=
  if handle.isEmpty then some suffix
  else (handles.lookup handle).map (· ++ suffix)

/-- The anchor and the tag before a node, and where the tag stands. -/
structure NodeHead where
  /-- The anchor. -/
  anchor : Option (List Char)
  /-- The handle and the suffix of the tag, and its position. -/
  tag : Option (List Char × List UInt8 × Mark)

/-- Takes at most one anchor and one tag, in either order. -/
def takeHead : List Token → NodeHead × List Token
  | ⟨.anchor name, _⟩ :: ⟨.tag handle suffix, mark⟩ :: rest =>
    (⟨some name, some (handle, suffix, mark)⟩, rest)
  | ⟨.tag handle suffix, mark⟩ :: ⟨.anchor name, _⟩ :: rest =>
    (⟨some name, some (handle, suffix, mark)⟩, rest)
  | ⟨.anchor name, _⟩ :: rest => (⟨some name, none⟩, rest)
  | ⟨.tag handle suffix, mark⟩ :: rest => (⟨none, some (handle, suffix, mark)⟩, rest)
  | tokens => (⟨none, none⟩, tokens)

/-- An event together with the state behind it. -/
abbrev Outcome := Except (Option Fault) (Event × Progress)

/-- A fault at a token. -/
def refuse (mark : Mark) : Outcome := .error (some (.here mark))

/-- The tokens ran out; the fault of the lexer, if there is one, is the reason. -/
def starved : Outcome := .error none

/-- A node that is left out. -/
def missing (mark : Mark) (phase : Phase) (stack : List Phase) (tokens : List Token) : Outcome :=
  .ok (⟨.scalar ⟨none, none⟩ [] true, mark⟩, ⟨phase, stack, tokens⟩)

/-- Reads a node.  Inside brackets there are no block collections; an unindented sequence may only
    stand in a block mapping. -/
def node (handles : Handles) (block unindented : Bool) (stack : List Phase)
    (tokens : List Token) : Outcome :=
  match tokens with
  | [] => starved
  | ⟨.alias name, mark⟩ :: rest => .ok (⟨.alias name, mark⟩, .pop stack rest)
  | first :: _ =>
    let (head, rest) := takeHead tokens
    let tag? : Except (Option Fault) (Option (List UInt8)) :=
      match head.tag with
      | none => .ok none
      | some (handle, suffix, mark) =>
        match fullTag? handles handle suffix with
        | some tag => .ok (some tag)
        | none => .error (some (.here mark))
    match rest with
    | [] => starved
    | token :: after =>
      match tag? with
      | .error fault => .error fault
      | .ok tag =>
        let properties : Properties := ⟨head.anchor, tag⟩
        match token.lexeme with
        | .scalar text plain =>
          .ok (⟨.scalar properties text plain, first.start⟩, .pop stack after)
        | .flowSequenceStart =>
          .ok (⟨.sequenceStart properties, first.start⟩, ⟨.flowItem true, stack, rest⟩)
        | .flowMappingStart =>
          .ok (⟨.mappingStart properties, first.start⟩, ⟨.flowKey true, stack, rest⟩)
        | lexeme =>
          -- The item belongs to a sequence that starts at the column of its mapping.
          if unindented ∧ lexeme = .blockEntry then
            .ok (⟨.sequenceStart properties, first.start⟩, ⟨.unindentedItem, stack, rest⟩)
          else if block ∧ lexeme = .blockSequenceStart then
            .ok (⟨.sequenceStart properties, first.start⟩, ⟨.blockItem true, stack, rest⟩)
          else if block ∧ lexeme = .blockMappingStart then
            .ok (⟨.mappingStart properties, first.start⟩, ⟨.blockKey true, stack, rest⟩)
          -- Properties alone make an empty scalar.
          else if head.anchor.isSome ∨ tag.isSome then
            .ok (⟨.scalar properties [] true, first.start⟩, .pop stack rest)
          else refuse token.start

/-- Whether a token shows that an item of a block sequence is left out. -/
def endsBlockItem (unindented : Bool) : Lexeme → Bool
  | .blockEntry | .blockEnd => true
  | .key | .value => unindented
  | _ => false

/-- Whether a token shows that a key or a value of a block mapping is left out. -/
def endsBlockPart : Lexeme → Bool
  | .key | .value | .blockEnd => true
  | _ => false

/-- Whether a token shows that the key of a pair in a flow sequence is left out. -/
def endsPairKey : Lexeme → Bool
  | .value | .flowEntry | .flowSequenceEnd => true
  | _ => false

/-- Whether a token shows that the value of a pair in a flow sequence is left out. -/
def endsPairValue : Lexeme → Bool
  | .flowEntry | .flowSequenceEnd => true
  | _ => false

/-- Whether a token shows that a key of a flow mapping is left out. -/
def endsFlowKey : Lexeme → Bool
  | .value | .flowEntry | .flowMappingEnd => true
  | _ => false

/-- Whether a token shows that a value of a flow mapping is left out. -/
def endsFlowValue : Lexeme → Bool
  | .flowEntry | .flowMappingEnd => true
  | _ => false

/-- Whether a token shows that the node of a document is left out. -/
def endsDocument : Lexeme → Bool
  | .versionDirective .. | .tagDirective .. | .documentStart | .documentEnd | .streamEnd => true
  | _ => false

/-- The node of a block collection behind an indicator, unless the next token shows that it is left
    out; `next` is the phase behind the node. -/
def blockPart (handles : Handles) (ends : Lexeme → Bool) (unindented : Bool) (indicator : Token)
    (next : Phase) (stack : List Phase) : List Token → Outcome
  | [] => starved
  | token :: rest =>
    if ends token.lexeme then missing indicator.start.next next stack (token :: rest)
    else node handles true unindented (next :: stack) (token :: rest)

/-- The node of a flow collection, unless the next token shows that it is left out; `next` is the
    phase behind the node. -/
def flowPart (handles : Handles) (ends : Lexeme → Bool) (next : Phase) (stack : List Phase) :
    List Token → Outcome
  | [] => starved
  | token :: rest =>
    if ends token.lexeme then missing token.start next stack (token :: rest)
    else node handles false false (next :: stack) (token :: rest)

/-- The end of a collection. -/
def close (happening : Happening) (mark : Mark) (stack : List Phase) (tokens : List Token) :
    Outcome :=
  .ok (⟨happening, mark⟩, .pop stack tokens)

/-- An item of a flow sequence; a pair makes a mapping of its own. -/
def flowItem (handles : Handles) (stack : List Phase) : List Token → Outcome
  | [] => starved
  | token :: rest =>
    match token.lexeme with
    | .key => .ok (⟨.mappingStart ⟨none, none⟩, token.start⟩, ⟨.pairKey, stack, rest⟩)
    | .flowSequenceEnd => close .sequenceEnd token.start stack rest
    | _ => node handles false false (.flowItem false :: stack) (token :: rest)

/-- A key of a flow mapping. -/
def flowKey (handles : Handles) (stack : List Phase) : List Token → Outcome
  | [] => starved
  | token :: rest =>
    match token.lexeme with
    | .key => flowPart handles endsFlowKey .flowValue stack rest
    | .flowMappingEnd => close .mappingEnd token.start stack rest
    | _ => node handles false false (.flowMissing :: stack) (token :: rest)

/-- What comes next in a phase other than the end of the document.  The first phase of a collection
    still has its start token before it. -/
def step (handles : Handles) (phase : Phase) (stack : List Phase) (tokens : List Token) : Outcome :=
  match phase, tokens with
  | _, [] => starved
  | .documentEnd, _ => starved
  | .root explicit, token :: rest =>
    if explicit && endsDocument token.lexeme then
      .ok (⟨.scalar ⟨none, none⟩ [] true, token.start⟩, .pop stack (token :: rest))
    else node handles true false stack (token :: rest)
  | .blockItem first, token :: rest =>
    match if first then rest else token :: rest with
    | [] => starved
    | token :: rest =>
      match token.lexeme with
      | .blockEntry =>
        blockPart handles (endsBlockItem false) false token (.blockItem false) stack rest
      | .blockEnd => close .sequenceEnd token.start stack rest
      | _ => refuse token.start
  | .unindentedItem, token :: rest =>
    match token.lexeme with
    | .blockEntry => blockPart handles (endsBlockItem true) false token .unindentedItem stack rest
    | _ => close .sequenceEnd token.start stack (token :: rest)
  | .blockKey first, token :: rest =>
    match if first then rest else token :: rest with
    | [] => starved
    | token :: rest =>
      match token.lexeme with
      | .key => blockPart handles endsBlockPart true token .blockValue stack rest
      | .blockEnd => close .mappingEnd token.start stack rest
      | _ => refuse token.start
  | .blockValue, token :: rest =>
    match token.lexeme with
    | .value => blockPart handles endsBlockPart true token (.blockKey false) stack rest
    | _ => missing token.start (.blockKey false) stack (token :: rest)
  | .flowItem true, _ :: rest => flowItem handles stack rest
  | .flowItem false, token :: rest =>
    match token.lexeme with
    | .flowSequenceEnd => close .sequenceEnd token.start stack rest
    | .flowEntry => flowItem handles stack rest
    | _ => refuse token.start
  | .pairKey, token :: rest =>
    -- a key that is left out takes the token that shows it along
    if endsPairKey token.lexeme then missing token.start.next .pairValue stack rest
    else node handles false false (.pairValue :: stack) (token :: rest)
  | .pairValue, token :: rest =>
    match token.lexeme with
    | .value => flowPart handles endsPairValue .pairEnd stack rest
    | _ => missing token.start .pairEnd stack (token :: rest)
  | .pairEnd, token :: rest =>
    .ok (⟨.mappingEnd, token.start⟩, ⟨.flowItem false, stack, token :: rest⟩)
  | .flowKey true, _ :: rest => flowKey handles stack rest
  | .flowKey false, token :: rest =>
    match token.lexeme with
    | .flowMappingEnd => close .mappingEnd token.start stack rest
    | .flowEntry => flowKey handles stack rest
    | _ => refuse token.start
  | .flowValue, token :: rest =>
    match token.lexeme with
    | .value => flowPart handles endsFlowValue (.flowKey false) stack rest
    | _ => missing token.start (.flowKey false) stack (token :: rest)
  | .flowMissing, token :: rest => missing token.start (.flowKey false) stack (token :: rest)

/-- The events up to the end of the document, at most `fuel` of them, and the fault that ends them,
    if one does: one of their own or, where the tokens ran out, `last`. -/
def run (handles : Handles) (last : Option Fault) : Nat → Progress → List Event × Option Fault
  | 0, _ => ([], last)
  | fuel + 1, ⟨phase, stack, tokens⟩ =>
    if phase = .documentEnd then ([], if tokens.isEmpty then last else none)
    else
      match step handles phase stack tokens with
      | .error (some fault) => ([], some fault)
      | .error none => ([], last)
      | .ok (event, progress) =>
        let (events, fault) := run handles last fuel progress
        (event :: events, fault)

/-- Reads the directives before a document: one version, which is 1.1 or 1.2, and each tag handle at
    most once.  Then follows the marker of the document. -/
def directives (version : Bool) (handles : Handles) :
    List Token → Except (Option Fault) (Handles × List Token)
  | [] => .error none
  | token :: rest =>
    match token.lexeme with
    | .versionDirective major minor =>
      if version || major ≠ 1 || (minor ≠ 1 && minor ≠ 2) then .error (some (.here token.start))
      else directives true handles rest
    | .tagDirective handle expansion =>
      if (handles.lookup handle).isSome then .error (some (.here token.start))
      else directives version (handles ++ [(handle, expansion)]) rest
    | .documentStart => .ok (handles, rest)
    | _ => .error (some (.here token.start))

/-- The events of the first document of a text, and the fault that ends them, if one does.  An empty
    stream has no event and no fault.  A token gives rise to fewer than four events. -/
def events (text : List Char) : List Event × Option Fault :=
  let (tokens, last) := tokens text
  let fuel := 4 * tokens.length + 4
  match tokens with
  | [] => ([], last)
  | token :: _ =>
    match token.lexeme with
    | .streamEnd => ([], none)
    | .versionDirective .. | .tagDirective .. | .documentStart =>
      match directives false [] tokens with
      | .error (some fault) => ([], some fault)
      | .error none => ([], last)
      | .ok (handles, rest) =>
        run (handles ++ defaultHandles) last fuel ⟨.root true, [.documentEnd], rest⟩
    | _ => run defaultHandles last fuel ⟨.root false, [.documentEnd], tokens⟩

end SecretFill.Yaml
