import SecretFill.Text.Utf8
import SecretFill.Yaml.Event
import SecretFill.Yaml.Schema

namespace SecretFill.Yaml

/-!
# From events to a value

* `Part` — an event whose references are numbered.
* `Document` — the parts of a document, where the references lead, and the fault that cut it off.
* `Document.value` — the value of a document.
* `read` — the value of the first document of a text.
-/

/-- A piece of a document. -/
inductive Part where
  /-- A reference with the number of its anchor. -/
  | reference (anchor : Nat)
  /-- A scalar. -/
  | scalar (tag : Option (List UInt8)) (text : List Char) (plain : Bool)
  /-- A sequence begins. -/
  | sequenceStart (tag : Option (List UInt8))
  /-- A sequence ends. -/
  | sequenceEnd
  /-- A mapping begins. -/
  | mappingStart (tag : Option (List UInt8))
  /-- A mapping ends. -/
  | mappingEnd
deriving DecidableEq, Repr, Inhabited

/-- A document that may be cut off by a fault. -/
structure Document where
  /-- The parts and their positions. -/
  parts : List (Part × Mark)
  /-- Where the anchors stand: numbers and indices of parts, the latest first. -/
  anchors : List (Nat × Nat)
  /-- The fault behind the last part. -/
  fault : Option Fault
deriving DecidableEq, Repr, Inhabited

/-! ### Anchors -/

/-- The anchors that were named so far, the latest first. -/
structure Naming where
  /-- The names with the numbers they have now. -/
  names : List (List Char × Nat)
  /-- Where the numbered anchors stand. -/
  places : List (Nat × Nat)
deriving DecidableEq, Repr, Inhabited

/-- Notes the anchor of the part with this index.  Its number is how many names there are, so a name
    that is given anew shares its number with the next new name, and the later place counts. -/
def Naming.note (n : Naming) (index : Nat) : Option (List Char) → Naming
  | none => n
  | some name =>
    let number := n.names.length
    ⟨(name, number) :: n.names.filter (·.1 != name), (number, index) :: n.places⟩

/-- Numbers the references of a row of events, the first of which has this index.  A reference to an
    unknown name cuts the document off. -/
def link (naming : Naming) (index : Nat) (fault : Option Fault) : List Event → Document
  | [] => ⟨[], naming.places, fault⟩
  | event :: rest =>
    let go (naming : Naming) (part : Part) : Document :=
      let document := link naming (index + 1) fault rest
      { document with parts := (part, event.mark) :: document.parts }
    match event.happening with
    | .alias name =>
      match naming.names.lookup name with
      | some number => go naming (.reference number)
      | none => ⟨[], naming.places, some (.here event.mark)⟩
    | .scalar properties text plain =>
      go (naming.note index properties.anchor) (.scalar properties.tag text plain)
    | .sequenceStart properties =>
      go (naming.note index properties.anchor) (.sequenceStart properties.tag)
    | .sequenceEnd => go naming .sequenceEnd
    | .mappingStart properties =>
      go (naming.note index properties.anchor) (.mappingStart properties.tag)
    | .mappingEnd => go naming .mappingEnd

/-! ### Scalars -/

/-- A tag of the YAML type repository. -/
def coreTag (name : String) : List UInt8 := octets ("tag:yaml.org,2002:" ++ name).toList

/-- The name of a tag of the application: it begins with an exclamation mark and is UTF-8. -/
def applicationTag? : Option (List UInt8) → Option String
  | none => none
  | some tag =>
    match tag with
    | [] => none
    | mark :: rest =>
      if mark = octet '!' then
        match Text.decodeUtf8 (if rest.isEmpty then tag else rest) with
        | .ok cs => some (bareTag (String.ofList cs))
        | .error _ => none
      else none

/-- The value of a scalar; `none` if its text does not fit its tag. -/
def scalarValue (tag : Option (List UInt8)) (text : List Char) (plain : Bool) : Option Value :=
  let untagged := if plain then plainValue? text else some (.string (String.ofList text))
  match tag with
  | none => untagged
  | some tag =>
    if tag = coreTag "bool" then (boolValue? text).map .bool
    else if tag = coreTag "int" then
      (integer? text).bind fun n => if integerFit n = .fits then some (.int n) else none
    else if tag = coreTag "float" then (floatValue? text).map .float
    else if tag = coreTag "null" then if isNullText text then some .null else none
    else if tag.head? = some (octet '!') then untagged
    else some (.string (String.ofList text))

/-! ### Nodes -/

/-- What is left of a document, and how many references were followed. -/
structure Rest where
  /-- The parts that are left. -/
  parts : List (Part × Mark)
  /-- The references that were followed. -/
  jumps : Nat

namespace Document

/-- The fault of a document whose parts ran out. -/
def shortage (d : Document) : Fault := d.fault.getD .nowhere

/-- How deep collections may be nested. -/
def maxDepth : Nat := 128

/-- How many references may be followed. -/
def maxJumps (d : Document) : Nat := 100 * d.parts.length

/-- Follows a reference: the parts from its anchor on. -/
def jump (d : Document) (number jumps : Nat) : Except Fault Rest :=
  if d.maxJumps < jumps + 1 then .error .nowhere
  else
    match d.anchors.lookup number with
    | some index => .ok ⟨d.parts.drop index, jumps + 1⟩
    | none => .error .nowhere

mutual

/-- Reads a node.  Collections may be nested `depth` deep; `tagged` says that the tag of the node
    was read before. -/
def node (d : Document) (fuel depth : Nat) (tagged : Bool) (s : Rest) :
    Except Fault (Value × Rest) :=
  match fuel with
  | 0 => .error .nowhere
  | fuel + 1 =>
    match s.parts with
    | [] => .error d.shortage
    | (part, mark) :: rest =>
      match part with
      | .reference number => do
        let (value, after) ← d.node fuel depth false (← d.jump number s.jumps)
        return (value, ⟨rest, after.jumps⟩)
      | .scalar tag text plain =>
        match if tagged then none else applicationTag? tag with
        | some name => do
          let (value, s) ← d.node fuel depth true s
          return (.tagged name value, s)
        | none =>
          match scalarValue (if tagged then none else tag) text plain with
          | some value => .ok (value, ⟨rest, s.jumps⟩)
          | none => .error (.here mark)
      | .sequenceStart tag =>
        match if tagged then none else applicationTag? tag, depth with
        | some name, _ => do
          let (value, s) ← d.node fuel depth true s
          return (.tagged name value, s)
        | none, 0 => .error (.here mark)
        | none, depth + 1 => do
          let (items, s) ← d.items fuel depth ⟨rest, s.jumps⟩
          return (.sequence items, s)
      | .mappingStart tag =>
        match if tagged then none else applicationTag? tag, depth with
        | some name, _ => do
          let (value, s) ← d.node fuel depth true s
          return (.tagged name value, s)
        | none, 0 => .error (.here mark)
        | none, depth + 1 => do
          let (entries, s) ← d.entries fuel depth mark [] ⟨rest, s.jumps⟩
          return (.mapping entries, s)
      | .sequenceEnd | .mappingEnd => .error (.here mark)

/-- Reads items up to the end of a sequence. -/
def items (d : Document) (fuel depth : Nat) (s : Rest) : Except Fault (List Value × Rest) :=
  match fuel with
  | 0 => .error .nowhere
  | fuel + 1 =>
    match s.parts with
    | [] => .error d.shortage
    | (.sequenceEnd, _) :: rest => .ok ([], ⟨rest, s.jumps⟩)
    | _ => do
      let (item, s) ← d.node fuel depth false s
      let (items, s) ← d.items fuel depth s
      return (item :: items, s)

/-- Reads entries up to the end of a mapping that starts at `mark`, behind those in `before`.  No
    two keys may be equal. -/
def entries (d : Document) (fuel depth : Nat) (mark : Mark) (before : List (Value × Value))
    (s : Rest) : Except Fault (List (Value × Value) × Rest) :=
  match fuel with
  | 0 => .error .nowhere
  | fuel + 1 =>
    match s.parts with
    | [] => .error d.shortage
    | (.mappingEnd, _) :: rest => .ok (before, ⟨rest, s.jumps⟩)
    | _ => do
      let (key, s) ← d.node fuel depth false s
      -- An equal key is refused before its value is looked at.
      if before.any fun entry => entry.1.same key then throw (.here mark)
      let (value, s) ← d.node fuel depth false s
      d.entries fuel depth mark (before ++ [(key, value)]) s

end

/-- The value of a document.  A document without parts and without a fault is empty.  The fault that
    cuts a document off matters once the parts before it are read. -/
def value (d : Document) : Except Fault Value :=
  match d.parts, d.fault with
  | [], none => .ok .null
  | parts, fault => do
    let (value, _) ← d.node (300 * (parts.length + 4)) maxDepth false ⟨parts, 0⟩
    match fault with
    | some fault => throw fault
    | none => return value

end Document

/-- The first document of a text. -/
def Document.first (text : List Char) : Document :=
  let (events, fault) := events text
  link ⟨[], []⟩ 0 fault events

/-- The value of the first document of a text. -/
def read (text : List Char) : Except Fault Value := (Document.first text).value

end SecretFill.Yaml
