namespace SecretFill

/-!
# Placeholders in a document

A placeholder is `((`, a text without a line feed, and the first `))` after it.  Scanning goes
from left to right, takes the first place where a placeholder starts, and goes on behind it.

* `handleEnd?` — the text up to the first `))` of the line.
* `segments` — the document cut into single characters and placeholders.
* `Placeholder.find` — the placeholders with their byte positions.
* `hasPlaceholders` — whether there are any; this is searched for without cutting the document.
* `marker` — what stands for a placeholder that has no value.
-/

/-- Splits off the text before the first `))`, if there is one before the line feed. -/
def handleEnd? : List Char → Option (List Char × List Char)
  | [] => none
  | ')' :: ')' :: rest => some ([], rest)
  | c :: rest =>
    if c = '\n' then none
    else (handleEnd? rest).map fun (handle, rest) => (c :: handle, rest)

/-- What follows the delimiter is shorter than what was scanned. -/
theorem handleEnd?_length {cs handle rest : List Char} (h : handleEnd? cs = some (handle, rest)) :
    rest.length < cs.length := by
  fun_induction handleEnd? cs generalizing handle rest with
  | case1 => simp at h
  | case2 r =>
    obtain ⟨-, rfl⟩ := Prod.mk.inj (Option.some.inj h)
    simp only [List.length_cons]
    omega
  | case3 => simp at h
  | case4 c r _ _ ih =>
    obtain ⟨⟨handle', rest'⟩, found, eq⟩ := Option.map_eq_some_iff.1 h
    obtain ⟨-, rfl⟩ := Prod.mk.inj eq
    have := ih found
    simp only [List.length_cons]
    omega

/-- A document is a row of plain characters and placeholders. -/
inductive Segment where
  /-- A character that stays as it is. -/
  | literal (c : Char)
  /-- A placeholder with the text between its delimiters. -/
  | placeholder (handle : List Char)
deriving DecidableEq, Repr

/-- Cuts a document at its placeholders. -/
def segments : List Char → List Segment
  | [] => []
  | c :: rest =>
    match c, rest with
    | '(', '(' :: rest' =>
      match _h : handleEnd? rest' with
      | some (handle, after) => .placeholder handle :: segments after
      | none => .literal '(' :: segments ('(' :: rest')
    | c, rest => .literal c :: segments rest
termination_by cs => cs.length
decreasing_by
  · have := handleEnd?_length _h
    simp only [List.length_cons]
    omega
  · simp
  · simp

/-- The text of a segment in the document. -/
def Segment.source : Segment → List Char
  | .literal c => [c]
  | .placeholder handle => '(' :: '(' :: (handle ++ [')', ')'])

/-- One placeholder of a document. -/
structure Placeholder where
  /-- The byte offset of the opening delimiter. -/
  start : Nat
  /-- The byte offset behind the closing delimiter. -/
  stop : Nat
  /-- The text between the delimiters. -/
  handle : String
deriving DecidableEq, Repr

/-- The size in bytes of a row of characters. -/
def byteSize : List Char → Nat
  | [] => 0
  | c :: rest => c.utf8Size + byteSize rest

/-- The placeholders among some segments, the first of which stands at byte `offset`. -/
def Placeholder.locate (offset : Nat) : List Segment → List Placeholder
  | [] => []
  | segment :: rest =>
    let stop := offset + byteSize segment.source
    match segment with
    | .literal _ => locate stop rest
    | .placeholder handle => ⟨offset, stop, String.ofList handle⟩ :: locate stop rest

/-- The placeholders of a document from left to right. -/
def Placeholder.find (document : String) : List Placeholder :=
  Placeholder.locate 0 (segments document.toList)

/-- Whether there is a `))` before the line feed. -/
def closes : List Char → Bool
  | [] => false
  | ')' :: ')' :: _ => true
  | c :: rest => c ≠ '\n' && closes rest

/-- Whether a placeholder begins a text. -/
def opensPlaceholder : List Char → Bool
  | '(' :: '(' :: rest => closes rest
  | _ => false

/-- Whether a placeholder stands anywhere in a text. -/
def holdsPlaceholder : List Char → Bool
  | [] => false
  | c :: rest => opensPlaceholder (c :: rest) || holdsPlaceholder rest

/-- Whether a document has a placeholder. -/
def hasPlaceholders (document : String) : Bool := holdsPlaceholder document.toList

/-- What is written in place of a placeholder that has no value. -/
def marker (handle : String) : String := s!"((!unresolved {handle}))"

end SecretFill
