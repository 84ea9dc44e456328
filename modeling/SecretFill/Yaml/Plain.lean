import SecretFill.Yaml.Cursor
import SecretFill.Yaml.Folding

namespace SecretFill.Yaml

/-!
# Plain scalars

A plain scalar is a row of words without quotes.  It ends before a comment, a document marker, a
colon with white space behind it, a line that is indented too little and, inside brackets, before
a bracket or a comma.

* `PlainScalar` — the text, and what follows it.
* `plainScalar` — reads the plain scalar at a cursor.
-/

/-- A plain scalar that was read. -/
structure PlainScalar where
  /-- The text with its lines folded. -/
  text : List Char
  /-- The cursor behind the scalar and the white space that follows it. -/
  after : Cursor
  /-- Whether that white space has a line break. -/
  endsLine : Bool
deriving DecidableEq, Repr

/-- The characters that end a plain scalar inside brackets. -/
def isFlowIndicator (c : Char) : Bool :=
  c == ',' || c == '[' || c == ']' || c == '{' || c == '}'

/-- Whether the word that begins here is not part of the scalar, because of the white space before
    it. -/
def endsAfterSpacing (flow : Bool) (margin : Nat) (cs : List Char) (mark : Mark) : Bool :=
  (!flow && mark.column < margin) || (mark.column == 0 && atDocumentMarker cs)
    || cs.head? == some '#'

/-- Whether the character that stands here ends a word and the scalar. -/
def endsWord (flow : Bool) : List Char → Bool
  | ':' :: rest => atSeparation rest
  | c :: _ => flow && isFlowIndicator c
  | [] => true

/-- Whether a colon stands here that is followed by an indicator; inside brackets that is refused. -/
def isMisplacedColon : List Char → Bool
  | ':' :: c :: _ => isFlowIndicator c || c == '?'
  | _ => false

/-- Goes on with a plain scalar: `read` holds the characters so far, the latest first, and
    `spacing` the white space behind them.  Inside brackets (`flow`) the margin is not heeded. -/
def plainFrom (flow : Bool) (margin : Nat) (read : List Char) (spacing : Spacing) :
    List Char → Mark → Except Fault PlainScalar
  | [], mark => .ok ⟨read.reverse, ⟨[], mark⟩, spacing.isAcross⟩
  | '\r' :: '\n' :: rest, mark =>
    plainFrom flow margin read (spacing.lineBreak '\n') rest (mark.nextLine 2)
  | c :: rest, mark =>
    if isBreak c then plainFrom flow margin read (spacing.lineBreak c) rest (mark.nextLine 1)
    else if isGap c then
      if spacing.isAcross && c == '\t' && mark.column < margin then .error (.here mark)
      else plainFrom flow margin read (spacing.gap c) rest mark.next
    else if !spacing.isEmpty && endsAfterSpacing flow margin (c :: rest) mark then
      .ok ⟨read.reverse, ⟨c :: rest, mark⟩, spacing.isAcross⟩
    else if flow && isMisplacedColon (c :: rest) then .error (.here mark)
    else if endsWord flow (c :: rest) then
      .ok ⟨read.reverse, ⟨c :: rest, mark⟩, spacing.isAcross⟩
    else plainFrom flow margin (c :: (spacing.text ++ read)) .empty rest mark.next

/-- Reads the plain scalar at a cursor; its later lines start at or behind the margin. -/
def plainScalar (flow : Bool) (margin : Nat) (c : Cursor) : Except Fault PlainScalar :=
  plainFrom flow margin [] .empty c.rest c.mark

end SecretFill.Yaml
