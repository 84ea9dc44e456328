import SecretFill.Yaml.Cursor

namespace SecretFill.Yaml

/-!
# Block scalars

A literal or folded scalar is a row of indented lines.  Its header may fix the indentation and say
what becomes of the line breaks at its end; without a number the first line that is not empty
fixes the indentation.

* `BlockHeader`, `blockHeader` — the header behind the indicator.
* `blockFrom` — the lines.
* `blockScalar` — the whole scalar.
-/

/-- What becomes of the line breaks at the end of a block scalar. -/
inductive Chomping where
  /-- All are dropped. -/
  | strip
  /-- The first is kept. -/
  | clip
  /-- All are kept. -/
  | keep
deriving DecidableEq, Repr

/-- The header of a block scalar. -/
structure BlockHeader where
  /-- What becomes of the final line breaks. -/
  chomping : Chomping
  /-- The indentation relative to the parent node, if it is fixed. -/
  indentation : Option Nat
deriving DecidableEq, Repr

/-- Reads a sign of the header; without one the final break is kept. -/
def chompingSign (c : Cursor) : Option Chomping × Cursor :=
  match c.rest with
  | '+' :: _ => (some .keep, c.skip 1)
  | '-' :: _ => (some .strip, c.skip 1)
  | _ => (none, c)

/-- Reads the digit of the header; it is not zero. -/
def indentationDigit (c : Cursor) : Except Fault (Option Nat × Cursor) :=
  match c.rest with
  | d :: _ =>
    if d = '0' then .error (.here c.mark)
    else if d.isDigit then .ok (some (d.toNat - '0'.toNat), c.skip 1)
    else .ok (none, c)
  | [] => .ok (none, c)

/-- Reads the header up to the end of its line: a sign and a digit in either order, then nothing but
    a comment. -/
def blockHeader (c : Cursor) : Except Fault (BlockHeader × Cursor) := do
  let (before, c) := chompingSign c
  let (indentation, c) ← indentationDigit c
  let (after, c) := if before.isNone && indentation.isSome then chompingSign c else (none, c)
  let c ← c.finishLine
  return (⟨(before.or after).getD .clip, indentation⟩, c)

/-- The state between the lines of a block scalar. -/
structure BlockText where
  /-- The characters so far, the latest first. -/
  read : List Char
  /-- The break that ended the last line of text. -/
  lastBreak : Option Char
  /-- The breaks of the empty lines after it, the latest first. -/
  emptyLines : List Char
  /-- Whether the last line of text began with a gap. -/
  beganWithGap : Bool
deriving DecidableEq, Repr

namespace BlockText

/-- Nothing was read. -/
def empty : BlockText := ⟨[], none, [], false⟩

/-- Begins a line of text.  In a folded scalar the break before it is folded between two lines that
    do not begin with a gap. -/
def beginLine (folded : Bool) (gap : Bool) (b : BlockText) : BlockText :=
  let joined :=
    if folded && b.lastBreak == some '\n' && !b.beganWithGap && !gap then
      if b.emptyLines.isEmpty then ' ' :: b.read else b.emptyLines ++ b.read
    else b.emptyLines ++ (b.lastBreak.toList ++ b.read)
  ⟨joined, none, [], gap⟩

/-- The text with its final line breaks as the header wants them. -/
def finish (chomping : Chomping) (b : BlockText) : List Char :=
  match chomping with
  | .strip => b.read.reverse
  | .clip => (b.lastBreak.toList ++ b.read).reverse
  | .keep => (b.emptyLines ++ (b.lastBreak.toList ++ b.read)).reverse

end BlockText

/-- Where the reader of a block scalar stands. -/
inductive BlockState where
  /-- At the start of a line, where the indentation may not be known yet; `widest` is the widest
      indentation seen so far. -/
  | indent (known : Option Nat) (widest : Nat)
  /-- In a line of text. -/
  | line (indentation : Nat)
deriving DecidableEq, Repr

/-- Goes on with the lines of a block scalar.  An indentation that is not fixed is that of the first
    line with text, but no less than that of the empty lines before it nor the margin. -/
def blockFrom (folded : Bool) (chomping : Chomping) (margin : Nat) (b : BlockText)
    (state : BlockState) : List Char → Mark → Except Fault (List Char × Cursor)
  | [], mark => .ok (b.finish chomping, ⟨[], mark⟩)
  | c :: rest, mark =>
    match state with
    | .line indentation =>
      match c, rest with
      | '\r', '\n' :: rest =>
        blockFrom folded chomping margin { b with lastBreak := some '\n' }
          (.indent (some indentation) 0) rest (mark.nextLine 2)
      | c, rest =>
        if isBreak c then
          blockFrom folded chomping margin { b with lastBreak := some (breakValue c) }
            (.indent (some indentation) 0) rest (mark.nextLine 1)
        else
          blockFrom folded chomping margin { b with read := c :: b.read } (.line indentation) rest
            mark.next
    | .indent known widest =>
      let outside := known.all fun n => mark.column < n
      let widest := max widest mark.column
      match c, rest with
      | '\r', '\n' :: rest =>
        blockFrom folded chomping margin { b with emptyLines := '\n' :: b.emptyLines }
          (.indent known widest) rest (mark.nextLine 2)
      | c, rest =>
        if isBreak c then
          blockFrom folded chomping margin { b with emptyLines := breakValue c :: b.emptyLines }
            (.indent known widest) rest (mark.nextLine 1)
        -- Spaces up to the indentation are not part of the text, and tabs may not stand there.
        else if outside && c == ' ' then
          blockFrom folded chomping margin b (.indent known widest) rest mark.next
        else if outside && c == '\t' then .error (.here mark)
        else
          -- The first line with text fixes an indentation that the header leaves open.
          let indentation := known.getD (max (max widest margin) 1)
          if mark.column = indentation then
            let b := b.beginLine folded (isGap c)
            blockFrom folded chomping margin { b with read := c :: b.read } (.line indentation) rest
              mark.next
          else .ok (b.finish chomping, ⟨c :: rest, mark⟩)

/-- Reads a block scalar behind its indicator. -/
def blockScalar (folded : Bool) (margin : Nat) (c : Cursor) : Except Fault (List Char × Cursor) := do
  let (header, c) ← blockHeader c
  let known := header.indentation.map (margin - 1 + ·)
  blockFrom folded header.chomping margin .empty (.indent known 0) c.rest c.mark

end SecretFill.Yaml
