import SecretFill.Yaml.Cursor
import SecretFill.Yaml.Folding

namespace SecretFill.Yaml

/-!
# Quoted scalars

In single quotes a quote is written twice; in double quotes a backslash starts an escape.  Lines
are folded in both.

* `singleQuoted`, `doubleQuoted` — read the scalar whose opening quote stands before a cursor.
* `Escape`, `escape?` — what the character behind a backslash means.
-/

/-- Goes on with a single-quoted scalar: `read` holds the characters so far, the latest first, and
    `spacing` the white space behind them. -/
def singleFrom (read : List Char) (spacing : Spacing) :
    List Char → Mark → Except Fault (List Char × Cursor)
  | [], mark => .error (.here mark)
  | '\r' :: '\n' :: rest, mark => singleFrom read (spacing.lineBreak '\n') rest (mark.nextLine 2)
  | c :: rest, mark =>
    if isBreak c then singleFrom read (spacing.lineBreak c) rest (mark.nextLine 1)
    else if isGap c then singleFrom read (spacing.gap c) rest mark.next
    else if mark.column = 0 ∧ atDocumentMarker (c :: rest) then .error (.here mark)
    else
      let read := spacing.text ++ read
      if c = '\'' then
        match rest with
        | '\'' :: rest => singleFrom ('\'' :: read) .empty rest (mark.skip 2)
        | rest => .ok (read.reverse, ⟨rest, mark.next⟩)
      else singleFrom (c :: read) .empty rest mark.next

/-- Reads a single-quoted scalar behind its opening quote. -/
def singleQuoted (c : Cursor) : Except Fault (List Char × Cursor) :=
  singleFrom [] .empty c.rest c.mark

/-- What the character behind a backslash means. -/
inductive Escape where
  /-- It stands for this character. -/
  | stands (c : Char)
  /-- So many hexadecimal digits follow and give a character. -/
  | code (digits : Nat)
deriving DecidableEq, Repr

/-- The escapes of double-quoted scalars. -/
def escape? : Char → Option Escape
  | '0' => some (.stands '\x00')
  | 'a' => some (.stands '\x07')
  | 'b' => some (.stands '\x08')
  | 't' => some (.stands '\t')
  | '\t' => some (.stands '\t')
  | 'n' => some (.stands '\n')
  | 'v' => some (.stands '\x0B')
  | 'f' => some (.stands '\x0C')
  | 'r' => some (.stands '\r')
  | 'e' => some (.stands '\x1B')
  | ' ' => some (.stands ' ')
  | '"' => some (.stands '"')
  | '/' => some (.stands '/')
  | '\\' => some (.stands '\\')
  | 'N' => some (.stands '\u0085')
  | '_' => some (.stands '\u00A0')
  | 'L' => some (.stands '\u2028')
  | 'P' => some (.stands '\u2029')
  | 'x' => some (.code 2)
  | 'u' => some (.code 4)
  | 'U' => some (.code 8)
  | _ => none

/-- The character with a code point, if there is one. -/
def scalarValue? (n : Nat) : Option Char :=
  if n < 0xD800 ∨ (0xDFFF < n ∧ n < 0x110000) then some (Char.ofNat n) else none

/-- Where the reader of a double-quoted scalar stands. -/
inductive QuoteState where
  /-- Among words, behind this white space. -/
  | text (spacing : Spacing)
  /-- Behind a backslash, which stands at this position. -/
  | escape (backslash : Mark)
  /-- In the digits of an escape, which begin at this position; so many are left, the others have
      this value. -/
  | code (start : Mark) (left value : Nat)
deriving DecidableEq, Repr

/-- Goes on with a double-quoted scalar: `read` holds the characters so far, the latest first. -/
def doubleFrom (read : List Char) (state : QuoteState) :
    List Char → Mark → Except Fault (List Char × Cursor)
  | [], mark =>
    match state with
    | .text _ => .error (.here mark)
    | .escape backslash => .error (.here backslash)
    | .code start _ _ => .error (.here start)
  | c :: rest, mark =>
    match state with
    | .text spacing =>
      match c, rest with
      | '\r', '\n' :: rest =>
        doubleFrom read (.text (spacing.lineBreak '\n')) rest (mark.nextLine 2)
      | c, rest =>
        if isBreak c then doubleFrom read (.text (spacing.lineBreak c)) rest (mark.nextLine 1)
        else if isGap c then doubleFrom read (.text (spacing.gap c)) rest mark.next
        else if mark.column = 0 ∧ atDocumentMarker (c :: rest) then .error (.here mark)
        else
          let read := spacing.text ++ read
          if c = '"' then .ok (read.reverse, ⟨rest, mark.next⟩)
          else if c = '\\' then doubleFrom read (.escape mark) rest mark.next
          else doubleFrom (c :: read) (.text .empty) rest mark.next
    | .escape backslash =>
      match c, rest with
      | '\r', '\n' :: rest => doubleFrom read (.text (.across none [])) rest (mark.nextLine 2)
      | c, rest =>
        if isBreak c then doubleFrom read (.text (.across none [])) rest (mark.nextLine 1)
        else
          match escape? c with
          | some (.stands d) => doubleFrom (d :: read) (.text .empty) rest mark.next
          | some (.code digits) => doubleFrom read (.code mark.next digits 0) rest mark.next
          | none => .error (.here backslash)
    | .code start left value =>
      match hexValue? c with
      | none => .error (.here start)
      | some digit =>
        let value := value * 16 + digit
        if left ≤ 1 then
          match scalarValue? value with
          | some d => doubleFrom (d :: read) (.text .empty) rest mark.next
          | none => .error (.here start)
        else doubleFrom read (.code start (left - 1) value) rest mark.next

/-- Reads a double-quoted scalar behind its opening quote. -/
def doubleQuoted (c : Cursor) : Except Fault (List Char × Cursor) :=
  doubleFrom [] (.text .empty) c.rest c.mark

end SecretFill.Yaml
