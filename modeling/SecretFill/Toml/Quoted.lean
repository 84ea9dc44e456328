import SecretFill.Number.Radix

namespace SecretFill.Toml

/-!
# Characters and strings

Control characters other than the tab stand nowhere in a document, and lines end with a line feed
or with a carriage return and a line feed.

* `isText`, `lineBreak?`, `skipFill` — characters, line ends, and what may stand between values.
* `basic`, `literal` — strings on one line, with and without escapes.
* `basicBlock`, `literalBlock` — strings of several lines.

Each reader of strings starts behind the opening quotes and leaves what follows the closing ones.
-/

/-- The characters that may stand in a line. -/
def isText (c : Char) : Bool := c == '\t' || (0x20 ≤ c.toNat && c.toNat ≠ 0x7F)

/-- A space or a tab. -/
def isGap (c : Char) : Bool := c == ' ' || c == '\t'

/-- Drops spaces and tabs. -/
def skipGap (cs : List Char) : List Char := cs.dropWhile isGap

/-- What follows a line end. -/
def lineBreak? : List Char → Option (List Char)
  | '\n' :: rest => some rest
  | '\r' :: '\n' :: rest => some rest
  | _ => none

/-- Drops spaces, line ends and comments, but refuses a control character in a comment. -/
def skipFill (inComment : Bool) : List Char → Option (List Char)
  | [] => some []
  | '\n' :: rest => skipFill false rest
  | '\r' :: '\n' :: rest => skipFill false rest
  | c :: rest =>
    if inComment then if isText c then skipFill true rest else none
    else if isGap c then skipFill false rest
    else if c = '#' then skipFill true rest
    else some (c :: rest)

/-- The character with a number that is written in `width` hexadecimal digits. -/
def codePoint? (width : Nat) (cs : List Char) : Option (Char × List Char) := do
  if cs.length < width then none
  else
    let n ← readNat? 16 (cs.take width)
    if n < 0xD800 || (0xDFFF < n && n < 0x110000) then some (Char.ofNat n, cs.drop width)
    else none

/-- The character that a backslash and what follows it stand for. -/
def escaped? : List Char → Option (Char × List Char)
  | 'b' :: rest => some ('\x08', rest)
  | 't' :: rest => some ('\t', rest)
  | 'n' :: rest => some ('\n', rest)
  | 'f' :: rest => some ('\x0C', rest)
  | 'r' :: rest => some ('\r', rest)
  | 'e' :: rest => some ('\x1B', rest)
  | '"' :: rest => some ('"', rest)
  | '\\' :: rest => some ('\\', rest)
  | 'x' :: rest => codePoint? 2 rest
  | 'u' :: rest => codePoint? 4 rest
  | 'U' :: rest => codePoint? 8 rest
  | _ => none

/-- Puts a character before what was read. -/
def andThen (c : Char) (read : List Char × List Char) : List Char × List Char :=
  (c :: read.1, read.2)

/-- The rest of a string in double quotes, with fuel for its characters. -/
def basicFrom : Nat → List Char → Option (List Char × List Char)
  | 0, _ | _, [] => none
  | fuel + 1, c :: rest =>
    if c = '"' then some ([], rest)
    else if c = '\\' then
      (escaped? rest).bind fun (c, rest) => (basicFrom fuel rest).map (andThen c)
    else if isText c then (basicFrom fuel rest).map (andThen c)
    else none

/-- A string in double quotes. -/
def basic (cs : List Char) : Option (List Char × List Char) := basicFrom (cs.length + 1) cs

/-- A string in single quotes. -/
def literal : List Char → Option (List Char × List Char)
  | [] => none
  | c :: rest =>
    if c = '\'' then some ([], rest)
    else if isText c then (literal rest).map (andThen c)
    else none

/-- Drops a line end that directly follows the opening quotes. -/
def dropFirstBreak (cs : List Char) : List Char := (lineBreak? cs).getD cs

/-- The end of a string of several lines: three quotes, before which one or two more belong to the
    string. -/
def blockEnd? (quote : Char) (cs : List Char) : Option (List Char × List Char) :=
  let quotes := (cs.takeWhile (· == quote)).length
  if quotes < 3 then none
  else
    let inside := min (quotes - 3) 2
    some (List.replicate inside quote, cs.drop (inside + 3))

/-- What follows a backslash at the end of a line: all white space up to the next text. -/
def continuation? (cs : List Char) : Option (List Char) :=
  (lineBreak? (skipGap cs)).map fun rest =>
    rest.dropWhile fun c => isGap c || c == '\n' || c == '\r'

/-- The rest of a string in three double quotes, with fuel for its characters. -/
def basicBlockFrom : Nat → List Char → Option (List Char × List Char)
  | 0, _ | _, [] => none
  | fuel + 1, c :: rest =>
    match blockEnd? '"' (c :: rest) with
    | some read => some read
    | none =>
      if c = '\\' then
        match continuation? rest with
        | some rest => basicBlockFrom fuel rest
        | none => (escaped? rest).bind fun (c, rest) => (basicBlockFrom fuel rest).map (andThen c)
      else if isText c || c = '\n' || (c = '\r' && rest.head? = some '\n') then
        (basicBlockFrom fuel rest).map (andThen c)
      else none

/-- A string in three double quotes. -/
def basicBlock (cs : List Char) : Option (List Char × List Char) :=
  basicBlockFrom (cs.length + 1) (dropFirstBreak cs)

/-- The rest of a string in three single quotes. -/
def literalBlockFrom : List Char → Option (List Char × List Char)
  | [] => none
  | c :: rest =>
    match blockEnd? '\'' (c :: rest) with
    | some read => some read
    | none =>
      if isText c || c = '\n' || (c = '\r' && rest.head? = some '\n') then
        (literalBlockFrom rest).map (andThen c)
      else none

/-- A string in three single quotes. -/
def literalBlock (cs : List Char) : Option (List Char × List Char) :=
  literalBlockFrom (dropFirstBreak cs)

end SecretFill.Toml
