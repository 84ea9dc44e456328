import SecretFill.Toml.Quoted
import SecretFill.Toml.Scalar
import SecretFill.Toml.Tree

namespace SecretFill.Toml

/-!
# Reading documents

A document is a row of lines: headers, which open a table, and entries of the table opened last.

* `readKey`, `readPath` — keys, and keys joined by dots.
* `readValue` — a value; arrays and tables in braces may be nested to a fixed depth.
* `read?` — the table that a text writes, if it is TOML.
-/

/-- The part of a text between two rests of it. -/
def Span.between (start stop : List Char) : Span := ⟨start.length, stop.length⟩

/-- The characters of keys without quotes. -/
def isKeyCharacter (c : Char) : Bool := c.isAlphanum || c == '_' || c == '-'

/-- Reads one key. -/
def readKey (cs : List Char) : Option (Key × List Char) :=
  let quoted := fun (read : List Char × List Char) =>
    (Key.mk (.between cs read.2) (String.ofList read.1), read.2)
  match cs with
  | '"' :: rest => (basic rest).map quoted
  | '\'' :: rest => (literal rest).map quoted
  | cs =>
    let word := cs.takeWhile isKeyCharacter
    if word.isEmpty then none else some (quoted (word, cs.dropWhile isKeyCharacter))

/-- Reads keys joined by dots, with fuel for their number: all but the last, and the last. -/
def readPathFrom : Nat → List Char → Option ((List Key × Key) × List Char)
  | 0, _ => none
  | fuel + 1, cs => do
    let (key, rest) ← readKey cs
    match skipGap rest with
    | '.' :: rest =>
      let ((path, last), rest) ← readPathFrom fuel (skipGap rest)
      some ((key :: path, last), rest)
    | rest => some (([], key), rest)

/-- Reads keys joined by dots, and drops the spaces behind them. -/
def readPath (cs : List Char) : Option ((List Key × Key) × List Char) :=
  readPathFrom (cs.length + 1) cs

/-- A reader of values. -/
abbrev Reader := List Char → Option (Value × List Char)

/-- Reads the items of an array up to its end, with fuel for their number. -/
def readItems (item : Reader) : Nat → List Char → Option (List Value × List Char)
  | 0, _ => none
  | fuel + 1, cs => do
    match ← skipFill false cs with
    | ']' :: rest => some ([], rest)
    | cs =>
      let (value, rest) ← item cs
      match ← skipFill false rest with
      | ']' :: rest => some ([value], rest)
      | ',' :: rest =>
        let (values, rest) ← readItems item fuel rest
        some (value :: values, rest)
      | _ => none

/-- Reads a key and its value. -/
def readEntry (item : Reader) (cs : List Char) : Option ((List Key × Key × Value) × List Char) := do
  match ← readPath cs with
  | ((path, key), '=' :: rest) =>
    let (value, rest) ← item (skipGap rest)
    some ((path, key, value), rest)
  | _ => none

/-- Reads the entries of a table in braces up to its end, with fuel for their number, and adds them
    to those read before. -/
def readEntries (item : Reader) : Nat → Entries → List Char → Option (Entries × List Char)
  | 0, _, _ => none
  | fuel + 1, entries, cs => do
    match ← skipFill false cs with
    | '}' :: rest => some (entries, rest)
    | cs =>
      let ((path, key, value), rest) ← readEntry item cs
      let entries ← entries.insert? path key value .braces
      match ← skipFill false rest with
      | '}' :: rest => some (entries, rest)
      | ',' :: rest => readEntries item fuel entries rest
      | _ => none

/-- Reads a string in quotes. -/
def readString (cs : List Char) : Option (List Char × List Char) :=
  match cs with
  | '"' :: '"' :: '"' :: rest => basicBlock rest
  | '\'' :: '\'' :: '\'' :: rest => literalBlock rest
  | '"' :: rest => basic rest
  | '\'' :: rest => literal rest
  | _ => none

/-- Reads a value with at most `depth` arrays and tables around each other. -/
def readValue : Nat → Reader
  | depth, cs =>
    match cs with
    | '[' :: rest =>
      match depth with
      | 0 => none
      | depth + 1 =>
        (readItems (fun cs => readValue depth cs) cs.length rest).map fun (items, rest) =>
          (.array (.between cs rest) false items, rest)
    | '{' :: rest =>
      match depth with
      | 0 => none
      | depth + 1 =>
        (readEntries (fun cs => readValue depth cs) cs.length [] rest).map fun (entries, rest) =>
          (.table (.between cs rest) .braces entries, rest)
    | c :: _ =>
      if c = '"' ∨ c = '\'' then
        (readString cs).map fun (text, rest) =>
          (.string (.between cs rest) (String.ofList text), rest)
      else
        let (word, rest) := splitScalar cs
        (scalar? (.between cs rest) word).map fun value => (value, rest)
    | [] => none

/-- How deep arrays and tables in braces may be nested. -/
def maxDepth : Nat := 80

/-- What follows the line that is read so far: nothing but spaces and a comment may be left in it. -/
def endLine? (cs : List Char) : Option (List Char) :=
  let rest := skipGap cs
  let rest := match rest with
    | '#' :: comment => comment.dropWhile isText
    | rest => rest
  if rest.isEmpty then some [] else lineBreak? rest

/-- A document while it is read. -/
structure Draft where
  /-- The whole table. -/
  root : Entries
  /-- The path of the table that was opened last. -/
  current : List Key

/-- Reads a header behind its first bracket. -/
def readHeader (d : Draft) (start rest : List Char) : Option (Draft × List Char) := do
  match rest with
  | '[' :: rest =>
    match ← readPath (skipGap rest) with
    | ((path, key), ']' :: ']' :: rest) =>
      let root ← Entries.change? false (Entries.openItem? (.between start rest) key) path .header
        d.root
      some (⟨root, path ++ [key]⟩, rest)
    | _ => none
  | rest =>
    match ← readPath (skipGap rest) with
    | ((path, key), ']' :: rest) =>
      let root ← Entries.change? false (Entries.openTable? (.between start rest) key) path .header
        d.root
      some (⟨root, path ++ [key]⟩, rest)
    | _ => none

/-- Reads an entry into the table that was opened last. -/
def readLineEntry (d : Draft) (cs : List Char) : Option (Draft × List Char) := do
  let ((path, key, value), rest) ← readEntry (readValue maxDepth) cs
  let root ← Entries.change? false (Entries.insert? path key value) d.current .header d.root
  some ({ d with root }, rest)

/-- Reads the lines of a document, with fuel for their number. -/
def readLines : Nat → Draft → List Char → Option Draft
  | 0, _, _ => none
  | fuel + 1, d, cs => do
    match ← skipFill false cs with
    | [] => some d
    | '[' :: rest =>
      let (d, rest) ← readHeader d ('[' :: rest) rest
      readLines fuel d (← endLine? rest)
    | cs =>
      let (d, rest) ← readLineEntry d cs
      readLines fuel d (← endLine? rest)

/-- The entries of the table that a text writes.  A byte order mark at its start does not count. -/
def read? (text : String) : Option Entries :=
  let cs := text.toList
  -- Positions are counted from the end of the text, so the mark does not shift them.
  let cs := if cs.head? = some '\uFEFF' then cs.tail else cs
  (readLines (cs.length + 1) ⟨[], []⟩ cs).map Draft.root

/-- Whether a text is a document whose numbers all fit into words of 64 bits. -/
def isDocument (text : String) : Bool := (read? text).any Value.entriesFit

end SecretFill.Toml
