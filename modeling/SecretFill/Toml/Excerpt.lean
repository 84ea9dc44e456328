import SecretFill.Placeholder
import SecretFill.Toml.Value

namespace SecretFill.Toml

/-!
# Showing a place in a document

A fault is shown below the line that it is in, with marks under the part that is wrong.

* `Excerpt` — a line with the part that is wrong; `Excerpt.of` finds it.
* `Excerpt.text` — the written form with a message.
-/

/-- A part of a line. -/
structure Excerpt where
  /-- The number of the line, from one. -/
  line : Nat
  /-- The number of characters before the part. -/
  column : Nat
  /-- The whole line. -/
  content : List Char
  /-- The size of the part in bytes. -/
  size : Nat
deriving DecidableEq, Repr

namespace Excerpt

/-- The characters of a text since its last line feed. -/
def lastLine (cs : List Char) : List Char := (cs.reverse.takeWhile (· ≠ '\n')).reverse

/-- The excerpt of a text for a part of it. -/
def of (cs : List Char) (span : Span) : Excerpt :=
  let before := cs.take (cs.length - span.atStart)
  let rest := cs.drop (cs.length - span.atStart)
  { line := before.count '\n' + 1
    column := (lastLine before).length
    content := lastLine before ++ rest.takeWhile (· ≠ '\n')
    size := byteSize (rest.take (span.atStart - span.atEnd)) }

/-- How many marks show the part: they do not go beyond the line, and there is at least one. -/
def marks (e : Excerpt) : Nat := max 1 (min e.size (byteSize e.content - e.column))

/-- The excerpt with a message. -/
def text (e : Excerpt) (message : String) : String :=
  let number := toString e.line
  let gutter := String.ofList (List.replicate (number.length + 1) ' ')
  let gap := String.ofList (List.replicate (e.column + 1) ' ')
  let row := String.ofList (List.replicate e.marks '^')
  s!"TOML parse error at line {e.line}, column {e.column + 1}\n{gutter}|\n" ++
    s!"{number} | {String.ofList e.content}\n{gutter}|{gap}{row}\n{message}\n"

end Excerpt

end SecretFill.Toml
