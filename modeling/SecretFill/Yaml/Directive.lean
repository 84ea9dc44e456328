import SecretFill.Yaml.Tag
import SecretFill.Yaml.Token

namespace SecretFill.Yaml

/-!
# Directives

* `versionNumber` — one number of a version directive.
* `directive` — reads a whole directive line behind its percent sign.
-/

/-- Reads a number of at most nine digits.  A longer one is refused at its tenth digit. -/
def versionNumber (c : Cursor) : Except Fault (Nat × Cursor) :=
  let digits := c.rest.takeWhile Char.isDigit
  if digits.isEmpty then .error (.here c.mark)
  else if 9 < digits.length then .error (.here (c.mark.skip 9))
  else .ok (digits.foldl (fun n d => n * 10 + (d.toNat - '0'.toNat)) 0, c.skip digits.length)

/-- Reads the two numbers of a version. -/
def versionDirective (c : Cursor) : Except Fault (Lexeme × Cursor) := do
  let (major, c) ← versionNumber (c.skipWhile isGap)
  if c.rest.head? ≠ some '.' then throw (.here c.mark)
  let (minor, c) ← versionNumber (c.skip 1)
  return (.versionDirective major minor, c)

/-- Reads a tag handle and the octets it stands for. -/
def tagDirective (c : Cursor) : Except Fault (Lexeme × Cursor) := do
  let c := c.skipWhile isGap
  if c.rest.head? ≠ some '!' then throw (.here c.mark)
  let (name, closed, c) := tagName (c.skip 1)
  if !closed && !name.isEmpty then throw (.here c.mark)
  if !(c.rest.head?.any isGap) then throw (.here c.mark)
  let (expansion, c) ← tagOctets true false [] (c.skipWhile isGap)
  if !atSeparation c.rest then throw (.here c.mark)
  return (.tagDirective ('!' :: (name ++ if closed then ['!'] else [])) expansion, c)

/-- Reads a directive behind its percent sign, with the line break that ends it. -/
def directive (c : Cursor) : Except Fault (Lexeme × Cursor) := do
  let name := c.rest.takeWhile isName
  let c := c.skipWhile isName
  if name.isEmpty || !atSeparation c.rest then throw (.here c.mark)
  let (lexeme, c) ←
    if name = "YAML".toList then versionDirective c
    else if name = "TAG".toList then tagDirective c
    else throw (.here c.mark)
  return (lexeme, ← c.finishLine)

end SecretFill.Yaml
