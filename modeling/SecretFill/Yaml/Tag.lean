import SecretFill.Yaml.Cursor

namespace SecretFill.Yaml

/-!
# Tags

A tag is a handle and a suffix.  The suffix may spell out octets as `%XX`, so it is a row of
octets; octets above 127 must have the shape of UTF-8.

* `tagHandle` — reads `!`, `!!` or `!name!`.
* `tagOctets` — reads a row of characters and escaped octets.
* `tag` — reads a whole tag.
-/

/-- The octet of an ASCII character. -/
def octet (c : Char) : UInt8 := c.toNat.toUInt8

/-- The octets of a row of ASCII characters. -/
def octets (cs : List Char) : List UInt8 := cs.map octet

/-- The characters of a suffix; in a verbatim tag and in a directive also those that delimit flow
    collections. -/
def isTagCharacter (verbatim : Bool) (c : Char) : Bool :=
  isName c || ";/?:@&=+$.%!~*'()".toList.contains c || (verbatim && ",[]".toList.contains c)

/-- How many octets a character has that begins with this octet, none if no character does. -/
def octetCount (first : Nat) : Nat :=
  if first < 128 then 1
  else if first / 32 = 6 then 2
  else if first / 16 = 14 then 3
  else if first / 8 = 30 then 4
  else 0

/-- Goes on with a row of octets: `due` octets are still to follow, each of them escaped; `read`
    holds the octets so far, the latest first. -/
def octetsFrom (verbatim : Bool) (read : List UInt8) (due : Nat) :
    List Char → Mark → Except Fault (List UInt8 × Cursor)
  | '%' :: a :: b :: rest, mark =>
    match hexValue? a, hexValue? b with
    | some high, some low =>
      let value := high * 16 + low
      let due := if due = 0 then octetCount value else if value / 64 = 2 then due else 0
      if due = 0 then .error (.here mark)
      else octetsFrom verbatim (value.toUInt8 :: read) (due - 1) rest (mark.skip 3)
    | _, _ => .error (.here mark)
  | c :: rest, mark =>
    if 0 < due ∨ c = '%' then .error (.here mark)
    else if isTagCharacter verbatim c then
      octetsFrom verbatim (octet c :: read) 0 rest mark.next
    else .ok (read.reverse, ⟨c :: rest, mark⟩)
  | [], mark => if 0 < due then .error (.here mark) else .ok (read.reverse, ⟨[], mark⟩)

/-- Reads the octets of a suffix, behind those of `before`.  It may not be empty unless it is the
    end of a `short` tag, and a zero octet ends it. -/
def tagOctets (verbatim short : Bool) (before : List UInt8) (c : Cursor) :
    Except Fault (List UInt8 × Cursor) := do
  let (read, after) ← octetsFrom verbatim [] 0 c.rest c.mark
  if read.isEmpty && !short then throw (.here after.mark)
  return ((before ++ read).takeWhile (· != 0), after)

/-- Reads the characters of a name and, if one stands behind them, the closing exclamation mark. -/
def tagName (c : Cursor) : List Char × Bool × Cursor :=
  let name := c.rest.takeWhile isName
  let c := c.skipWhile isName
  match c.rest with
  | '!' :: _ => (name, true, c.skip 1)
  | _ => (name, false, c)

/-- Reads the handle and the suffix of a tag at its exclamation mark.  A tag without a handle of its
    own has the handle `!`, and the lone `!` has the empty handle. -/
def tagParts (c : Cursor) : Except Fault ((List Char × List UInt8) × Cursor) := do
  match c.rest with
  | '!' :: '<' :: _ =>
    let (suffix, c) ← tagOctets true false [] (c.skip 2)
    if c.rest.head? = some '>' then return (([], suffix), c.skip 1) else throw (.here c.mark)
  | _ =>
    let (name, closed, c) := tagName (c.skip 1)
    if closed then
      let (suffix, c) ← tagOctets false false [] c
      return (('!' :: (name ++ ['!']), suffix), c)
    else
      let (suffix, c) ← tagOctets false true (octets name) c
      if suffix.isEmpty then return (([], [octet '!']), c) else return ((['!'], suffix), c)

/-- Reads a tag; white space follows it or, inside brackets, a comma. -/
def tag (flow : Bool) (c : Cursor) : Except Fault ((List Char × List UInt8) × Cursor) := do
  let (parts, c) ← tagParts c
  if (flow && c.rest.head? = some ',') || atSeparation c.rest then return (parts, c)
  else throw (.here c.mark)

end SecretFill.Yaml
