import SecretFill.Yaml.Cursor

namespace SecretFill.Yaml

/-!
# Tokens of YAML

* `Lexeme` — the kinds of tokens.
* `Token` — a lexeme with the position where it starts.
-/

/-- What a token is.  Names and scalars are rows of characters; a tag may hold any octets, because it
    can spell them out. -/
inductive Lexeme where
  /-- A version directive. -/
  | versionDirective (major minor : Nat)
  /-- A directive that makes a tag handle stand for some octets. -/
  | tagDirective (handle : List Char) (expansion : List UInt8)
  /-- The marker before a document. -/
  | documentStart
  /-- The marker behind a document. -/
  | documentEnd
  /-- The end of the stream. -/
  | streamEnd
  /-- The indentation of a sequence begins. -/
  | blockSequenceStart
  /-- The indentation of a mapping begins. -/
  | blockMappingStart
  /-- An indentation ends. -/
  | blockEnd
  /-- An opening square bracket. -/
  | flowSequenceStart
  /-- A closing square bracket. -/
  | flowSequenceEnd
  /-- An opening brace. -/
  | flowMappingStart
  /-- A closing brace. -/
  | flowMappingEnd
  /-- The hyphen before an item. -/
  | blockEntry
  /-- A comma. -/
  | flowEntry
  /-- A key follows. -/
  | key
  /-- A value follows. -/
  | value
  /-- A reference to an anchor. -/
  | alias (name : List Char)
  /-- A name for the node that follows. -/
  | anchor (name : List Char)
  /-- A type for the node that follows. -/
  | tag (handle : List Char) (suffix : List UInt8)
  /-- A scalar; only a plain one is typed by its text. -/
  | scalar (text : List Char) (plain : Bool)
deriving DecidableEq, Repr, Inhabited

/-- A lexeme at a position. -/
structure Token where
  /-- What the token is. -/
  lexeme : Lexeme
  /-- Where it starts. -/
  start : Mark
deriving DecidableEq, Repr, Inhabited

end SecretFill.Yaml
