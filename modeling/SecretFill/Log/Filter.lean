import SecretFill.Log.Record
import SecretFill.Text.Alphanumeric
import SecretFill.Text.Blank
import SecretFill.Text.Components

namespace SecretFill.Log

/-!
# What is logged

A filter is a row of directives, each of which sets the finest level for the targets that start
with a text.  The longest text that fits a target decides.

* `Directive`, `Directive.parse?` — one directive and its written form.
* `Filter.parse?` — directives with commas between.
* `Filter.allows` — whether a record is logged.
-/

/-- The finest level for the targets that start with a text. -/
structure Directive where
  /-- The start of the targets. -/
  target : String
  /-- The finest level that is logged; absent if nothing is. -/
  finest : Option Level
deriving DecidableEq, Repr, Inhabited

/-- A row of directives. -/
structure Filter where
  /-- The directives; of two with the same text the later one counts. -/
  directives : List Directive
deriving DecidableEq, Repr, Inhabited

/-- The place of a level among the levels. -/
def Level.rank : Level → Nat
  | error => 1
  | warn => 2
  | info => 3
  | debug => 4
  | trace => 5

/-- The limit with a number from zero to five. -/
def limitOfNumber? : Nat → Option (Option Level)
  | 0 => some none
  | 1 => some (some .error)
  | 2 => some (some .warn)
  | 3 => some (some .info)
  | 4 => some (some .debug)
  | 5 => some (some .trace)
  | _ => none

/-- The limit with a name. -/
def limitOfName? (name : String) : Option (Option Level) :=
  match name with
  | "off" => some none
  | "error" => some (some .error)
  | "warn" => some (some .warn)
  | "info" => some (some .info)
  | "debug" => some (some .debug)
  | "trace" => some (some .trace)
  | _ => none

/-- The digits of a number, which may have a plus sign. -/
def numberDigits : List Char → List Char
  | '+' :: ds => ds
  | cs => cs

/-- The limit that a text writes, by its name in any case or by its number. -/
def readLimit? (cs : List Char) : Option (Option Level) :=
  let ds := numberDigits cs
  if !ds.isEmpty && ds.all Char.isDigit then
    limitOfNumber? (ds.foldl (fun n c => n * 10 + (c.toNat - '0'.toNat)) 0)
  else limitOfName? (String.ofList (cs.map Char.toLower))

/-- The limit behind an equals sign; nothing there stands for the finest. -/
def readLimitOrAll? (cs : List Char) : Option (Option Level) :=
  if cs.isEmpty then some (some .trace) else readLimit? cs

/-- The part of a directive that selects spans, from behind its bracket on: whether a record outside
    all spans can still fit it, and what follows the closing bracket. -/
def readSpan? (cs : List Char) : Option (Bool × List Char) :=
  let isMark := fun c => c == ']' || c == '{'
  let name := cs.takeWhile fun c => !isMark c
  match cs.dropWhile fun c => !isMark c with
  | ']' :: rest => some (false, rest)
  | '{' :: rest =>
    let field := rest.takeWhile (· ≠ '}')
    match rest.dropWhile (· ≠ '}') with
    | '}' :: ']' :: rest =>
      if field.isEmpty then none else some (name.isEmpty && field == "message".toList, rest)
    | _ => none
  | _ => none

/-- The limit at the end of a directive: nothing, or an equals sign and a limit, which is the end of
    the text as it was given. -/
def readTail? (raw tail : List Char) (length : Nat) : Option (Option Level) :=
  match tail with
  | [] => some (some .trace)
  | '=' :: limit => readLimitOrAll? (raw.drop (length - limit.length))
  | _ => none

/-- Whether a directive may start with a character. -/
def mayStart (c : Char) : Bool :=
  c == '-' || c == ':' || c == '_' || c == '[' || Text.isAlphanumeric c

/-- Reads a directive.  White space around it does not count for its shape, but its parts are taken
    from the text as it was given, so that leading white space shifts them.  A directive that only
    fits spans is read as nothing. -/
def Directive.parse? (text : List Char) : Option (Option Directive) :=
  let cs := Text.trimChars text
  let isMark := fun c => c == '=' || c == '['
  let size := (cs.takeWhile fun c => !isMark c).length
  let target := String.ofList (text.take size)
  if !cs.head?.any mayStart then none
  else
    match cs.drop size with
    | [] =>
      match readLimit? text with
      | some finest => some (some ⟨"", finest⟩)
      | none => some (some ⟨String.ofList text, some .trace⟩)
    | '[' :: span => do
      let (fits, tail) ← readSpan? span
      let finest ← readTail? text tail cs.length
      some (if fits then some ⟨target, finest⟩ else none)
    | tail => do
      let finest ← readTail? text tail cs.length
      some (some ⟨target, finest⟩)

namespace Filter

/-- The filter with one limit for all targets. -/
def upTo (finest : Level) : Filter := ⟨[⟨"", some finest⟩]⟩

/-- Reads a filter.  Without a directive only errors are logged. -/
def parse? (text : String) : Option Filter :=
  let texts := (components ',' text.toList).filter fun piece => !piece.isEmpty
  if texts.isEmpty then some (upTo .error)
  else (texts.mapM Directive.parse?).map fun directives => ⟨directives.filterMap id⟩

/-- The limit for a target: that of the longest text that fits, the last one if there are several. -/
def limitFor (f : Filter) (target : String) : Option Level :=
  let fitting := f.directives.filter fun d => d.target.toList.isPrefixOf target.toList
  let longest := (fitting.map fun d => d.target.length).max?.getD 0
  ((fitting.filter fun d => d.target.length = longest).getLast?).bind Directive.finest

/-- Whether a record is logged. -/
def allows (f : Filter) (r : Record) : Bool :=
  match f.limitFor r.target with
  | none => false
  | some finest => r.level.rank ≤ finest.rank

end Filter

end SecretFill.Log
