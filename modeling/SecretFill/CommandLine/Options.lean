import SecretFill.CommandLine.Usage
import SecretFill.Path.Basic

namespace SecretFill.CommandLine

/-!
# Reading the command line

Arguments are read from left to right.  A value is looked at only when the next parameter comes or
the line ends, so that an argument that nobody knows is refused before a value that does not fit.

* `Options` — what was given.
* `Scan` — the command line while it is read; `Scan.take`, `Scan.settle` — a parameter is complete.
* `Stop` — why reading ends early.
* `Options.parse` — the options of a command line.
-/

/-- What was given on the command line. -/
structure Options where
  /-- The document; the input if it is absent. -/
  input : Option String
  /-- Where the result goes; it is printed if this is absent. -/
  output : Option String
  /-- Whether handles are listed. -/
  list : Bool
  /-- Whether failures do not stop the run. -/
  keepGoing : Bool
  /-- The seconds that a fetch may take. -/
  timeoutSeconds : Option Nat
  /-- The store command. -/
  command : Option String
  /-- The settings file. -/
  config : Option String
  /-- Whether much is told. -/
  verbose : Bool
  /-- Whether little is told. -/
  quiet : Bool
deriving DecidableEq, Repr, Inhabited

/-- Why reading a command line ends early. -/
inductive Stop where
  /-- The line is refused. -/
  | usage (e : UsageError)
  /-- Help is wanted, the long or the short one. -/
  | help (isLong : Bool)
  /-- The version is wanted. -/
  | version
deriving DecidableEq, Repr

/-- A command line while it is read. -/
structure Scan where
  /-- The complete parameters with their values, in the order in which they were completed. -/
  given : List (Parameter × String)
  /-- A parameter that takes a value, with the value if there is one yet. -/
  pending : Option (Parameter × Option String)
  /-- Whether the next argument can be the value of the pending parameter. -/
  awaits : Bool
  /-- Whether all further arguments are documents. -/
  onlyDocuments : Bool
  /-- Whether a document was given. -/
  hasDocument : Bool
deriving Repr

/-- Reads digits behind a number below 2⁶⁴. -/
def readDigits (n : Nat) : List Char → Except NumberFault Nat
  | [] => .ok n
  | c :: cs =>
    if !c.isDigit then .error .digit
    else
      let n := n * 10 + (c.toNat - '0'.toNat)
      if n < 2 ^ 64 then readDigits n cs else .error .overflow

/-- Reads a number of at most 64 bits, which may have a plus sign. -/
def readSeconds (text : String) : Except NumberFault Nat :=
  match text.toList with
  | [] => .error .empty
  | ['+'] => .error .digit
  | '+' :: cs => readDigits 0 cs
  | cs => readDigits 0 cs

namespace Scan

/-- Nothing is read so far. -/
def start : Scan := ⟨[], none, false, false, false⟩

/-- Checks the value of a parameter. -/
def check (p : Parameter) (value : String) : Except Stop Unit :=
  if value.isEmpty && !p.allowsEmpty then .error (.usage (.missingValue p))
  else if p = .timeout then
    match readSeconds value with
    | .ok _ => .ok ()
    | .error fault => .error (.usage (.badNumber p value fault))
  else .ok ()

/-- Whether a parameter was completed before. -/
def has (s : Scan) (p : Parameter) : Bool := s.given.any fun entry => entry.1 == p

/-- Completes a parameter that takes a value. -/
def complete (s : Scan) (p : Parameter) : Option String → Except Stop Scan
  | none => .error (.usage (.missingValue p))
  | some value =>
    if s.has p then .error (.usage (.repeated p))
    else (check p value).map fun _ => { s with given := s.given ++ [(p, value)] }

/-- Completes the pending parameter, if there is one. -/
def settle (s : Scan) : Except Stop Scan :=
  match s.pending with
  | none => .ok { s with awaits := false }
  | some (p, value?) => { s with pending := none, awaits := false }.complete p value?

/-- Takes a parameter without a value. -/
def flag (s : Scan) (p : Parameter) (isLong : Bool) : Except Stop Scan := do
  let s ← s.settle
  match p with
  | .help => .error (.help isLong)
  | .version => .error .version
  | p =>
    if s.has p then .error (.usage (.repeated p))
    else .ok { s with given := s.given ++ [(p, "")] }

/-- Takes a parameter with the value that is attached to it, or waits for its value. -/
def option (s : Scan) (p : Parameter) (attached? : Option String) : Except Stop Scan := do
  let s ← s.settle
  match attached? with
  | some value => s.complete p (some value)
  | none => .ok { s with pending := some (p, none), awaits := true }

/-- Takes a document. -/
def document (s : Scan) (argument : String) : Except Stop Scan :=
  if s.hasDocument then .error (.usage (.unknown argument))
  else
    s.settle.map fun s =>
      { s with pending := some (.input, some argument), hasDocument := true }

/-- Takes an argument that starts with two dashes. -/
def long (s : Scan) (cs : List Char) : Except Stop Scan :=
  let name := String.ofList (cs.takeWhile (· ≠ '='))
  let attached? :=
    match cs.dropWhile (· ≠ '=') with
    | _ :: value => some (String.ofList value)
    | [] => none
  match Parameter.ofLong? name with
  | none => .error (.usage (.unknown s!"--{name}"))
  | some p =>
    if p.takesValue then s.option p attached?
    else
      match attached? with
      | some value => .error (.usage (.unneededValue p value))
      | none => s.flag p true

/-- Takes an argument that starts with one dash: a row of short names, the last of which may have
    its value attached. -/
def shorts (s : Scan) : List Char → Except Stop Scan
  | [] => .ok s
  | c :: rest =>
    match Parameter.ofShort? c with
    | none => .error (.usage (.unknown s!"-{c}"))
    | some p =>
      if p.takesValue then
        s.option p <|
          -- What follows in the same argument is the value, with an equals sign or without.
          match rest with
          | [] => none
          | '=' :: value => some (String.ofList value)
          | value => some (String.ofList value)
      else (s.flag p false).bind fun s => s.shorts rest

/-- Takes an argument that is no name: the value that is awaited, or a document. -/
def word (s : Scan) (argument : String) : Except Stop Scan :=
  match s.pending with
  | some (p, none) =>
    if s.awaits then .ok { s with pending := some (p, some argument), awaits := false }
    else s.document argument
  | _ => s.document argument

/-- Takes an argument. -/
def take (s : Scan) (argument : String) : Except Stop Scan :=
  if s.onlyDocuments then s.document argument
  else
    -- A lone dash is a word: as a document it names the input.
    match argument.toList with
    | ['-', '-'] => .ok { s with onlyDocuments := true }
    | '-' :: '-' :: cs => s.long cs
    | '-' :: c :: cs => s.shorts (c :: cs)
    | _ => s.word argument

/-- The value of a parameter. -/
def value? (s : Scan) (p : Parameter) : Option String := s.given.lookup p

/-- Which of two parameters that exclude each other was given first, if both were. -/
def clash? (s : Scan) (a b : Parameter) : Option (Parameter × Parameter) :=
  match (s.given.map Prod.fst).filter fun p => p == a || p == b with
  | first :: second :: _ => some (first, second)
  | _ => none

end Scan

/-- The variable that names the settings file if the command line does not. -/
def configVariable : String := "LPASS_RESOLVE_CONFIG"

/-- The options of a finished scan. -/
def Options.ofScan (s : Scan) (config? : Option String) : Options where
  input := s.value? .input
  output := s.value? .output
  list := s.has .list
  keepGoing := s.has .keepGoing
  timeoutSeconds := (s.value? .timeout).bind fun text => (readSeconds text).toOption
  command := s.value? .command
  config := (s.value? .config).or config?
  verbose := s.has .verbose
  quiet := s.has .quiet

/-- Reads a command line.  `config?` names a settings file from outside. -/
def Options.parse (config? : Option String) (arguments : List String) : Except Stop Options := do
  let s ← arguments.foldlM Scan.take Scan.start
  let s ← s.settle
  -- Parameters that exclude each other are compared once all are complete.
  match s.clash? .verbose .quiet with
  | some (first, second) => .error (.usage (.conflict first second))
  | none => .ok (.ofScan s config?)

namespace Options

/-- Whether the document is the input. -/
def readsInput (o : Options) : Bool :=
  match o.input with
  | none => true
  | some path => Path.parts path == ["-"] && Path.componentCount path == 1

/-- The name of the document in messages. -/
def documentName (o : Options) : String :=
  match o.input with
  | some path => if o.readsInput then "<stdin>" else path
  | none => "<stdin>"

end Options

end SecretFill.CommandLine
