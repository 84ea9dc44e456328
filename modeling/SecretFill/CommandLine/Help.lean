import SecretFill.CommandLine.Parameter

namespace SecretFill.CommandLine

/-!
# Help

* `Parameter.purpose` — what a parameter is for.
* `help` — the help, in a long form with a paragraph for each parameter or in a short one with a
  line for each.
* `versionLine` — the name and the version.
-/

/-- What a parameter is for.  The help of help names its other form. -/
def Parameter.purpose (isLong : Bool) : Parameter → String
  | input => "Input document; omit or use \x60-\x60 to read stdin"
  | output => "Write the resolved document here instead of stdout"
  | list =>
    "Print the placeholder handles in the document, one per line, without contacting LastPass"
  | keepGoing =>
    "Replace failing placeholders with ((!unresolved HANDLE)) instead of aborting; exits 1 if any " ++
      "failed"
  | timeout => "Seconds to wait for each lpass invocation (0 disables the limit)"
  | command => "LastPass CLI executable to run"
  | config => "Path to the config file"
  | verbose => "Enable debug logging on stderr"
  | quiet => "Only log errors"
  | help => if isLong then "Print help (see a summary with '-h')"
    else "Print help (see more with '--help')"
  | version => "Print version"

/-- What the program does, in the long form or the short one. -/
def about (isLong : Bool) : String :=
  if isLong then
    "Reads a document, replaces every ((entry/field)) or ((entry/field/subfield)) placeholder with " ++
      "the JSON-encoded secret fetched through the LastPass CLI, and writes the result. Each " ++
      "entry/field pair is fetched once per run."
  else "Replace ((entry/field)) placeholders with secrets from LastPass"

/-- The names of a parameter. -/
def Parameter.names (p : Parameter) : String :=
  match p.short? with
  | some c => s!"-{c}, {p.title}"
  | none => s!"    {p.title}"

/-- The width of the longest names. -/
def namesWidth : Nat := ((Parameter.options.map fun p => p.names.length).max?).getD 0

/-- The variable that stands in for a parameter, with its value. -/
def Parameter.variableNote (config : String) : Parameter → String
  | .config => s!"[env: LPASS_RESOLVE_CONFIG={config}]"
  | _ => ""

/-- A row of spaces. -/
def spaces (n : Nat) : String := String.ofList (List.replicate n ' ')

/-- The part of the long help for a parameter. -/
def longEntry (config names : String) (p : Parameter) : String :=
  let note := p.variableNote config
  let tail := if note.isEmpty then "" else s!"{spaces 10}\n{spaces 10}{note}\n"
  s!"  {names}\n{spaces 10}{p.purpose true}\n{tail}"

/-- The line of the short help for a parameter. -/
def shortEntry (config names : String) (width : Nat) (p : Parameter) : String :=
  let note := p.variableNote config
  let tail := if note.isEmpty then "" else s!" {note}"
  s!"  {names}{spaces (width - names.length)}  {p.purpose false}{tail}\n"

/-- The parts of the help that are about parameters. -/
def entries (isLong : Bool) (config : String) : String :=
  let title := Parameter.title .input
  if isLong then
    let options := Parameter.options.map fun p => longEntry config p.names p
    s!"Arguments:\n{longEntry config title .input}\nOptions:\n" ++ "\n".intercalate options
  else
    let options := Parameter.options.map fun p => shortEntry config p.names namesWidth p
    s!"Arguments:\n{shortEntry config title title.length .input}\nOptions:\n" ++ String.join options

/-- The help; `config` is the settings file that is named from outside. -/
def help (isLong : Bool) (config : String) : String :=
  s!"{about isLong}\n\nUsage: lpass-resolve [OPTIONS] [INPUT]\n\n{entries isLong config}"

/-- The name and the version. -/
def versionLine : String := "lpass-resolve 0.1.0\n"

/-- What a person is told about a command line that is refused. -/
def refusal (message : String) : String :=
  s!"{message}\n\nFor more information, try '--help'.\n"

end SecretFill.CommandLine
