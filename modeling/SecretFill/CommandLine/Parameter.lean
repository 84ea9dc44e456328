namespace SecretFill.CommandLine

/-!
# Parameters of the command line

* `Parameter` — what can be given; `Parameter.options` lists the ones with names.
* `Parameter.long`, `short?`, `placeholder?` — how they are given.
* `Parameter.title` — how they are named in messages.
-/

/-- What can be given on the command line. -/
inductive Parameter where
  /-- The document. -/
  | input
  /-- Where the result goes. -/
  | output
  /-- That handles are listed. -/
  | list
  /-- That failures do not stop the run. -/
  | keepGoing
  /-- The limit of a fetch. -/
  | timeout
  /-- The store command. -/
  | command
  /-- The settings file. -/
  | config
  /-- That much is told. -/
  | verbose
  /-- That little is told. -/
  | quiet
  /-- That help is wanted. -/
  | help
  /-- That the version is wanted. -/
  | version
deriving DecidableEq, Repr, Inhabited

namespace Parameter

/-- The parameters with names, in the order of the help. -/
def options : List Parameter :=
  [output, list, keepGoing, timeout, command, config, verbose, quiet, help, version]

/-- The long name. -/
def long : Parameter → String
  | input => ""
  | output => "output"
  | list => "list"
  | keepGoing => "keep-going"
  | timeout => "timeout"
  | command => "lpass-command"
  | config => "config"
  | verbose => "verbose"
  | quiet => "quiet"
  | help => "help"
  | version => "version"

/-- The short name. -/
def short? : Parameter → Option Char
  | output => some 'o'
  | config => some 'c'
  | verbose => some 'v'
  | quiet => some 'q'
  | help => some 'h'
  | version => some 'V'
  | _ => none

/-- What stands for the value in messages; a parameter without it takes no value. -/
def placeholder? : Parameter → Option String
  | input => some "INPUT"
  | output | config => some "PATH"
  | timeout => some "SECS"
  | command => some "CMD"
  | _ => none

/-- Whether a parameter takes a value. -/
def takesValue (p : Parameter) : Bool := p.placeholder?.isSome

/-- Whether the value may be empty. -/
def allowsEmpty : Parameter → Bool
  | input | output => false
  | _ => true

/-- The name of a parameter in messages. -/
def title (p : Parameter) : String :=
  match p, p.placeholder? with
  | input, _ => "[INPUT]"
  | p, some placeholder => s!"--{p.long} <{placeholder}>"
  | p, none => s!"--{p.long}"

/-- The parameter with a long name. -/
def ofLong? (name : String) : Option Parameter := options.find? fun p => p.long == name

/-- The parameter with a short name. -/
def ofShort? (c : Char) : Option Parameter := options.find? fun p => p.short? == some c

end Parameter

end SecretFill.CommandLine
