import SecretFill.CommandLine.Parameter

namespace SecretFill.CommandLine

/-!
# Wrong usage

* `NumberFault` — why a text is no number of seconds.
* `UsageError` — why a command line is refused; `UsageError.message` is its wording.
-/

/-- Why a text is no number. -/
inductive NumberFault where
  /-- There is nothing. -/
  | empty
  /-- There is something else than digits. -/
  | digit
  /-- The number does not fit into a word of 64 bits. -/
  | overflow
deriving DecidableEq, Repr

/-- The wording of a number fault. -/
def NumberFault.message : NumberFault → String
  | empty => "cannot parse integer from empty string"
  | digit => "invalid digit found in string"
  | overflow => "number too large to fit in target type"

/-- Why a command line is refused. -/
inductive UsageError where
  /-- There is no such parameter, or one document too many. -/
  | unknown (argument : String)
  /-- Two parameters exclude each other. -/
  | conflict (first second : Parameter)
  /-- A parameter stands twice. -/
  | repeated (p : Parameter)
  /-- A value is missing. -/
  | missingValue (p : Parameter)
  /-- A value is no number. -/
  | badNumber (p : Parameter) (value : String) (fault : NumberFault)
  /-- A value is given to a parameter that takes none. -/
  | unneededValue (p : Parameter) (value : String)
deriving DecidableEq, Repr

/-- The wording of a usage error. -/
def UsageError.message : UsageError → String
  | unknown argument => s!"error: unexpected argument '{argument}' found"
  | conflict first second =>
    s!"error: the argument '{first.title}' cannot be used with '{second.title}'"
  | repeated p => s!"error: the argument '{p.title}' cannot be used multiple times"
  | missingValue p => s!"error: a value is required for '{p.title}' but none was supplied"
  | badNumber p value fault =>
    s!"error: invalid value '{value}' for '{p.title}': {fault.message}"
  | unneededValue p value =>
    s!"error: unexpected value '{value}' for '{p.title}' found; no more were expected"

end SecretFill.CommandLine
