import SecretFill.Json.Quote
import SecretFill.Policy

namespace SecretFill

/-!
# Settings

What a person may set for a run.

* `Settings` — the settings; `Settings.standard` has those of an empty file.
* `Settings.timeout?` — the limit of a fetch.
* `Settings.json` — the settings as a JSON object.
-/

/-- The settings of a run. -/
structure Settings where
  /-- The store command. -/
  command : String
  /-- The seconds that a fetch may take; zero stands for no limit. -/
  timeoutSeconds : Nat
  /-- Whether an empty secret counts as cached. -/
  cachesEmpty : Bool
  /-- What becomes of a placeholder that has no value. -/
  policy : Policy
deriving DecidableEq, Repr, Inhabited

namespace Settings

/-- The settings that hold if nothing is set. -/
def standard : Settings := ⟨"lpass", 300, true, .abort⟩

/-- The seconds that a fetch may take, if there is a limit. -/
def timeout? (s : Settings) : Option Nat :=
  if s.timeoutSeconds = 0 then none else some s.timeoutSeconds

/-- The settings as a JSON object without spaces. -/
def json (s : Settings) : String :=
  String.join [
    "\x7b\"lpass_command\":", Json.quote s.command,
    ",\"timeout_secs\":", toString s.timeoutSeconds,
    ",\"cache_empty_values\":", if s.cachesEmpty then "true" else "false",
    ",\"on_error\":", Json.quote s.policy.name, "\x7d"]

end Settings

end SecretFill
