import SecretFill.Diagnosis
import SecretFill.Log.Record
import SecretFill.Machine.TextFile
import SecretFill.Path.Basic
import SecretFill.Path.Expansion
import SecretFill.Settings.File

namespace SecretFill.Settings

/-!
# Loading settings

The settings file is the one that is asked for, or else a file in the home directory.  A file that
is not there leaves the standard settings.

* `defaultPath` — the file in the home directory.
* `pathFor` — the path of the settings file.
* `loadFile`, `load` — the settings of a file that must be there, and of one that may be.
-/

/-- The settings file in the home directory. -/
def defaultPath (e : Environment) : String :=
  Path.join (Path.join e.home ".lpass-resolve") "config.toml"

/-- The trouble with a path that refers to a variable that is not set. -/
def expansionTrouble (path name : String) : Trouble :=
  (((Trouble.bare (.message "environment variable not found")).during
    s!"error looking key '{name}' up: environment variable not found")).during
    s!"Failed to expand path: {path}"

/-- A path as it is meant. -/
def expandPath (e : Environment) (path : String) : Except Trouble String :=
  (Path.expand e path).mapError (expansionTrouble path)

/-- The names of the variables that a path refers to. -/
def variablesOf (path : String) : List String :=
  (Path.pieces path.toList).filterMap fun
    | .reference name _ => some name
    | .literal _ => none

/-- The variables on which the path of the settings file depends. -/
def variablesFor (path? : Option String) : List String :=
  "HOME" :: ((path?.map variablesOf).getD [])

/-- The path of the settings file. -/
def pathFor (e : Environment) : Option String → Except Trouble String
  | some path => expandPath e path
  | none => .ok (defaultPath e)

/-- The settings of a file. -/
def loadFile (path : String) : Job (Except Trouble Settings) := do
  match ← Job.readFile path with
  | .error fault =>
    return .error ((Trouble.bare (.system fault)).during s!"Failed to read config file: {path}")
  | .ok text =>
    match parse text with
    | .ok settings => return .ok settings
    | .error reason =>
      return .error ((Trouble.bare (.settings reason)).during
        s!"Failed to parse config file: {path}")

/-- A record of the loading of settings. -/
def loadingNotice (message : String) : Log.Notice :=
  Log.note .debug "lpass_resolve::config::resolver" message

/-- The settings of a file that may be missing. -/
def load (note : Log.Notice → Job Unit) (path? : Option String) : Job (Except Trouble Settings) := do
  let e ← Job.environment (variablesFor path?)
  match pathFor e path? with
  | .error trouble => return .error trouble
  | .ok path =>
    if ← Job.ask (.isThere path) then
      note (loadingNotice s!"Loading config from {path}")
      loadFile path
    else
      note (loadingNotice s!"No config at {path}, using defaults")
      return .ok standard

end SecretFill.Settings
