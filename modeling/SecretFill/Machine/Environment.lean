namespace SecretFill

/-!
# The environment

Named texts that a program gets from outside.

* `Environment` — the names with their values.
* `Environment.get?`, `set`, `unset` — reading and changing them.
* `Environment.home` — the home directory.
-/

/-- Names with values; no name stands twice. -/
structure Environment where
  /-- The entries. -/
  entries : List (String × String)
deriving DecidableEq, Repr, Inhabited

namespace Environment

/-- Nothing is set. -/
def empty : Environment := ⟨[]⟩

/-- The value of a name. -/
def get? (e : Environment) (name : String) : Option String := e.entries.lookup name

/-- Removes a name. -/
def unset (e : Environment) (name : String) : Environment :=
  ⟨e.entries.filter fun entry => entry.1 ≠ name⟩

/-- Sets a name. -/
def set (e : Environment) (name value : String) : Environment :=
  ⟨(name, value) :: (e.unset name).entries⟩

/-- The home directory of the account, for an environment that names none. -/
def accountHome : String := "/root"

/-- The home directory. -/
def home (e : Environment) : String :=
  match e.get? "HOME" with
  | none | some "" => accountHome
  | some home => home

end Environment

end SecretFill
