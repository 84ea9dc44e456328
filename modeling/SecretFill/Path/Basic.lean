import SecretFill.Text.Components

namespace SecretFill.Path

/-!
# Paths

A path is a text with slashes between its components.

* `join` — a path inside another one.
* `parts` — the components that name something.
* `componentCount` — how many components a path has.
-/

/-- A path inside another one.  A path that starts with a slash stands for itself. -/
def join (base path : String) : String :=
  if path.toList.head? = some '/' then path
  else if base.isEmpty || base.toList.getLast? = some '/' then base ++ path
  else s!"{base}/{path}"

/-- The texts between the slashes. -/
def split (path : String) : List String := (components '/' path.toList).map String.ofList

/-- The components that name something: all but empty ones and single points. -/
def parts (path : String) : List String := (split path).filter fun part => part ≠ "" && part ≠ "."

/-- Whether the first component is a single point. -/
def startsHere (path : String) : Bool := (split path).head? == some "."

/-- Whether a path starts at the top. -/
def isAbsolute (path : String) : Bool := path.toList.head? == some '/'

/-- The number of components: a point counts only at the start, and so does a slash. -/
def componentCount (path : String) : Nat :=
  (parts path).length + if startsHere path || isAbsolute path then 1 else 0

/-- Whether a path has a slash. -/
def hasSlash (path : String) : Bool := path.toList.contains '/'

end SecretFill.Path
