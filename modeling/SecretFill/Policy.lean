namespace SecretFill

/-!
# Policies

What becomes of a document when one of its placeholders has no value.
-/

/-- What to do with a placeholder that has no value. -/
inductive Policy where
  /-- Give up with its failure. -/
  | abort
  /-- Put a marker in its place and go on. -/
  | marker
deriving DecidableEq, Repr, Inhabited

/-- The name of a policy in settings. -/
def Policy.name : Policy → String
  | abort => "abort"
  | marker => "marker"

/-- The policy with a name. -/
def Policy.ofName? (name : String) : Option Policy :=
  if name = "abort" then some .abort
  else if name = "marker" then some .marker
  else none

end SecretFill
