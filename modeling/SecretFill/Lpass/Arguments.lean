import SecretFill.Handle

namespace SecretFill.Lpass

/-!
# The arguments of the store command

One secret is shown by `show FLAG ENTRY`, where the flag names the field.

* `fieldFlag` — the flag of a field; four fields have flags of their own.
* `showArguments` — the whole argument list for one address.
-/

/-- The flag that selects a field: the built-in fields have one each, any other field is custom. -/
def fieldFlag (field : String) : String :=
  if field = "Password" then "--password"
  else if field = "Username" then "--username"
  else if field = "URL" then "--url"
  else if field = "Notes" then "--notes"
  else s!"--field={field}"

/-- The arguments that show the secret at an address. -/
def showArguments (key : Key) : List String := ["show", fieldFlag key.field, key.entry]

end SecretFill.Lpass
