import SecretFill.Machine.Environment
import SecretFill.Text.Alphanumeric

namespace SecretFill.Path

/-!
# Expansion of paths

A path given by a person may refer to variables, and may start with `~` for the home directory.
`$NAME` and `${NAME}` stand for the value of a variable, and `${NAME:-text}` for the text if it is
not set; `$$` stands for one dollar sign.

* `Piece`, `pieces` — a path cut into characters and references.
* `expandVariables` — the path with its references replaced; values are taken as they are.
* `expandHome` — the path with its `~` replaced.
* `expand` — both in this order.
-/

/-- A piece of a path. -/
inductive Piece where
  /-- A character that stands for itself. -/
  | literal (c : Char)
  /-- A reference to a variable, with the text to take if it is not set. -/
  | reference (name : String) (default? : Option String)
deriving DecidableEq, Repr

/-- The characters of a name that stands without braces. -/
def isNameCharacter (c : Char) : Bool := Text.isAlphanumeric c || c == '_'

/-- The text before the first `stop` and the text behind it. -/
def cut? (stop : Char) : List Char → Option (List Char × List Char)
  | [] => none
  | c :: rest =>
    if c = stop then some ([], rest)
    else (cut? stop rest).map fun (before, behind) => (c :: before, behind)

/-- What stands behind is shorter than the whole. -/
theorem cut?_length {stop : Char} {cs before behind : List Char}
    (h : cut? stop cs = some (before, behind)) : behind.length < cs.length := by
  induction cs generalizing before behind with
  | nil => simp [cut?] at h
  | cons c rest ih =>
    by_cases hc : c = stop
    · simp [cut?, hc] at h
      simp [h.2]
    · simp only [cut?, hc, if_false, Option.map_eq_some_iff] at h
      obtain ⟨⟨before', behind'⟩, found, eq⟩ := h
      obtain ⟨-, rfl⟩ := Prod.mk.inj eq
      have := ih found
      simp only [List.length_cons]
      omega

/-- The text before the first `:-` and the text behind it. -/
def cutDefault? : List Char → Option (List Char × List Char)
  | [] => none
  | ':' :: '-' :: rest => some ([], rest)
  | c :: rest => (cutDefault? rest).map fun (name, text) => (c :: name, text)

/-- The reference that stands between braces.  Without a name, `:-` is itself part of the name. -/
def braced (cs : List Char) : Piece :=
  match cutDefault? cs with
  | some (c :: name, text) => .reference (String.ofList (c :: name)) (some (String.ofList text))
  | _ => .reference (String.ofList cs) none

/-- Cuts a path into its pieces. -/
def pieces : List Char → List Piece
  | [] => []
  | c :: rest =>
    if c ≠ '$' then .literal c :: pieces rest
    else
      match _shape : rest with
      | '$' :: rest' => .literal '$' :: pieces rest'
      | '{' :: rest' =>
        match _h : cut? '}' rest' with
        | some (inside, behind) => braced inside :: pieces behind
        | none => .literal '$' :: .literal '{' :: pieces rest'
      | rest' =>
        let name := rest'.takeWhile isNameCharacter
        if name.isEmpty then .literal '$' :: pieces rest'
        else .reference (String.ofList name) none :: pieces (rest'.dropWhile isNameCharacter)
termination_by cs => cs.length
decreasing_by
  · simp
  · simp only [List.length_cons]
    omega
  · have := cut?_length _h
    simp only [List.length_cons]
    omega
  · simp only [List.length_cons]
    omega
  · simp
  · have := (List.dropWhile_sublist isNameCharacter (l := rest')).length_le
    simp only [List.length_cons]
    omega

/-- Puts the values of variables in place of references, or names the first that has none. -/
def substitute (e : Environment) : List Piece → Except String (List Char)
  | [] => .ok []
  | .literal c :: rest => (substitute e rest).map (c :: ·)
  | .reference name default? :: rest =>
    match (e.get? name).or default? with
    | some value => (substitute e rest).map (value.toList ++ ·)
    | none => .error name

/-- Replaces the references of a path. -/
def expandVariables (e : Environment) (path : List Char) : Except String (List Char) :=
  substitute e (pieces path)

/-- Replaces a `~` that is the first component of a path. -/
def expandHome (e : Environment) : List Char → List Char
  | ['~'] => e.home.toList
  | '~' :: '/' :: rest => e.home.toList ++ '/' :: rest
  | path => path

/-- Expands a path, or names a variable that is not set.  A `~` that comes out of a variable stands
    for itself. -/
def expand (e : Environment) (path : String) : Except String String := do
  let expanded ← expandVariables e path.toList
  return String.ofList (if path.toList.head? = some '~' then expandHome e expanded else expanded)

end SecretFill.Path
