namespace SecretFill

/-!
# Components

* `components` — the pieces of a text between the occurrences of a separator.
* `components_append` — a separator ends a component.
-/

/-- The pieces of a text between the occurrences of `sep`; one more than there are occurrences. -/
def components (sep : Char) : List Char → List (List Char)
  | [] => [[]]
  | c :: cs =>
    if c = sep then [] :: components sep cs
    else
      match components sep cs with
      | [] => [[c]]
      | piece :: pieces => (c :: piece) :: pieces

section Components

variable {sep : Char} {cs : List Char}

/-- Without a separator there is one component. -/
theorem components_of_not_mem (h : sep ∉ cs) : components sep cs = [cs] := by
  induction cs with
  | nil => rfl
  | cons c cs ih =>
    rw [List.mem_cons, not_or] at h
    rw [components, if_neg (Ne.symm h.1), ih h.2]

/-- A separator ends a component. -/
theorem components_append {piece : List Char} (h : sep ∉ piece) (rest : List Char) :
    components sep (piece ++ sep :: rest) = piece :: components sep rest := by
  induction piece with
  | nil => simp [components]
  | cons c piece ih =>
    rw [List.mem_cons, not_or] at h
    rw [List.cons_append, components, if_neg (Ne.symm h.1), ih h.2]

theorem exists_components (sep : Char) (cs : List Char) :
    ∃ piece pieces, components sep cs = piece :: pieces := by
  cases cs with
  | nil => exact ⟨_, _, rfl⟩
  | cons c cs =>
    rw [components]
    split
    · exact ⟨_, _, rfl⟩
    · split <;> exact ⟨_, _, rfl⟩

end Components

end SecretFill
