import SecretFill.Proofs.Encoding
import SecretFill.Proofs.Positions

namespace SecretFill.Yaml

/-!
# Keys and their printed texts

No two keys of a mapping are the same value.  A number or a truth value is asked for by the text that
it is printed as, and such texts tell keys apart: an integer has digits only, a floating point number
has a point or a power of ten, a truth value is a word.

* `Value.PrintsAs` — a number or a truth value is printed as a text.
* `Value.same_of_printsAs` — keys that print alike are the same.
* `Distinct` — no two keys of some entries are the same.
* `distinct_of_read` — the keys of the mapping that a text is are distinct.
-/

/-! ### Printed keys -/

namespace Value

/-- A number or a truth value is printed as a text. -/
inductive PrintsAs : Value → String → Prop where
  /-- An integer. -/
  | int (n : Int) : PrintsAs (int n) (toString n)
  /-- A floating point number. -/
  | float (x : Binary64) : PrintsAs (float x) (floatText x)
  /-- A truth value. -/
  | bool (b : Bool) : PrintsAs (bool b) (toString b)

theorem keyText?_eq_some_iff {k : Value} {text : String} :
    k.keyText? = some text ↔ k = string text ∨ k.PrintsAs text := by
  constructor
  · intro h
    cases k with
    | string s => exact .inl (congrArg string (Option.some.inj h))
    | int n => exact .inr (Option.some.inj h ▸ .int n)
    | float x => exact .inr (Option.some.inj h ▸ .float x)
    | bool b =>
      have hb : boolText b = toString b := by cases b <;> rfl
      exact .inr (Option.some.inj h ▸ hb ▸ .bool b)
    | null | sequence | mapping | tagged => cases h
  · rintro (rfl | h)
    · rfl
    · cases h with
      | int | float => rfl
      | bool b => cases b <;> rfl

/-! ### Texts of numbers -/

/-- What is laid out begins with a digit and has a point or a power of ten. -/
theorem layOut_shape (style : NumeralStyle) (n : Nat) (exponent : Int) :
    (∃ c cs, layOut style (decimalDigits n) exponent = c :: cs ∧ c.isDigit = true) ∧
      ∃ c ∈ layOut style (decimalDigits n) exponent, c = '.' ∨ c = 'e' := by
  obtain ⟨d, ds, hdigits⟩ := List.exists_cons_of_ne_nil (decimalDigits_ne_nil (n := n))
  have hd : d.isDigit = true := isDigit_of_mem_decimalDigits (hdigits ▸ List.mem_cons_self)
  simp only [layOut, hdigits]
  split
  · split
    · exact ⟨⟨d, _, rfl, hd⟩, '.', by simp, .inl rfl⟩
    · split
      · exact ⟨⟨d, _, rfl, hd⟩, '.', by simp, .inl rfl⟩
      · exact ⟨⟨'0', _, rfl, rfl⟩, '.', by simp, .inl rfl⟩
  · have he : ∀ b : Bool, 'e' ∈ (if b then ['e', '+'] else ['e']) := by decide
    cases ds with
    | nil =>
      exact ⟨⟨d, _, rfl, hd⟩, 'e', List.mem_cons_of_mem _ (List.mem_append_left _ (he _)), .inr rfl⟩
    | cons d' ds =>
      exact ⟨⟨d, _, rfl, hd⟩, 'e', List.mem_cons_of_mem _ (List.mem_cons_of_mem _
        (List.mem_append_left _ (List.mem_append_right _ (he _)))), .inr rfl⟩

/-- So does the text of a floating point number, unless a sign or a point comes first. -/
theorem floatText_shape (x : Binary64) :
    (∃ c cs, (floatText x).toList = c :: cs ∧ (c.isDigit = true ∨ c = '-' ∨ c = '.')) ∧
      ∃ c ∈ (floatText x).toList, c = '.' ∨ c = 'e' := by
  cases x with
  | nan => exact ⟨⟨'.', _, rfl, .inr (.inr rfl)⟩, '.', by decide, .inl rfl⟩
  | infinite negative =>
    cases negative with
    | false => exact ⟨⟨'.', _, rfl, .inr (.inr rfl)⟩, '.', by decide, .inl rfl⟩
    | true => exact ⟨⟨'-', _, rfl, .inr (.inl rfl)⟩, '.', by decide, .inl rfl⟩
  | finite negative significand exponent =>
    simp only [floatText, Binary64.numeral, String.toList_ofList]
    generalize dropZeros _ _ _ = decimal
    obtain ⟨digits, power⟩ := decimal
    obtain ⟨hhead, c, hc, hpoint⟩ : (∃ c cs, (if digits = 0 then ['0', '.', '0']
          else layOut numeralStyle (decimalDigits digits) power) = c :: cs ∧ c.isDigit = true) ∧
        ∃ c ∈ (if digits = 0 then ['0', '.', '0']
          else layOut numeralStyle (decimalDigits digits) power), c = '.' ∨ c = 'e' := by
      split
      · exact ⟨⟨'0', _, rfl, rfl⟩, '.', by decide, .inl rfl⟩
      · exact layOut_shape _ _ _
    refine ⟨?_, c, List.mem_append_right _ hc, hpoint⟩
    cases negative with
    | true => exact ⟨'-', _, rfl, .inr (.inl rfl)⟩
    | false =>
      obtain ⟨c, cs, hcons, hdigit⟩ := hhead
      exact ⟨c, cs, hcons, .inl hdigit⟩

/-- The text of an integer has digits and a sign only. -/
theorem mem_toString_int {n : Int} {c : Char} (h : c ∈ (toString n).toList) :
    c.isDigit = true ∨ c = '-' := by
  rw [Json.toString_int, String.toList_ofList, Json.intChars, List.mem_append] at h
  rcases h with hsign | hdigit
  · split at hsign
    · exact .inr (by simpa using hsign)
    · simp at hsign
  · exact .inl (isDigit_of_mem_decimalDigits hdigit)

theorem toString_int_injective {m n : Int} (h : toString m = toString n) : m = n := by
  rw [Json.toString_int, Json.toString_int] at h
  have hchars : Json.intChars m = Json.intChars n := by simpa using congrArg String.toList h
  have hread : ∀ n, Json.readNumber? (Json.intChars n ++ []) = some (.int n, []) := fun n =>
    Json.readNumber?_chars (.int n) (by simp [Json.EndsNumber])
  have hm := hread m
  rw [hchars, hread n] at hm
  simpa using hm.symm

/-- A whole number has no point and no exponent, -/
theorem toString_int_ne_floatText (n : Int) (x : Binary64) : toString n ≠ floatText x := by
  intro heq
  obtain ⟨-, c, hc, hpoint⟩ := floatText_shape x
  rw [← heq] at hc
  rcases mem_toString_int hc with hdigit | rfl
  · rcases hpoint with rfl | rfl <;> exact absurd hdigit (by decide)
  · exact absurd hpoint (by decide)

/-- and a truth value has a letter first, so it is no number. -/
theorem toString_bool_ne_floatText (b : Bool) (x : Binary64) : toString b ≠ floatText x := by
  intro heq
  obtain ⟨⟨c, cs, hcons, hc⟩, -⟩ := floatText_shape x
  rw [← heq] at hcons
  cases b <;> obtain rfl := (List.cons.inj hcons).1 <;> exact absurd hc (by decide)

theorem toString_bool_ne_int (b : Bool) (n : Int) : toString b ≠ toString n := by
  intro heq
  have hmem : ∀ c ∈ (toString b).toList, c.isDigit = true ∨ c = '-' := fun c hc =>
    mem_toString_int (heq ▸ hc)
  cases b with
  | false => exact absurd (hmem 'f' (by decide)) (by decide)
  | true => exact absurd (hmem 't' (by decide)) (by decide)

/-- **Keys that print alike** are the same, if floating point numbers that print alike are. -/
theorem same_of_printsAs {k k' : Value} {text : String} (h : k.PrintsAs text) (h' : k'.PrintsAs text)
    (hfloat : ∀ x y, k = float x → k' = float y → floatText x = floatText y → x.same y = true) :
    k.same k' = true := by
  cases h with
  | int n =>
    generalize htext : toString n = text at h'
    cases h' with
    | int m =>
      rw [toString_int_injective htext]
      simp [same]
    | float x => exact absurd htext (toString_int_ne_floatText n x)
    | bool b => exact absurd htext.symm (toString_bool_ne_int b n)
  | float x =>
    generalize htext : floatText x = text at h'
    cases h' with
    | int m => exact absurd htext.symm (toString_int_ne_floatText m x)
    | float y => simpa [same] using hfloat x y rfl rfl htext
    | bool b => exact absurd htext.symm (toString_bool_ne_floatText b x)
  | bool b =>
    generalize htext : toString b = text at h'
    cases h' with
    | int m => exact absurd htext (toString_bool_ne_int b m)
    | float y => exact absurd htext (toString_bool_ne_floatText b y)
    | bool c =>
      cases b <;> cases c <;> first | rfl | exact absurd htext (by decide)

end Value

/-! ### Keys of a mapping that was read -/

/-- No two keys of some entries are the same. -/
def Distinct (entries : List (Value × Value)) : Prop :=
  entries.Pairwise fun a b => a.1.same b.1 = false

namespace Document

variable {d : Document}

/-- The entries of a mapping end, or they go on with a key that is not there yet and its value. -/
theorem entries_cases {fuel depth : Nat} {mark : Mark} {before entries : List (Value × Value)}
    {s s' : Rest} (h : d.entries (fuel + 1) depth mark before s = .ok (entries, s')) :
    (∃ mark' rest, s.parts = (.mappingEnd, mark') :: rest ∧ before = entries) ∨
    ∃ key value s₁ s₂, d.node fuel depth false s = .ok (key, s₁) ∧
      (∀ entry ∈ before, entry.1.same key = false) ∧ d.node fuel depth false s₁ = .ok (value, s₂) ∧
      d.entries fuel depth mark (before ++ [(key, value)]) s₂ = .ok (entries, s') := by
  rw [Document.entries] at h
  split at h
  · cases h
  · rename_i mark' rest hparts
    obtain ⟨rfl, -⟩ : before = entries ∧ _ := by simpa using h
    exact .inl ⟨mark', rest, hparts, rfl⟩
  · obtain ⟨⟨key, s₁⟩, hkey, h⟩ := Json.exists_of_bind h
    simp only at h
    split at h
    · cases h
    · rename_i hnew
      obtain ⟨⟨value, s₂⟩, hvalue, h⟩ := Json.exists_of_bind h
      exact .inr ⟨key, value, s₁, s₂, hkey, by simpa using hnew, hvalue, h⟩

/-- Entries are added only for keys that are not there yet. -/
theorem distinct_of_entries {fuel depth : Nat} {mark : Mark} {before entries : List (Value × Value)}
    {s s' : Rest} (h : d.entries fuel depth mark before s = .ok (entries, s'))
    (hbefore : Distinct before) : Distinct entries := by
  induction fuel generalizing before s with
  | zero => simp [Document.entries] at h
  | succ fuel ih =>
    rcases entries_cases h with ⟨-, -, -, rfl⟩ | ⟨key, value, s₁, s₂, -, hnew, -, hrest⟩
    · exact hbefore
    · refine ih hrest (List.pairwise_append.2 ⟨hbefore, List.pairwise_singleton _ _, ?_⟩)
      simpa using hnew

/-- A scalar is no mapping. -/
theorem scalarValue_ne_mapping {tag : Option (List UInt8)} {text : List Char} {plain : Bool}
    {entries : List (Value × Value)} : scalarValue tag text plain ≠ some (.mapping entries) := by
  have hnumber : numberOrString? text ≠ some (.mapping entries) := by
    simp only [numberOrString?]
    split <;> split <;> try split
    all_goals simp
  have hplain : plainValue? text ≠ some (.mapping entries) := by
    simp only [plainValue?]
    split
    · simp
    · split
      · simp
      · exact hnumber
  have huntagged : (if plain then plainValue? text else some (.string (String.ofList text)))
      ≠ some (.mapping entries) := by
    split
    · exact hplain
    · simp
  simp only [scalarValue]
  split
  · exact huntagged
  · split
    · simp
    · split
      · intro h
        obtain ⟨n, -, hn⟩ := Option.bind_eq_some_iff.1 h
        split at hn <;> cases hn
      · split
        · simp
        · split
          · simp
          · split
            · exact huntagged
            · simp

/-- A mapping comes of its own entries, or of the node to which a reference leads. -/
theorem mapping_cases {fuel depth : Nat} {tagged : Bool} {entries : List (Value × Value)}
    {s s' : Rest} (h : d.node (fuel + 1) depth tagged s = .ok (.mapping entries, s')) :
    (∃ number mark rest target t, s.parts = (.reference number, mark) :: rest ∧
      d.node fuel depth false target = .ok (.mapping entries, t)) ∨
    ∃ tag mark rest inner t, s.parts = (.mappingStart tag, mark) :: rest ∧ depth = inner + 1 ∧
      d.entries fuel inner mark [] ⟨rest, s.jumps⟩ = .ok (entries, t) := by
  -- What has a tag is no mapping, whatever it is without the tag.
  have htagged : ∀ name, (d.node fuel depth true s >>= fun out =>
      pure (Value.tagged name out.1, out.2)) ≠ .ok (.mapping entries, s') := by
    intro name hname
    obtain ⟨out, -, hvalue⟩ := Json.exists_of_bind hname
    cases hvalue
  obtain ⟨_ | ⟨⟨part, mark⟩, rest⟩, jumps⟩ := s
  · rw [Document.node] at h
    cases h
  · cases part with
    | reference number =>
      simp only [Document.node] at h
      obtain ⟨target, -, h⟩ := Json.exists_of_bind h
      obtain ⟨⟨value, after⟩, hnode, h⟩ := Json.exists_of_bind h
      obtain ⟨rfl, -⟩ : value = .mapping entries ∧ _ := by simpa [pure, Except.pure] using h
      exact .inl ⟨number, mark, rest, target, after, rfl, hnode⟩
    | scalar tag text plain =>
      simp only [Document.node] at h
      split at h
      · exact absurd h (htagged _)
      · split at h
        · rename_i hvalue
          cases h
          exact absurd hvalue scalarValue_ne_mapping
        · cases h
    | sequenceStart tag =>
      simp only [Document.node] at h
      split at h
      · exact absurd h (htagged _)
      · cases h
      · obtain ⟨⟨items, s⟩, -, h⟩ := Json.exists_of_bind h
        cases h
    | mappingStart tag =>
      simp only [Document.node] at h
      split at h
      · exact absurd h (htagged _)
      · cases h
      · rename_i inner _
        obtain ⟨⟨entries', s⟩, hentries, h⟩ := Json.exists_of_bind h
        obtain ⟨rfl, -⟩ : entries' = entries ∧ _ := by simpa [pure, Except.pure] using h
        exact .inr ⟨tag, mark, rest, inner, s, rfl, rfl, hentries⟩
    | sequenceEnd | mappingEnd => cases h

/-- The keys of a mapping are distinct. -/
theorem distinct_of_node {fuel depth : Nat} {tagged : Bool} {entries : List (Value × Value)}
    {s s' : Rest} (h : d.node fuel depth tagged s = .ok (.mapping entries, s')) :
    Distinct entries := by
  induction fuel generalizing depth tagged s s' with
  | zero => simp [Document.node] at h
  | succ fuel ih =>
    rcases mapping_cases h with
      ⟨number, mark, rest, target, t, -, hnode⟩ | ⟨tag, mark, rest, inner, t, -, -, hentries⟩
    · exact ih hnode
    · exact distinct_of_entries hentries .nil

/-- The mapping that a document is stands at its start. -/
theorem node_of_value {entries : List (Value × Value)} (h : d.value = .ok (.mapping entries)) :
    ∃ fuel s, d.node (fuel + 1) maxDepth false ⟨d.parts, 0⟩ = .ok (.mapping entries, s) := by
  rw [value_eq (fault_of_value h)] at h
  split at h
  · cases h
  · cases hnode : d.node (300 * (d.parts.length + 4)) maxDepth false ⟨d.parts, 0⟩ with
    | error fault => simp [hnode, Except.map] at h
    | ok out =>
      obtain ⟨v, s⟩ := out
      obtain rfl : v = .mapping entries := by simpa [hnode, Except.map] using h
      exact ⟨300 * (d.parts.length + 3) + 299, s, hnode⟩

end Document

/-- The keys of the mapping that a text is are distinct. -/
theorem distinct_of_read {text : List Char} {entries : List (Value × Value)}
    (h : read text = .ok (.mapping entries)) : Distinct entries := by
  obtain ⟨fuel, s, hnode⟩ := Document.node_of_value h
  exact Document.distinct_of_node hnode

end SecretFill.Yaml
