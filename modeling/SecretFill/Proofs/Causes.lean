import SecretFill.Fragment

namespace SecretFill

/-!
# What a failure tells of a secret

When a handle cannot be filled in, the failure tells the handle, the kind of cause and, if the secret is
no YAML, a position.  A cause has room for numbers and for a choice among fixed words, but for no piece
of the secret, and the failure depends on the handle and the cause only.

* `Fragment.Cause` — why a secret does not give what a handle asks for.
* `Fragment.Cause.failure` — the failure that tells a cause.
* `Fragment.FailsBy` — a secret fails for a cause.
* `Fragment.render_eq_error_iff` — a handle is not filled in iff there is a cause, and this is told.
* `Fragment.render_tells_cause` — so secrets that fail for the same cause are told alike.
-/

open Yaml (Value Fault)

namespace Fragment

/-! ### Causes -/

/-- What may stand at the top of a document in place of keys and values. -/
inductive Shape where
  /-- A truth value. -/
  | truth
  /-- A number. -/
  | number
  /-- A text. -/
  | text
  /-- A sequence. -/
  | list
  /-- A value with a tag. -/
  | tagged
deriving DecidableEq, Repr

/-- The word for a shape. -/
def Shape.word : Shape → String
  | truth => "a boolean"
  | number => "a number"
  | text => "a plain string"
  | list => "a list"
  | tagged => "a tagged value"

/-- The shape of a value that has no entries. -/
def Shape.of? : Value → Option Shape
  | .bool _ => some truth
  | .int _ | .float _ => some number
  | .string _ => some text
  | .sequence _ => some list
  | .tagged .. => some tagged
  | .null | .mapping _ => none

/-- Why a secret does not give what a handle asks for. -/
inductive Cause where
  /-- It is no YAML; the line and the column are counted from one. -/
  | unreadable (place : Option (Nat × Nat))
  /-- It has no entries. -/
  | misshapen (shape : Shape)
  /-- It has no such key. -/
  | missing
  /-- The value has no JSON form. -/
  | unencodable (fault : Json.KeyFault)
deriving DecidableEq, Repr

/-- The failure that tells a cause, for a handle that asks for a key. -/
def Cause.failure (handle : Handle) (name : String) : Cause → Failure
  | unreadable none => .unreadableFragment handle.entry handle.field "invalid YAML"
  | unreadable (some (line, column)) =>
    .unreadableFragment handle.entry handle.field s!"invalid YAML at line {line} column {column}"
  | misshapen shape =>
    .unreadableFragment handle.entry handle.field s!"expected key/value pairs, found {shape.word}"
  | missing => .missingKey handle.entry handle.field name
  | unencodable fault => .unencodable handle.text fault.message

/-- The place of a fault as it is told. -/
def told (fault : Fault) : Option (Nat × Nat) :=
  fault.place.map fun mark => (mark.line + 1, mark.column + 1)

/-- The entries of a secret: a blank one and an empty document have none. -/
inductive HasEntries (secret : String) : List (Value × Value) → Prop where
  /-- A blank secret. -/
  | blank (h : Text.isAllBlank secret = true) : HasEntries secret []
  /-- An empty document. -/
  | empty (h : Text.isAllBlank secret = false) (hread : Yaml.read secret.toList = .ok .null) :
    HasEntries secret []
  /-- A mapping. -/
  | mapping {entries : List (Value × Value)} (h : Text.isAllBlank secret = false)
    (hread : Yaml.read secret.toList = .ok (.mapping entries)) : HasEntries secret entries

/-- A secret does not give the value of a key, for a cause. -/
inductive FailsBy (secret name : String) : Cause → Prop where
  /-- It is no YAML. -/
  | unreadable {fault : Fault} (h : Text.isAllBlank secret = false)
    (hread : Yaml.read secret.toList = .error fault) : FailsBy secret name (.unreadable (told fault))
  /-- It has no entries. -/
  | misshapen {value : Value} {shape : Shape} (h : Text.isAllBlank secret = false)
    (hread : Yaml.read secret.toList = .ok value) (hshape : Shape.of? value = some shape) :
    FailsBy secret name (.misshapen shape)
  /-- The key is not among them. -/
  | missing {entries : List (Value × Value)} (hentries : HasEntries secret entries)
    (hlookup : lookup name entries = none) : FailsBy secret name .missing
  /-- The value of the key has no JSON form. -/
  | unencodable {entries : List (Value × Value)} {value : Value} {fault : Json.KeyFault}
    (hentries : HasEntries secret entries) (hlookup : lookup name entries = some value)
    (hencode : Json.encode value = .error fault) : FailsBy secret name (.unencodable fault)

/-! ### From stage to stage -/

variable {key : Key} {handle : Handle} {secret name : String} {failure : Failure}

theorem faultText_eq (fault : Fault) : faultText fault =
    match told fault with
    | none => "invalid YAML"
    | some (line, column) => s!"invalid YAML at line {line} column {column}" := by
  rw [faultText, told]
  cases fault.place <;> rfl

theorem kind_eq {value : Value} {shape : Shape} (h : Shape.of? value = some shape) :
    value.kind = shape.word := by
  cases value <;> cases h <;> rfl

theorem parse_of_hasEntries {entries : List (Value × Value)} (h : HasEntries secret entries) :
    parse key secret = .ok entries := by
  cases h with
  | blank h => simp [parse, h]
  | empty h hread => simp [parse, h, hread]
  | mapping h hread => simp [parse, h, hread]

/-- A document that is read has entries, or the cause is told. -/
theorem failsBy_of_parse (name : String) (h : parse handle.key secret = .error failure) :
    ∃ cause, FailsBy secret name cause ∧ failure = cause.failure handle name := by
  rw [parse] at h
  split at h
  · cases h
  · rename_i hblank
    rw [Bool.not_eq_true] at hblank
    split at h
    · rename_i fault hread
      obtain rfl := Except.error.inj h
      refine ⟨_, .unreadable hblank hread, ?_⟩
      rw [faultText_eq]
      cases told fault <;> rfl
    · cases h
    · cases h
    · -- The value is no mapping and not nothing, and every other one has a shape.
      rename_i value hmapping hnull hread
      obtain ⟨shape, hshape⟩ : ∃ shape, Shape.of? value = some shape := by
        cases value with
        | null => exact absurd rfl hnull
        | mapping entries => exact absurd rfl (hmapping entries)
        | _ => exact ⟨_, rfl⟩
      obtain rfl := Except.error.inj h
      exact ⟨_, .misshapen hblank hread hshape, by rw [kind_eq hshape]; rfl⟩

theorem hasEntries_of_parse {entries : List (Value × Value)}
    (h : parse key secret = .ok entries) : HasEntries secret entries := by
  rw [parse] at h
  split at h
  · rename_i hblank
    obtain rfl := Except.ok.inj h
    exact .blank hblank
  · rename_i hblank
    rw [Bool.not_eq_true] at hblank
    split at h
    · cases h
    · rename_i hread
      obtain rfl := Except.ok.inj h
      exact .mapping hblank hread
    · rename_i hread
      obtain rfl := Except.ok.inj h
      exact .empty hblank hread
    · cases h

/-- A secret that fails for a cause is told so. -/
theorem render_of_failsBy {cause : Cause} (hname : handle.subfield = some name)
    (h : FailsBy secret name cause) : render handle secret = .error (cause.failure handle name) := by
  simp only [render, hname]
  -- The kinds of causes are the stages of the extraction, each behind those before it.
  cases h with
  | @unreadable fault hblank hread =>
    have hparse : parse handle.key secret
        = .error ((Cause.unreadable (told fault)).failure handle name) := by
      simp only [parse, hblank, hread, faultText_eq]
      cases told fault <;> rfl
    rw [extract_of_parse_error hparse]
    rfl
  | @misshapen value shape hblank hread hshape =>
    have hparse : parse handle.key secret
        = .error ((Cause.misshapen shape).failure handle name) := by
      simp only [parse, hblank, hread]
      cases value <;> cases hshape <;> rfl
    rw [extract_of_parse_error hparse]
    rfl
  | missing hentries hlookup =>
    rw [extract_of_parse (parse_of_hasEntries hentries), hlookup]
    rfl
  | unencodable hentries hlookup hencode =>
    rw [extract_of_parse (parse_of_hasEntries hentries), hlookup]
    simp only [Option.elim_some, bind, Except.bind, encodeValue, hencode]
    rfl

/-- A handle is not filled in only for a cause, and this is told. -/
theorem failsBy_of_render (h : render handle secret = .error failure) :
    ∃ name cause, handle.subfield = some name ∧ FailsBy secret name cause ∧
      failure = cause.failure handle name := by
  cases hname : handle.subfield with
  | none =>
    simp only [render, hname] at h
    cases h
  | some name =>
    refine ⟨name, ?_⟩
    simp only [render, hname] at h
    -- Reading, looking up and encoding fail in this order, each for its own causes.
    cases hparse : parse handle.key secret with
    | error reason =>
      rw [extract_of_parse_error hparse] at h
      obtain rfl := Except.error.inj h
      obtain ⟨cause, hfails, htold⟩ := failsBy_of_parse name hparse
      exact ⟨cause, rfl, hfails, htold⟩
    | ok entries =>
      have hentries := hasEntries_of_parse hparse
      rw [extract_of_parse hparse] at h
      cases hlookup : lookup name entries with
      | none =>
        rw [hlookup] at h
        exact ⟨_, rfl, .missing hentries hlookup, (Except.error.inj h).symm⟩
      | some value =>
        cases hencode : Json.encode value with
        | ok text =>
          simp only [hlookup, Option.elim_some, bind, Except.bind, encodeValue, hencode] at h
          cases h
        | error fault =>
          simp only [hlookup, Option.elim_some, bind, Except.bind, encodeValue, hencode] at h
          exact ⟨_, rfl, .unencodable hentries hlookup hencode, (Except.error.inj h).symm⟩

/-- **A handle is not filled in iff there is a cause**, and the failure tells it. -/
theorem render_eq_error_iff : render handle secret = .error failure ↔
    ∃ name cause, handle.subfield = some name ∧ FailsBy secret name cause ∧
      failure = cause.failure handle name := by
  constructor
  · exact failsBy_of_render
  · rintro ⟨name, cause, hname, hfails, rfl⟩
    exact render_of_failsBy hname hfails

/-- The wordings of a failure. -/
theorem failure_cases (cause : Cause) (handle : Handle) (name : String) :
    cause.failure handle name = .missingKey handle.entry handle.field name ∨
    cause.failure handle name = .unreadableFragment handle.entry handle.field "invalid YAML" ∨
    (∃ line column : Nat, cause.failure handle name = .unreadableFragment handle.entry handle.field
      s!"invalid YAML at line {line} column {column}") ∨
    (∃ kind ∈ ["a boolean", "a number", "a plain string", "a list", "a tagged value"],
      cause.failure handle name = .unreadableFragment handle.entry handle.field
        s!"expected key/value pairs, found {kind}") ∨
    ∃ message ∈ ["key must be a string", "float key must be finite (got NaN or +/-inf)"],
      cause.failure handle name = .unencodable handle.text message := by
  cases cause with
  | missing => exact .inl rfl
  | unreadable place =>
    cases place with
    | none => exact .inr (.inl rfl)
    | some place => exact .inr (.inr (.inl ⟨place.1, place.2, rfl⟩))
  | misshapen shape =>
    have hword : shape.word ∈ ["a boolean", "a number", "a plain string", "a list", "a tagged value"] := by
      cases shape <;> decide
    exact .inr (.inr (.inr (.inl ⟨_, hword, rfl⟩)))
  | unencodable fault =>
    have hmessage : fault.message ∈
        ["key must be a string", "float key must be finite (got NaN or +/-inf)"] := by
      cases fault <;> decide
    exact .inr (.inr (.inr (.inr ⟨_, hmessage, rfl⟩)))

/-- **A failure tells its cause and nothing else of the secret.**  A handle that is not filled in asks
    for a key, and the failure has one of five wordings with the parts of the handle, two numbers or a
    fixed word in them.  Secrets that fail at one place for one kind of reason are told alike. -/
theorem render_tells_cause (handle : Handle) (secret : String) :
    (∀ failure, render handle secret = .error failure →
      ∃ name cause, handle.subfield = some name ∧ FailsBy secret name cause ∧
        (failure = .missingKey handle.entry handle.field name ∨
          failure = .unreadableFragment handle.entry handle.field "invalid YAML" ∨
          (∃ line column : Nat, failure = .unreadableFragment handle.entry handle.field
            s!"invalid YAML at line {line} column {column}") ∨
          (∃ kind ∈ ["a boolean", "a number", "a plain string", "a list", "a tagged value"],
            failure = .unreadableFragment handle.entry handle.field
              s!"expected key/value pairs, found {kind}") ∨
          ∃ message ∈ ["key must be a string", "float key must be finite (got NaN or +/-inf)"],
            failure = .unencodable handle.text message)) ∧
    ∀ name cause, handle.subfield = some name → FailsBy secret name cause →
      ∃ failure, render handle secret = .error failure ∧
        ∀ other, FailsBy other name cause → render handle other = .error failure := by
  refine ⟨fun failure h => ?_, fun name cause hname hfails => ?_⟩
  · obtain ⟨name, cause, hname, hfails, rfl⟩ := failsBy_of_render h
    exact ⟨name, cause, hname, hfails, failure_cases cause handle name⟩
  · exact ⟨cause.failure handle name, render_of_failsBy hname hfails, fun other hother =>
      render_of_failsBy hname hother⟩

/-- Two secrets that break off inside a bracket, at the end of the first line. -/
theorem render_tells_cause_bracket :
    let handle : Handle := ⟨"db", "Notes", some "key"⟩
    FailsBy "key: [open, hunter2" "key" (.unreadable (some (2, 1))) ∧
      FailsBy "key: [swordfish" "key" (.unreadable (some (2, 1))) ∧
      render handle "key: [open, hunter2"
        = .error (.unreadableFragment "db" "Notes" "invalid YAML at line 2 column 1") ∧
      render handle "key: [swordfish" = render handle "key: [open, hunter2" := by
  intro handle
  -- The whole reader runs on each secret, and only the place of the fault is compared.
  have hfails : ∀ secret : String, Text.isAllBlank secret = false →
      (match Yaml.read secret.toList with
        | .error fault => told fault == some (2, 1)
        | .ok _ => false) = true → FailsBy secret "key" (.unreadable (some (2, 1))) := by
    intro secret hblank hread
    split at hread
    · rename_i hfault
      exact eq_of_beq hread ▸ .unreadable hblank hfault
    · cases hread
  have hfirst : FailsBy "key: [open, hunter2" "key" (.unreadable (some (2, 1))) :=
    hfails _ (by decide) (by decide +kernel)
  have hsecond : FailsBy "key: [swordfish" "key" (.unreadable (some (2, 1))) :=
    hfails _ (by decide) (by decide +kernel)
  obtain ⟨failure, hfailure, hothers⟩ :=
    (render_tells_cause handle "key: [open, hunter2").2 "key" _ rfl hfirst
  exact ⟨hfirst, hsecond, render_of_failsBy rfl hfirst, (hothers _ hsecond).trans hfailure.symm⟩

end Fragment

end SecretFill
