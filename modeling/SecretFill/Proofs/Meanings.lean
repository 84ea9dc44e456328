import SecretFill.Proofs.Trees
import SecretFill.Proofs.Trimming

namespace SecretFill

/-!
# What handles mean

A handle is replaced by the text of a JSON document: of the secret as a string, or of the image of
the value that it names in the secret.

* `meaning` — the document that a handle means, given its secret.
* `render_eq_meaning` — what a handle stands for is the text of what it means.
* `resolveDatum` — the walk from the text of a handle to what it means.
* `runAll_resolve` — resolving handles one after the other comes to the texts of what they mean.
-/

open Json (Datum)

variable {σ : Type} {store : Store σ}

/-- The document that a handle means, given its secret: the secret as a string, or the image of the
    named value. -/
def meaning (handle : Handle) (secret : String) : Except Failure Datum :=
  match handle.subfield with
  | none => .ok (.string secret)
  | some name => do
    let value ← Fragment.extract handle.key secret name
    (Json.image value).mapError fun fault => .unencodable handle.text fault.message

/-- **What a handle stands for** is the text of what it means. -/
theorem render_eq_meaning (handle : Handle) (secret : String) :
    render handle secret = (meaning handle secret).map Datum.text := by
  simp only [render, meaning]
  cases handle.subfield with
  | none => rfl
  | some name =>
    simp only [encodeValue, Json.encode_eq_image]
    cases Fragment.extract handle.key secret name with
    | error e => rfl
    | ok value =>
      cases h : Json.image value <;> simp [h, bind, Except.bind, Except.map, Except.mapError]

/-- A handle comes to the text of what it means. -/
theorem resolve_eq_meaning (raw : String) (s : Session σ) :
    ((resolve raw).run store s).result = Except.map Datum.text (do
      let handle ← Handle.parse raw
      let secret ← ((credential handle.key).run store s).result
      meaning handle secret) := by
  rw [resolve_result]
  cases Handle.parse raw with
  | error e => rfl
  | ok handle =>
    show (((credential handle.key).run store s).result).bind (render handle)
      = ((((credential handle.key).run store s).result).bind (meaning handle)).map Datum.text
    cases ((credential handle.key).run store s).result with
    | error e => rfl
    | ok secret => exact render_eq_meaning handle secret

/-- What replaces a handle is the text of a document. -/
theorem exists_datum_of_resolve {raw text : String} {s : Session σ}
    (h : ((resolve raw).run store s).result = .ok text) : ∃ d : Datum, text = d.text := by
  rw [resolve_eq_meaning] at h
  generalize (do
    let handle ← Handle.parse raw
    let secret ← ((credential handle.key).run store s).result
    meaning handle secret) = meant at h
  cases meant with
  | error e => cases h
  | ok d => exact ⟨d, (Except.ok.inj h).symm⟩

/-- The walk from the text of a handle to what it means, given the trimmed secret. -/
def resolveDatum (raw : String) : Walk (Except Failure Datum) :=
  match Handle.parse raw with
  | .error e => .done (.error e)
  | .ok handle => (credential handle.key).map fun answer => do meaning handle (← trimmed answer)

/-- From a trimmed cache only trimmed secrets are given to callers. -/
theorem trimmed_credential (key : Key) {s : Session σ} (h : s.cache.IsTrimmed) :
    trimmed ((credential key).run store s).result = ((credential key).run store s).result := by
  unfold credential
  cases hu : s.cache.usable? key with
  | some secret =>
    simp only [Walk.run, hu]
    exact congrArg Except.ok (h.usable hu)
  | none =>
    simp only [Walk.run, hu, Cache.finish_snd]
    cases (store key s.store).1.outcome with
    | error e => rfl
    | ok text => exact congrArg Except.ok (Text.trim_trim text)

/-- A handle is resolved to the text of what it means. -/
theorem resolve_eq_resolveDatum (store : Store σ) (raw : String) {s : Session σ}
    (h : s.cache.IsTrimmed) :
    ((resolve raw).run store s).result = (((resolveDatum raw).run store s).result).map Datum.text ∧
      ((resolve raw).run store s).session = ((resolveDatum raw).run store s).session := by
  rw [resolve_eq_meaning, resolve_session]
  unfold resolveDatum
  cases Handle.parse raw with
  | error e => exact ⟨rfl, rfl⟩
  | ok handle =>
    simp only [Walk.map, Walk.run_bind, Walk.run, trimmed_credential handle.key h, and_true]
    rfl

/-- **Handles are resolved** to the texts of what they mean. -/
theorem runAll_resolve (raws : List String) {s : Session σ} (h : s.cache.IsTrimmed) :
    (Walk.runAll store (raws.map resolve) s).1
      = (Walk.runAll store (raws.map resolveDatum) s).1.map (Except.map Datum.text) := by
  induction raws generalizing s with
  | nil => rfl
  | cons raw raws ih =>
    obtain ⟨hresult, hsession⟩ := resolve_eq_resolveDatum store raw h
    have hnext : ((resolve raw).run store s).session.cache.IsTrimmed :=
      (resolve raw).cache_induct (P := Cache.IsTrimmed) (fun _ h => h)
        (fun _ key outcome h => h.finish key outcome) s h
    simp only [List.map_cons, Walk.runAll, hresult, ih hnext]
    rw [hsession]

end SecretFill
