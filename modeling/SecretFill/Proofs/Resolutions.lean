import SecretFill.Proofs.Sequence
import SecretFill.Proofs.Transparency

namespace SecretFill

/-!
# Filling is resolving one handle after the other

To the cache and the store, filling a document is no more than resolving its handles in order.  The
policy says how far this goes, and the report is put together from what the handles came to.

* `handlesOf` — the handles of a row of segments, which are those of the placeholders.
* `assemble` — the report on a row of segments, given what its handles came to.
* `Policy.visited` — the handles at which a policy looks.
* `resolve_result`, `resolve_session` — what a handle comes to, and that it leaves what asking for
  its key leaves.
* `report_run` — the result of filling a document, and what it leaves.
-/

variable {α β σ : Type} {store : Store σ}

/-! ### Walks behind one another -/

namespace Walk

/-- A walk that goes on with another one has the result of that one and leaves what it leaves. -/
theorem run_bind (w : Walk α) (f : α → Walk β) (s : Session σ) :
    (w.bind f).run store s =
      let o := w.run store s
      let o' := (f o.result).run store o.session
      ⟨o'.result, o'.session, o.notices ++ o'.notices⟩ := by
  induction w generalizing s with
  | done result => rfl
  | note notice next ih => simp only [bind, run, ih s, List.cons_append]
  | ask key resume ih =>
    cases hu : s.cache.usable? key with
    | some secret => simp only [bind, run, hu, ih, List.cons_append]
    | none => simp only [bind, run, hu, ih, List.cons_append, List.append_assoc]

/-- There is one result for each walk. -/
@[simp] theorem length_runAll (ws : List (Walk α)) (s : Session σ) :
    (runAll store ws s).1.length = ws.length := by
  induction ws generalizing s with
  | nil => rfl
  | cons w ws ih => simp only [runAll, List.length_cons, ih]

/-- Walks behind others start from what those leave. -/
theorem runAll_append (ws ws' : List (Walk α)) (s : Session σ) :
    (runAll store (ws ++ ws') s).2 = (runAll store ws' (runAll store ws s).2).2 := by
  induction ws generalizing s with
  | nil => rfl
  | cons w ws ih => exact ih (w.run store s).session

end Walk

/-- What the walk of a handle does with the answer for its key. -/
def renderAnswer (handle : Handle) : Except Failure String → Walk (Except Failure String)
  | .error e => .done (.error e)
  | .ok secret =>
    match render handle secret with
    | .error e => .done (.error e)
    | .ok text => .note (resolvedNotice handle) (.done (.ok text))

/-- To resolve a handle is to ask for its key and to render the answer. -/
theorem resolve_eq (raw : String) :
    resolve raw = match Handle.parse raw with
      | .error e => .done (.error e)
      | .ok handle => (credential handle.key).bind (renderAnswer handle) := by
  unfold resolve
  cases Handle.parse raw with
  | error e => rfl
  | ok handle =>
    refine congrArg (Walk.ask handle.key) (funext fun answer => ?_)
    cases answer <;> rfl

/-- Rendering asks for nothing. -/
theorem renderAnswer_run (handle : Handle) (answer : Except Failure String) (s : Session σ) :
    ((renderAnswer handle answer).run store s).result = answer.bind (render handle) ∧
      ((renderAnswer handle answer).run store s).session = s := by
  cases answer with
  | error e => exact ⟨rfl, rfl⟩
  | ok secret => cases h : render handle secret <;> simp [renderAnswer, Walk.run, h, Except.bind]

/-- **A handle comes to** what its secret is rendered to, if it is well formed and has a secret. -/
theorem resolve_result (raw : String) (s : Session σ) :
    ((resolve raw).run store s).result = (do
      let handle ← Handle.parse raw
      let secret ← ((credential handle.key).run store s).result
      render handle secret) := by
  rw [resolve_eq]
  cases Handle.parse raw with
  | error e => rfl
  | ok handle =>
    simp only [Walk.run_bind]
    exact (renderAnswer_run handle _ _).1

/-- **A handle leaves what asking for its key leaves**; a malformed one asks for nothing. -/
theorem resolve_session (raw : String) (s : Session σ) :
    ((resolve raw).run store s).session
      = match Handle.parse raw with
        | .error _ => s
        | .ok handle => ((credential handle.key).run store s).session := by
  rw [resolve_eq]
  cases Handle.parse raw with
  | error e => rfl
  | ok handle =>
    simp only [Walk.run_bind]
    exact (renderAnswer_run handle _ _).2

/-! ### Handles and what they came to -/

/-- The handles of a row of segments. -/
def handlesOf : List Segment → List String
  | [] => []
  | .literal _ :: rest => handlesOf rest
  | .placeholder raw :: rest => String.ofList raw :: handlesOf rest

@[simp] theorem handlesOf_append (row row' : List Segment) :
    handlesOf (row ++ row') = handlesOf row ++ handlesOf row' := by
  induction row with
  | nil => rfl
  | cons segment rest ih =>
    cases segment with
    | literal c => exact ih
    | placeholder raw => exact congrArg (String.ofList raw :: ·) ih

/-- Plain characters have no handles. -/
@[simp] theorem handlesOf_literals (cs : List Char) : handlesOf (cs.map .literal) = [] := by
  induction cs with
  | nil => rfl
  | cons c cs ih => exact ih

/-- The handles of a document are those of its placeholders. -/
theorem handlesOf_segments (document : String) :
    handlesOf (segments document.toList) = (Placeholder.find document).map (·.handle) := by
  have hlocate : ∀ (row : List Segment) (offset : Nat),
      handlesOf row = (Placeholder.locate offset row).map (·.handle) := by
    intro row
    induction row with
    | nil => exact fun _ => rfl
    | cons segment rest ih =>
      intro offset
      cases segment with
      | literal c => exact ih _
      | placeholder raw => exact congrArg (String.ofList raw :: ·) (ih _)
  exact hlocate _ 0

/-- The handles that have no value, with their failures. -/
def failing : List String → List (Except Failure String) → List (String × Failure)
  | _ :: raws, .ok _ :: outcomes => failing raws outcomes
  | raw :: raws, .error e :: outcomes => (raw, e) :: failing raws outcomes
  | _, _ => []

/-- The handles up to the first one that has no value, that one included. -/
def throughFailure : List String → List (Except Failure String) → List String
  | raw :: raws, .ok _ :: outcomes => raw :: throughFailure raws outcomes
  | raw :: _, .error _ :: _ => [raw]
  | _, _ => []

/-- The handles at which a policy looks, given what all of them come to. -/
def Policy.visited : Policy → List String → List (Except Failure String) → List String
  | .abort => throughFailure
  | .marker => fun raws _ => raws

theorem throughFailure_prefix (raws : List String) (outcomes : List (Except Failure String)) :
    throughFailure raws outcomes <+: raws := by
  induction raws generalizing outcomes with
  | nil => exact List.nil_prefix
  | cons raw raws ih =>
    match outcomes with
    | [] => exact List.nil_prefix
    | .ok _ :: outcomes => exact (List.prefix_cons_inj raw).2 (ih outcomes)
    | .error _ :: _ => exact ⟨raws, rfl⟩

/-- If all handles have values, none of them is the last to be looked at before its time. -/
theorem throughFailure_eq_self {raws : List String} {outcomes : List (Except Failure String)}
    (hlength : outcomes.length = raws.length) (h : failing raws outcomes = []) :
    throughFailure raws outcomes = raws := by
  induction raws generalizing outcomes with
  | nil => rfl
  | cons raw raws ih =>
    match outcomes with
    | .ok _ :: outcomes =>
      exact congrArg (raw :: ·) (ih (Nat.succ.inj hlength) h)
    | .error _ :: _ => exact absurd h (List.cons_ne_nil _ _)

/-! ### The report -/

/-- Puts the report on a row of segments behind another one, given what the handles came to. -/
def assemble : List Segment → List (Except Failure String) → Report → Report
  | .literal c :: rest, outcomes, r => assemble rest outcomes (r.keep c)
  | .placeholder _ :: rest, .ok text :: outcomes, r => assemble rest outcomes (r.value text)
  | .placeholder raw :: rest, .error e :: outcomes, r =>
    assemble rest outcomes (r.failure (String.ofList raw) e)
  | _, _, r => r

/-- The failures of a report are those of the handles. -/
theorem failures_assemble (row : List Segment) (outcomes : List (Except Failure String))
    (r : Report) :
    (assemble row outcomes r).failures = r.failures ++ failing (handlesOf row) outcomes := by
  induction row generalizing outcomes r with
  | nil => exact (List.append_nil _).symm
  | cons segment rest ih =>
    cases segment with
    | literal c => exact ih outcomes (r.keep c)
    | placeholder raw =>
      match outcomes with
      | [] => exact (List.append_nil _).symm
      | .ok text :: outcomes => exact ih outcomes (r.value text)
      | .error e :: outcomes =>
        rw [assemble, ih, Report.failure, List.append_assoc]
        rfl

/-- Filling a row of segments concludes from the report that is put together from what its handles
    come to, and leaves what resolving the visited ones leaves.  Who gives up has no failure so
    far. -/
theorem fill_run (policy : Policy) (row : List Segment) (r : Report) (s : Session σ)
    (hr : policy = .abort → r.failures = []) :
    ((fill policy row r).run store s).result
        = Reference.conclude policy
          (assemble row (Walk.runAll store ((handlesOf row).map resolve) s).1 r) ∧
      ((fill policy row r).run store s).session
        = (Walk.runAll store ((policy.visited (handlesOf row)
          (Walk.runAll store ((handlesOf row).map resolve) s).1).map resolve) s).2 := by
  induction row generalizing r s with
  | nil =>
    cases policy with
    | marker => exact ⟨rfl, rfl⟩
    | abort =>
      refine ⟨?_, rfl⟩
      show Except.ok r = Reference.conclude .abort r
      simp only [Reference.conclude, hr rfl]
  | cons segment rest ih =>
    cases segment with
    | literal c => exact ih (r.keep c) s hr
    | placeholder raw =>
      have hrest := fun r' => ih r' ((resolve (String.ofList raw)).run store s).session
      simp only [fill, Walk.run_bind, handlesOf, List.map_cons, Walk.runAll]
      cases ((resolve (String.ofList raw)).run store s).result with
      | ok text =>
        cases policy with
        | marker => exact hrest (r.value text) hr
        | abort => exact hrest (r.value text) hr
      | error e =>
        cases policy with
        | marker => exact hrest (r.failure (String.ofList raw) e) fun h => absurd h (by decide)
        | abort =>
          -- There was no failure before, so this one is the first.
          refine ⟨?_, rfl⟩
          simp only [Walk.run, Reference.conclude, failures_assemble, handlesOf, failing, hr rfl,
            List.nil_append]

/-- **Filling a document** concludes from the report that is put together from what its handles come
    to, and leaves what resolving the visited ones leaves. -/
theorem report_run (store : Store σ) (policy : Policy) (document : String) (s : Session σ) :
    let handles := (Placeholder.find document).map (·.handle)
    let outcomes := (Walk.runAll store (handles.map resolve) s).1
    ((report policy document).run store s).result
        = Reference.conclude policy (assemble (segments document.toList) outcomes .empty) ∧
      ((report policy document).run store s).session
        = (Walk.runAll store ((policy.visited handles outcomes).map resolve) s).2 := by
  rw [← handlesOf_segments]
  exact fill_run policy (segments document.toList) .empty s fun _ => rfl

end SecretFill
