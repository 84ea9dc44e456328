import Mathlib
import SecretFill.Batch
import SecretFill.Proofs.ConstantStore
import SecretFill.Proofs.Passes
import SecretFill.Store.Memory

namespace SecretFill

/-!
# The cache cannot be seen

Over a constant store a document is filled as if there were no cache: every placeholder is resolved
on its own, and the texts are put in their places.  It does not matter what was done before.

* `Reference.report` — what filling a document means, without a cache.
* `Operates` — what may be done with a cache and a store before.
* `report_eval` — the walk of a document, given settled answers, comes to what is meant.
* `report_transparent` — after any operations, so does filling the document.
-/

variable {σ : Type} {store : Store σ} {outcome : Key → Except Failure String}

/-! ### Filling without a cache -/

namespace Reference

/-- What a handle stands for: it is read, its key is fetched, and the trimmed secret rendered. -/
def resolve (outcome : Key → Except Failure String) (raw : String) : Except Failure String := do
  let handle ← Handle.parse raw
  let secret ← trimmed (outcome handle.key)
  render handle secret

/-- The text that a segment leaves in the output. -/
def text (outcome : Key → Except Failure String) : Segment → String
  | .literal c => String.singleton c
  | .placeholder raw =>
    match resolve outcome (String.ofList raw) with
    | .ok text => text
    | .error _ => marker (String.ofList raw)

/-- Whether a segment is a placeholder that has a value. -/
def isResolved (outcome : Key → Except Failure String) : Segment → Bool
  | .literal _ => false
  | .placeholder raw => (resolve outcome (String.ofList raw)).isOk

/-- The handle and the failure of a placeholder that has none. -/
def failure? (outcome : Key → Except Failure String) : Segment → Option (String × Failure)
  | .literal _ => none
  | .placeholder raw =>
    match resolve outcome (String.ofList raw) with
    | .ok _ => none
    | .error e => some (String.ofList raw, e)

/-- The report on some segments, each looked at on its own. -/
def fill (outcome : Key → Except Failure String) (segments : List Segment) : Report where
  output := String.join (segments.map (text outcome))
  resolved := segments.countP (isResolved outcome)
  failures := segments.filterMap (failure? outcome)

/-- What a policy makes of a report: to give up is to tell the first failure. -/
def conclude : Policy → Report → Except Failure Report
  | .marker, r => .ok r
  | .abort, r =>
    match r.failures with
    | [] => .ok r
    | (_, e) :: _ => .error e

/-- The report on a document. -/
def report (outcome : Key → Except Failure String) (policy : Policy) (document : String) :
    Except Failure Report :=
  conclude policy (fill outcome (segments document.toList))

/-- A report without failures is what giving up concludes from it. -/
theorem conclude_abort_ok {r r' : Report} :
    conclude .abort r = .ok r' ↔ r' = r ∧ r.isComplete = true := by
  unfold Report.isComplete
  cases h : r.failures with
  | nil => simp [conclude, h, eq_comm]
  | cons failure rest => simp [conclude, h]

/-- A report that is concluded is the one that was put together. -/
theorem eq_of_conclude {policy : Policy} {r r' : Report} (h : conclude policy r = .ok r') :
    r = r' := by
  cases policy with
  | marker => exact Except.ok.inj h
  | abort => exact (conclude_abort_ok.1 h).1.symm

end Reference

/-! ### What a document comes to -/

/-- One report behind another. -/
def Report.append (r s : Report) : Report :=
  ⟨r.output ++ s.output, r.resolved + s.resolved, r.failures ++ s.failures⟩

namespace Reference

variable {raw : List Char} {rest : List Segment} {r : Report}

theorem append_fill_nil : r.append (fill outcome []) = r := by
  simp [Report.append, fill]

theorem append_fill_literal (c : Char) :
    r.append (fill outcome (.literal c :: rest)) = (r.keep c).append (fill outcome rest) := by
  simp [Report.append, Report.keep, fill, text, isResolved, failure?, List.filterMap_cons,
    ← String.append_assoc]

theorem append_fill_value {value : String} (h : resolve outcome (String.ofList raw) = .ok value) :
    r.append (fill outcome (.placeholder raw :: rest))
      = (r.value value).append (fill outcome rest) := by
  simp [Report.append, Report.value, fill, text, isResolved, failure?, h, String.append_assoc,
    Except.isOk, Except.toBool]
  omega

theorem append_fill_failure {e : Failure} (h : resolve outcome (String.ofList raw) = .error e) :
    r.append (fill outcome (.placeholder raw :: rest))
      = (r.failure (String.ofList raw) e).append (fill outcome rest) := by
  simp [Report.append, Report.failure, fill, text, isResolved, failure?, h, String.append_assoc,
    Except.isOk, Except.toBool]

end Reference

/-- The walk of a handle, given settled answers, comes to what the handle stands for. -/
theorem resolve_eval (raw : String) :
    (resolve raw).eval (fun key => trimmed (outcome key)) = Reference.resolve outcome raw := by
  unfold resolve Reference.resolve
  cases Handle.parse raw with
  | error e => rfl
  | ok handle =>
    show (Walk.ask handle.key _).eval _ = (trimmed (outcome handle.key)).bind (render handle)
    rw [Walk.eval]
    cases trimmed (outcome handle.key) with
    | error e => rfl
    | ok secret => cases h : render handle secret <;> simp [Walk.eval, Except.bind, h]

/-- The walk of some segments, given settled answers, puts their report behind what it has, and
    concludes as its policy says.  Who gives up has no failure so far. -/
theorem fill_eval (policy : Policy) (segments : List Segment) (r : Report)
    (hr : policy = .abort → r.failures = []) :
    (fill policy segments r).eval (fun key => trimmed (outcome key))
      = Reference.conclude policy (r.append (Reference.fill outcome segments)) := by
  induction segments generalizing r with
  | nil =>
    rw [Reference.append_fill_nil]
    cases policy with
    | marker => rfl
    | abort => simp only [Reference.conclude, hr rfl]; rfl
  | cons segment rest ih =>
    cases segment with
    | literal c =>
      rw [Reference.append_fill_literal]
      exact ih (r.keep c) hr
    | placeholder raw =>
      rw [fill, Walk.eval_bind, resolve_eval]
      cases h : Reference.resolve outcome (String.ofList raw) with
      | ok value =>
        rw [Reference.append_fill_value h]
        exact ih (r.value value) hr
      | error e =>
        rw [Reference.append_fill_failure h]
        cases policy with
        | marker => exact ih (r.failure (String.ofList raw) e) (fun h => absurd h (by decide))
        | abort =>
          -- There was no failure before, so this one is the first.
          simp only [Reference.conclude, Report.append, Report.failure, hr rfl, List.nil_append,
            List.cons_append]
          rfl

/-- **A document, given settled answers**, comes to what filling it means. -/
theorem report_eval (policy : Policy) (document : String) :
    (report policy document).eval (fun key => trimmed (outcome key))
      = Reference.report outcome policy document := by
  have hempty : ∀ r : Report, Report.empty.append r = r := by
    intro r
    simp [Report.append, Report.empty]
  have hfill : (fill policy (segments document.toList) .empty).eval
      (fun key => trimmed (outcome key))
      = Reference.conclude policy (Report.empty.append (Reference.fill outcome _)) :=
    fill_eval policy (segments document.toList) .empty fun _ => rfl
  rw [hempty] at hfill
  exact hfill

/-! ### What may have happened before -/

/-- One operation takes a cache and a store to others.  Some run to their end, be it a failure; and
    walks of any kind may be side by side until all that are left are dropped, wherever they are. -/
inductive Operates (store : Store σ) (s : Session σ) : Session σ → Prop where
  /-- A document is filled, and its report may be looked at. -/
  | document (policy : Policy) (document : String) :
    Operates store s ((report policy document).run store s).session
  /-- Several documents are filled side by side; a failure stops them and drops their fetches. -/
  | documents (policy : Policy) (documents : List String) :
    Operates store s (Batch.run store policy documents s).2
  /-- A handle is resolved. -/
  | handle (raw : String) : Operates store s ((resolve raw).run store s).session
  /-- A secret is asked for. -/
  | credential (key : Key) : Operates store s ((credential key).run store s).session
  /-- Operations are begun and dropped. -/
  | dropped {α : Type} (walks : List (Walk α)) (f : Floor α σ)
    (h : Steps (fun _ => store) (.start walks s) f) : Operates store s f.session

/-- Any number of operations, one after the other. -/
def Operations (store : Store σ) : Session σ → Session σ → Prop :=
  Relation.ReflTransGen (Operates store)

/-- The store is constant, and the cache gives out what the store would give. -/
structure Session.Honest (store : Store σ) (outcome : Key → Except Failure String)
    (s : Session σ) : Prop where
  /-- The store is constant. -/
  constant : store.Constant outcome s.store
  /-- The cache gives out nothing else. -/
  answer : s.cache.answer outcome = fun key => trimmed (outcome key)

namespace Session.Honest

variable {s t : Session σ}

/-- A walk on its own keeps a session honest. -/
theorem of_run {α : Type} (h : s.Honest store outcome) (w : Walk α) :
    (w.run store s).session.Honest store outcome := by
  obtain ⟨-, hanswer, hconstant⟩ := w.run_eval s h.constant
  exact ⟨hconstant, hanswer.trans h.answer⟩

/-- Walks side by side keep a session honest, wherever they are dropped. -/
theorem of_steps {α : Type} (h : s.Honest store outcome) {walks : List (Walk α)} {f : Floor α σ}
    (hsteps : Steps (fun _ => store) (.start walks s) f) : f.session.Honest store outcome := by
  have hsteady := (Floor.Steady.start walks s h.constant).of_steps hsteps
  exact ⟨hsteady.constant, hsteady.answer.trans h.answer⟩

/-- **One operation** keeps a session honest. -/
theorem of_operates (h : s.Honest store outcome) (hop : Operates store s t) :
    t.Honest store outcome := by
  cases hop with
  | document | handle | credential => exact h.of_run _
  | documents policy documents =>
    -- A schedule is one order of steps, wherever a failure stops it.
    obtain ⟨f, hruns, hsession, -⟩ := Schedule.run_runs (fun _ => store) Batch.halts
      (Batch.asks documents) (documents.map (report policy)) s
    have hend := h.of_steps hruns.steps
    rw [hsession] at hend
    exact hend
  | dropped walks f hsteps => exact h.of_steps hsteps

/-- **Any operations** keep a session honest. -/
theorem of_operations (h : s.Honest store outcome) (hops : Operations store s t) :
    t.Honest store outcome := by
  induction hops with
  | refl => exact h
  | tail _ hop ih => exact ih.of_operates hop

/-- What is reached from an empty cache is honest. -/
theorem of_empty {keepEmpty : Bool} {initial : σ} (hconstant : store.Constant outcome initial)
    (hops : Operations store ⟨.empty keepEmpty, initial⟩ s) : s.Honest store outcome :=
  of_operations ⟨hconstant, Cache.answer_empty keepEmpty⟩ hops

/-- A handle in an honest session comes to what it stands for. -/
theorem resolve_result (h : s.Honest store outcome) (raw : String) :
    ((resolve raw).run store s).result = Reference.resolve outcome raw := by
  obtain ⟨hresult, -, -⟩ := (resolve raw).run_eval s h.constant
  rw [hresult, h.answer, resolve_eval]

/-- **A document in an honest session** comes to what filling it means. -/
theorem report_result (h : s.Honest store outcome) (policy : Policy) (document : String) :
    ((report policy document).run store s).result = Reference.report outcome policy document := by
  obtain ⟨hresult, -, -⟩ := (report policy document).run_eval s h.constant
  rw [hresult, h.answer, report_eval]

end Session.Honest

/-- **The cache cannot be seen.**  Over a constant store, whatever was done since the cache was
    empty, filling a document gives exactly what filling it without a cache means: the same output,
    count and failures in order, or the same failure. -/
theorem report_transparent (store : Store σ) (outcome : Key → Except Failure String)
    (keepEmpty : Bool) (initial : σ) (s : Session σ) (policy : Policy) (document : String)
    (hconstant : store.Constant outcome initial)
    (hops : Operations store ⟨.empty keepEmpty, initial⟩ s) :
    ((report policy document).run store s).result = Reference.report outcome policy document := by
  have hhonest : s.Honest store outcome := .of_empty hconstant hops
  exact hhonest.report_result policy document

namespace MemoryStore

/-- Fetches change nothing but the counts of a store in memory. -/
theorem after_eq (m : MemoryStore) (keys : List Key) :
    ∃ history total, fetch.after m keys = { m with history, total } := by
  induction keys generalizing m with
  | nil => exact ⟨m.history, m.total, rfl⟩
  | cons key keys ih => exact ih (m.countFetch key)

/-- A store in memory is constant. -/
theorem constant (m : MemoryStore) : fetch.Constant m.outcome m := by
  intro keys key
  obtain ⟨history, total, hafter⟩ := m.after_eq keys
  rw [hafter]
  rfl

/-- Without a delay a store in memory takes no time. -/
theorem prompt (m : MemoryStore) (h : m.delay = 0) : fetch.Prompt m := by
  intro keys key
  obtain ⟨history, total, hafter⟩ := m.after_eq keys
  rw [hafter]
  exact h

end MemoryStore

/-- A document after a batch that a failure stopped, with a fetch in flight, and after a request for
    an empty secret that does not count as cached. -/
theorem report_transparent_after_failure :
    let m : MemoryStore := {
      secrets := [(⟨"db", "Password"⟩, " pw\n"), (⟨"db", "URL"⟩, " ")]
      failures := [(⟨"locked", "Password"⟩, .timedOut "locked" "Password" 1)]
      delay := 20
      history := [] }
    let batch := Batch.run MemoryStore.fetch .abort
      ["((locked/Password))", "((db/Password))", "((x))"] ⟨.empty false, m⟩
    let asked := (credential ⟨"db", "URL"⟩).run MemoryStore.fetch batch.2
    let document := "a: ((db/Password)) b: ((locked/Password)) c: ((db/URL))"
    ((report .marker document).run MemoryStore.fetch asked.session).result
      = .ok ⟨"a: \"pw\" b: ((!unresolved locked/Password)) c: \"\"", 2,
        [("locked/Password", .timedOut "locked" "Password" 1)]⟩ := by
  intro m batch asked document
  have hsegments : segments document.toList
      = ("a: ".toList.map .literal) ++ .placeholder "db/Password".toList
        :: (" b: ".toList.map .literal) ++ .placeholder "locked/Password".toList
        :: (" c: ".toList.map .literal) ++ [.placeholder "db/URL".toList] := by cbv
  have hreference : Reference.report m.outcome .marker document
      = .ok ⟨"a: \"pw\" b: ((!unresolved locked/Password)) c: \"\"", 2,
        [("locked/Password", .timedOut "locked" "Password" 1)]⟩ := by
    rw [Reference.report, hsegments]
    rfl
  refine Eq.trans ?_ hreference
  exact report_transparent MemoryStore.fetch m.outcome false m asked.session .marker document
    m.constant (.tail (.single (.documents .abort _)) (.credential _))

end SecretFill
