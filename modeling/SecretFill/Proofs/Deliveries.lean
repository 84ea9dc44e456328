import SecretFill.Proofs.LineBreaks
import SecretFill.Proofs.Places

namespace SecretFill

/-!
# What a run delivers

A run delivers a listing or the output of its report, and all else is told.  Only a document with
markers is delivered although the run fails.

* `components_lines` — a listing, split at its line feeds, gives the handles back.
* `Program.ComesTo` — the report to which a run comes; `Program.Yields` — the text that it has to
  deliver.
* `Program.RunEnds` — how a run can end; `Program.execute_ends` — so every run ends.
* `Program.execute_idle` — a run without anything to fetch runs nothing.
* `job_outcomes` — what the program delivers and tells for every command line, and when it runs
  nothing.
-/

open Lpass (StoreCommand)
open CommandLine (Options)

variable {α : Type}

/-! ### Listings -/

/-- **Lines** are the components of the text that they make, and behind the last one there is
    nothing. -/
theorem components_lines {sep : Char} {lines : List (List Char)} (h : ∀ line ∈ lines, sep ∉ line) :
    components sep (lines.flatMap (· ++ [sep])) = lines ++ [[]] := by
  induction lines with
  | nil => rfl
  | cons line lines ih =>
    rw [List.flatMap_cons, List.append_assoc, List.singleton_append,
      components_append (h line List.mem_cons_self), ih fun l hl => h l (List.mem_cons_of_mem line hl)]
    rfl

namespace Program

/-- **A listing** gives the handles of its document back, in order. -/
theorem components_listing (document : String) :
    components '\n' (listing document).toList
      = (Placeholder.find document).map (·.handle.toList) ++ [[]] := by
  have hlines : (listing document).toList
      = ((Placeholder.find document).map (·.handle.toList)).flatMap (· ++ ['\n']) := by
    simp [listing, toString, List.flatMap_map]
  rw [hlines]
  refine components_lines fun line hmem => ?_
  obtain ⟨p, hp, rfl⟩ := List.mem_map.1 hmem
  exact newline_not_mem_handle hp

/-! ### What runs nothing -/

/-- To tell what was not filled runs nothing. -/
theorem tellFailures_calls (v : Voice) (r : Report) (m : Machine) :
    ((tellFailures v r).run.run m).2.calls = m.calls := by
  obtain ⟨result, texts, htells⟩ := tellFailures_tells v r
  rw [htells]
  rfl

/-- A task runs nothing if the one that it begins with does not, nor what follows. -/
theorem bind_calls {x : Task α} {f : α → Task Unit} {m : Machine}
    (hx : (x.run.run m).2.calls = m.calls)
    (hf : ∀ a n, ((f a).run.run n).2.calls = n.calls) :
    ((x >>= f).run.run m).2.calls = m.calls := by
  cases hrun : x.run.run m with
  | mk result n =>
    rw [hrun] at hx
    cases result with
    | error trouble => rwa [run_bind_error hrun]
    | ok a =>
      rw [run_bind_ok hrun, hf a n]
      exact hx

end Program

/-! ### Walks over a store command -/

/-- A walk over a store command changes nothing of the machine but what was run on it. -/
theorem Lpass.StoreCommand.store_run (c : StoreCommand) (w : Walk α) (s : Session Machine) :
    ∃ calls, (w.run c.store s).session.store = { s.store with calls } := by
  refine w.run_induct (P := fun t => ∃ calls, t.store = { s.store with calls })
    (fun t key _ h => ?_) s ⟨s.store.calls, rfl⟩
  obtain ⟨calls, hstore⟩ := h
  show ∃ calls, (c.store key t.store).2 = { s.store with calls }
  rw [hstore, c.store_calls]
  split
  · exact ⟨_, rfl⟩
  · exact ⟨_, rfl⟩

/-- A handle that cannot be read asks for nothing, -/
theorem resolve_idle {σ : Type} (store : Store σ) (s : Session σ) {raw : String}
    (h : (Handle.parse raw).isOk = false) : ((resolve raw).run store s).session = s := by
  rw [resolve_session]
  cases hparse : Handle.parse raw with
  | error e => rfl
  | ok handle =>
    rw [hparse] at h
    cases h

/-- nor does a row of such handles. -/
theorem runAll_idle {σ : Type} (store : Store σ) (s : Session σ) {raws : List String}
    (h : ∀ raw ∈ raws, (Handle.parse raw).isOk = false) :
    (Walk.runAll store (raws.map resolve) s).2 = s := by
  induction raws with
  | nil => rfl
  | cons raw raws ih =>
    rw [List.map_cons, Walk.runAll, resolve_idle store s (h raw List.mem_cons_self)]
    exact ih fun raw' hraw' => h raw' (List.mem_cons_of_mem raw hraw')

/-- **A document without a handle that can be read** is filled without asking for anything. -/
theorem report_idle {σ : Type} (store : Store σ) (policy : Policy) {document : String}
    (s : Session σ) (h : ∀ p ∈ Placeholder.find document, (Handle.parse p.handle).isOk = false) :
    ((report policy document).run store s).session = s := by
  rw [(report_run store policy document s).2]
  refine runAll_idle store s fun raw hraw => ?_
  have hhandle : raw ∈ (Placeholder.find document).map (·.handle) := by
    cases policy with
    | marker => exact hraw
    | abort =>
      refine List.IsPrefix.subset ?_ hraw
      exact throughFailure_prefix _ _
  obtain ⟨p, hp, rfl⟩ := List.mem_map.1 hhandle
  exact h p hp

namespace Program

/-! ### How a run can end -/

/-- A run comes to a report: there is a document to be filled with some settings, its placeholders
    do not lack a store command, and filling it gives the report. -/
structure ComesTo (o : Options) (m : Machine) (s : Settings) (document : String) (r : Report) :
    Prop where
  /-- The document was read, and the settings were loaded. -/
  assigned : assigned? o m = some (s, document)
  /-- The store command is there, if there are placeholders. -/
  found : hasPlaceholders document = true → (m.locate s.command).isSome = true
  /-- The document is filled. -/
  filled : ((report s.policy document).run s.storeCommand.store
    ⟨.empty s.cachesEmpty, m⟩).result = .ok r

/-- A run comes to one report at most. -/
theorem ComesTo.unique {o : Options} {m : Machine} {s s' : Settings} {document document' : String}
    {r r' : Report} (h : ComesTo o m s document r) (h' : ComesTo o m s' document' r') :
    s = s' ∧ document = document' ∧ r = r' := by
  have hassigned := h.assigned
  rw [h'.assigned] at hassigned
  cases hassigned
  exact ⟨rfl, rfl, Except.ok.inj (h.filled.symm.trans h'.filled)⟩

/-- A run has nothing to fetch: where it has a document to fill and its store command, no handle can
    be read. -/
def Idle (o : Options) (m : Machine) : Prop :=
  ∀ s document, assigned? o m = some (s, document) → (m.locate s.command).isSome = true →
    ∀ p ∈ Placeholder.find document, (Handle.parse p.handle).isOk = false

/-- What a run has to deliver: the listing of its handles, or the output of its report. -/
inductive Yields (o : Options) (m : Machine) : String → Prop where
  /-- The handles are to be listed. -/
  | listing {document : String} (list : o.list = true)
    (read : ((readDocument o).run.run m).1 = .ok document) : Yields o m (listing document)
  /-- The document is filled. -/
  | output {s : Settings} {document : String} {r : Report} (comes : ComesTo o m s document r) :
    Yields o m r.output

/-- How a run can end, and with which machine. -/
inductive RunEnds (v : Voice) (o : Options) (m : Machine) : Except Trouble Unit × Machine → Prop where
  /-- The handles are listed. -/
  | listed {document : String} {n : Machine} (list : o.list = true)
    (read : ((readDocument o).run.run m).1 = .ok document) (can : CanDeliver o (listing document) m)
    (delivers : Delivers o (listing document) m n) : RunEnds v o m (.ok (), n)
  /-- The document is filled. -/
  | filled {s : Settings} {document : String} {r : Report} {n : Machine}
    (comes : ComesTo o m s document r) (complete : r.isComplete = true)
    (can : CanDeliver o r.output m) (delivers : Delivers o r.output m n) : RunEnds v o m (.ok (), n)
  /-- The document is filled with markers. -/
  | marked {s : Settings} {document : String} {r : Report} {n : Machine} {before : List String}
    (comes : ComesTo o m s document r) (lacks : r.isComplete = false)
    (can : CanDeliver o r.output m) (delivers : Delivers o r.output m n)
    (told : n.told = before ++ r.failures.map v.unresolvedText) :
    RunEnds v o m (.error (incomplete r), n)
  /-- What there is to deliver cannot be delivered. -/
  | unwritten {text : String} {fault : SystemFault} {n : Machine} (yields : Yields o m text)
    (cannot : delivery o text m = .error fault) (left : Spares m n ∨ Tears o text m n) :
    RunEnds v o m (.error (writeTrouble o fault), n)
  /-- There is nothing to deliver. -/
  | failed {trouble : Trouble} {n : Machine} (nothing : ∀ text, ¬ Yields o m text)
    (spares : Spares m n) : RunEnds v o m (.error trouble, n)

/-! ### Runs with nothing to fill -/

section Nothing

variable {o : Options} {m : Machine} {trouble : Trouble}

/-- Without a document there is nothing to be filled, -/
theorem assigned?_of_unread (h : ((readDocument o).run.run m).1 = .error trouble) :
    assigned? o m = none := by
  simp only [assigned?, h]

/-- nor without settings, -/
theorem assigned?_of_unset (h : ((settings silent o o.config).run.run m).1 = .error trouble) :
    assigned? o m = none := by
  unfold assigned?
  split
  · rfl
  · split
    · rfl
    · rw [h]

/-- nor when handles are listed. -/
theorem assigned?_of_list (h : o.list = true) : assigned? o m = none := by
  unfold assigned?
  split
  · rfl
  · rw [if_pos h]

theorem list_of_assigned? {s : Settings} {document : String}
    (h : assigned? o m = some (s, document)) : o.list = false := by
  rw [← Bool.not_eq_true]
  intro hlist
  rw [assigned?_of_list hlist] at h
  cases h

/-- A run with nothing to be filled comes to no report. -/
theorem not_comesTo (h : assigned? o m = none) (s : Settings) (document : String) (r : Report) :
    ¬ ComesTo o m s document r := fun hcomes => by
  have hassigned := hcomes.assigned
  rw [h] at hassigned
  cases hassigned

/-- Without a listing and without a report there is nothing to deliver. -/
theorem not_yields (hlist : o.list = true → ∀ document, ((readDocument o).run.run m).1 ≠ .ok document)
    (hreport : ∀ s document r, ¬ ComesTo o m s document r) (text : String) : ¬ Yields o m text
  | .listing list read => hlist list _ read
  | .output comes => hreport _ _ _ comes

/-- A run has one text to deliver at most. -/
theorem Yields.unique {text text' : String} (h : Yields o m text) (h' : Yields o m text') :
    text = text' := by
  cases h with
  | listing list read =>
    cases h' with
    | listing _ read' => rw [Except.ok.inj (read.symm.trans read')]
    | output comes => exact absurd comes (not_comesTo (assigned?_of_list list) _ _ _)
  | output comes =>
    cases h' with
    | listing list _ => exact absurd comes (not_comesTo (assigned?_of_list list) _ _ _)
    | output comes' =>
      obtain ⟨-, -, rfl⟩ := comes.unique comes'
      rfl

/-- So if this one can be delivered, there is none that cannot. -/
theorem Yields.not_cannot {text text' : String} {fault : SystemFault} (h : Yields o m text)
    (hcan : CanDeliver o text m) (h' : Yields o m text') : delivery o text' m ≠ .error fault := by
  intro hcannot
  rw [h'.unique h] at hcannot
  cases hcan.symm.trans hcannot

end Nothing

/-! ### The end of a run -/

section Ends

variable (v : Voice) (o : Options) (s : Settings) (document : String)

/-- What was not filled is told, line by line. -/
theorem tellFailures_run (r : Report) (m : Machine) :
    (tellFailures v r).run.run m
      = if r.isComplete then (.ok (), m)
        else (.error (incomplete r), m.hear (r.failures.map v.unresolvedText)) := by
  unfold tellFailures
  split
  · rfl
  · have htells := Job.Tells.forM v.unresolved_tells r.failures
    show Job.run (_ >>= fun _ => _) m = _
    rw [Job.run_bind, htells m, ← List.map_eq_flatMap]
    rfl

/-- Filling, writing and telling. -/
def fillAndWrite : Task Unit := do
  let r ← fillDocument v o s document
  writeResult o r.output
  tellFailures v r

variable {v o s document} {m : Machine}

/-- A run that has a document to fill ends as it comes to a report, and can deliver it. -/
theorem fillAndWrite_ends (hassigned : assigned? o m = some (s, document))
    (hfound : hasPlaceholders document = true → (m.locate s.command).isSome = true)
    (texts : List String) :
    RunEnds v o m ((fillAndWrite v o s document).run.run (m.hear texts)) := by
  have hrun := fillDocument_run v o s document (m.hear texts)
  rw [Walk.run_hear] at hrun
  have hstore := s.storeCommand.store_run (report s.policy document) ⟨.empty s.cachesEmpty, m⟩
  have hcomes : ∀ s' document' r', ComesTo o m s' document' r' →
      ((report s.policy document).run s.storeCommand.store
        ⟨.empty s.cachesEmpty, m⟩).result = .ok r' := by
    intro s' document' r' h
    have hsame := h.assigned
    rw [hassigned] at hsame
    cases hsame
    exact h.filled
  have hreport : ∀ r, ((report s.policy document).run s.storeCommand.store
      ⟨.empty s.cachesEmpty, m⟩).result = .ok r → ComesTo o m s document r :=
    fun r hr => ⟨hassigned, hfound, hr⟩
  have hunlisted : o.list = true → ∀ document', ((readDocument o).run.run m).1 ≠ .ok document' :=
    fun h => absurd h (by simp [list_of_assigned? hassigned])
  generalize (report s.policy document).run s.storeCommand.store ⟨.empty s.cachesEmpty, m⟩ = e
    at hrun hstore hcomes hreport
  -- To fill only runs commands, so a result can be delivered behind it iff it could be before.
  obtain ⟨calls, hstore⟩ := hstore
  simp only [hstore] at hrun
  unfold fillAndWrite
  cases hresult : e.result with
  | error failure =>
    rw [hresult] at hrun
    rw [run_bind_error hrun]
    refine .failed (not_yields hunlisted fun s' document' r' h => ?_) ⟨rfl, rfl, rfl⟩
    have hok := hcomes s' document' r' h
    rw [hresult] at hok
    cases hok
  | ok r =>
    rw [hresult] at hrun
    rw [run_bind_ok hrun]
    have hthis := hreport r hresult
    rcases writeResult_cases o r.output _ with
      ⟨n, hcan, hdelivers, -, -, hwrite⟩ | ⟨fault, n, hcannot, hleft, -, -, hwrite⟩
    · rw [run_bind_ok hwrite, tellFailures_run]
      cases hcomplete : r.isComplete with
      | true => exact .filled hthis hcomplete hcan hdelivers
      | false => exact .marked (n := n.hear _) hthis hcomplete hcan hdelivers rfl
    · rw [run_bind_error hwrite]
      exact .unwritten (.output hthis) hcannot hleft

end Ends

section Execution

variable (v : Voice) (o : Options) (m : Machine)

/-- The store command is looked for if there are placeholders. -/
theorem ensureStore_cases (c : StoreCommand) (document : String) :
    (∃ texts, (hasPlaceholders document = true → (m.locate c.name).isSome = true) ∧
      (ensureStore v c document).run.run m = (.ok (), m.hear texts)) ∨
    ∃ trouble, ¬ (hasPlaceholders document = true → (m.locate c.name).isSome = true) ∧
      (ensureStore v c document).run.run m = (.error trouble, m) := by
  unfold ensureStore
  cases hasPlaceholders document with
  | false => exact .inl ⟨[], fun h => absurd h (by simp), by rw [m.hear_nil]; rfl⟩
  | true =>
    have hensure : c.ensure.run m = (c.found (m.locate c.name), m) := rfl
    have hrun : ∀ f : Except Failure String → Job (Except Trouble Unit),
        (c.ensure >>= f).run m = (f (c.found (m.locate c.name))).run m := fun f => by
      rw [Job.run_bind, hensure]
    -- What was found is told; what was not found is trouble.
    cases hlocate : m.locate c.name with
    | none =>
      refine .inr ⟨.bare (.failure (.storeMissing c.name)), by simp, (hrun _).trans ?_⟩
      rw [hlocate]
      rfl
    | some path =>
      let notice := Log.note .debug "lpass" s!"Using {path}"
      refine .inl ⟨v.texts notice, fun _ => rfl, (hrun _).trans ?_⟩
      rw [hlocate]
      show Job.run (v.note notice >>= fun _ => _) m = _
      rw [Job.run_bind, v.note_tells notice m]
      rfl

/-- Whether settings can be loaded does not depend on what is logged, nor on what was told. -/
theorem settings_silent (texts : List String) :
    ((settings silent o o.config).run.run m).1
      = ((settings v o o.config).run.run (m.hear texts)).1 := by
  obtain ⟨told, hsilent⟩ := settings_voice v silent o o.config (m.hear texts) m.told
  show ((settings silent o o.config).run.run { m.hear texts with told := m.told }).1 = _
  rw [hsilent]

/-- **How far a run comes.**  It ends before there is anything to deliver, it lists handles, or it
    fills a document; so far it has done nothing but tell. -/
theorem execute_cases :
    (∃ trouble texts, (o.list = true → ∀ document, ((readDocument o).run.run m).1 ≠ .ok document) ∧
      (∀ s document r, ¬ ComesTo o m s document r) ∧
      (execute v o).run.run m = (.error trouble, m.hear texts)) ∨
    (∃ document texts, o.list = true ∧ ((readDocument o).run.run m).1 = .ok document ∧
      (execute v o).run.run m = (writeResult o (listing document)).run.run (m.hear texts)) ∨
    ∃ s document texts, assigned? o m = some (s, document) ∧
      (hasPlaceholders document = true → (m.locate s.command).isSome = true) ∧
      (execute v o).run.run m = (fillAndWrite v o s document).run.run (m.hear texts) := by
  obtain ⟨read, texts, hread, -⟩ := readDocument_tellsAlike o m m rfl
  unfold execute
  cases read with
  | error trouble =>
    have hnone : assigned? o m = none := assigned?_of_unread (congrArg Prod.fst hread)
    refine .inl ⟨trouble, texts, fun _ document hok => ?_, not_comesTo hnone, run_bind_error hread⟩
    rw [hread] at hok
    cases hok
  | ok document =>
    rw [run_bind_ok hread]
    cases hlist : o.list with
    | true => exact .inr (.inl ⟨document, texts, rfl, congrArg Prod.fst hread, rfl⟩)
    | false =>
      simp only [Bool.false_eq_true, if_false]
      obtain ⟨loaded, texts', hload, -⟩ := settings_tellsAlike v o o.config (m.hear texts) _ rfl
      cases loaded with
      | error trouble =>
        -- `assigned?` loads them in silence.
        have hnone : assigned? o m = none := assigned?_of_unset
          ((settings_silent v o m texts).trans (congrArg Prod.fst hload))
        rw [run_bind_error hload, m.hear_hear]
        exact .inl ⟨trouble, _, fun h => absurd h (by simp), not_comesTo hnone, rfl⟩
      | ok s =>
        have hassigned := assigned?_of_runs v o hlist hread hload
        rw [run_bind_ok hload, m.hear_hear]
        rcases ensureStore_cases v (m.hear (texts ++ texts')) s.storeCommand document with
          ⟨texts'', hfound, hensure⟩ | ⟨trouble, hmissing, hensure⟩
        · rw [run_bind_ok hensure, m.hear_hear]
          exact .inr (.inr ⟨s, document, _, hassigned, hfound, rfl⟩)
        · rw [run_bind_error hensure]
          refine .inl ⟨trouble, _, fun h => absurd h (by simp), fun s' document' r h => ?_, rfl⟩
          have hsame := hassigned.symm.trans h.assigned
          cases hsame
          exact hmissing h.found

/-- **So every run ends.** -/
theorem execute_ends : RunEnds v o m ((execute v o).run.run m) := by
  rcases execute_cases v o m with ⟨trouble, texts, hunread, hnone, hrun⟩ |
    ⟨document, texts, hlist, hread, hrun⟩ | ⟨s, document, texts, hassigned, hfound, hrun⟩
  · -- The run came to no document or to no settings.
    rw [hrun]
    exact .failed (not_yields hunread hnone) ⟨rfl, rfl, rfl⟩
  · rw [hrun]
    rcases writeResult_cases o (listing document) (m.hear texts) with
      ⟨n, hcan, hdelivers, -, -, hwrite⟩ | ⟨fault, n, hcannot, hleft, -, -, hwrite⟩
    · rw [hwrite]
      exact .listed hlist hread hcan hdelivers
    · rw [hwrite]
      exact .unwritten (.listing hlist hread) hcannot hleft
  · rw [hrun]
    exact fillAndWrite_ends hassigned hfound texts

/-- **A run with nothing to fetch** runs nothing. -/
theorem execute_idle (h : Idle o m) : ((execute v o).run.run m).2.calls = m.calls := by
  rcases execute_cases v o m with ⟨trouble, texts, -, -, hrun⟩ | ⟨document, texts, -, -, hrun⟩ |
    ⟨s, document, texts, hassigned, hfound, hrun⟩
  · rw [hrun]
    rfl
  · rw [hrun]
    exact writeResult_calls o (listing document) (m.hear texts)
  · have hhandles : ∀ p ∈ Placeholder.find document, (Handle.parse p.handle).isOk = false := by
      intro p hp
      have hhas : hasPlaceholders document = true :=
        hasPlaceholders_iff.2 (List.ne_nil_of_mem hp)
      exact h s document hassigned (hfound hhas) p hp
    have hfill := fillDocument_run v o s document (m.hear texts)
    simp only [report_idle s.storeCommand.store s.policy _ hhandles] at hfill
    rw [hrun]
    -- What follows writes and tells.
    refine bind_calls (congrArg (fun x => x.2.calls) hfill) fun r n => ?_
    exact bind_calls (writeResult_calls o r.output n) fun _ => tellFailures_calls v r

end Execution

/-! ### Failures of a report -/

section Failures

variable {σ : Type} {store : Store σ} {policy : Policy} {document : String} {s : Session σ}
  {r : Report}

/-- Every placeholder of a document has a value or a failure in its report. -/
theorem length_failures_add_resolved
    (h : ((report policy document).run store s).result = .ok r) :
    r.failures.length + r.resolved = (Placeholder.find document).length := by
  have hconclude := (report_run store policy document s).1
  rw [h, ← handlesOf_segments] at hconclude
  have hr := Reference.eq_of_conclude hconclude.symm
  have hlength : (Walk.runAll store ((handlesOf (segments document.toList)).map resolve) s).1.length
      = (handlesOf (segments document.toList)).length := by
    rw [Walk.length_runAll, List.length_map]
  have hcount := countP_add_failing hlength
  have hplaceholders := congrArg List.length (handlesOf_segments document)
  rw [List.length_map] at hplaceholders
  rw [← hr, failures_assemble, resolved_assemble hlength, ← hplaceholders, ← hcount]
  simp only [Report.empty, List.nil_append]
  omega

/-- Only who goes on has failures. -/
theorem marker_of_failures (h : ((report policy document).run store s).result = .ok r)
    (hlacks : r.failures ≠ []) : policy = .marker := by
  have hconclude := (report_run store policy document s).1
  rw [h] at hconclude
  cases policy with
  | marker => rfl
  | abort =>
    obtain ⟨rfl, hcomplete⟩ := Reference.conclude_abort_ok.1 hconclude.symm
    exact absurd (List.isEmpty_iff.1 hcomplete) hlacks

end Failures

/-! ### The program -/

/-- How a run on a machine speaks. -/
def voice (o : Options) (m : Machine) : Voice where
  filter := filterFor m.environment o
  coloured := isColoured m.environment m.terminal

/-- **Titles are coloured** iff that is forced, or a terminal shows what is printed and nothing forbids
    colours. -/
theorem isColoured_iff {e : Environment} {terminal : Bool} :
    isColoured e terminal = true ↔
      (∃ value, e.get? "CLICOLOR_FORCE" = some value ∧ value ≠ "0") ∨
        (terminal = true ∧ e.get? "NO_COLOR" = none ∧ e.get? "CLICOLOR" ≠ some "0") := by
  unfold isColoured
  cases e.get? "CLICOLOR_FORCE" <;> simp [and_assoc, and_left_comm]

/-- What is told at the end if so many placeholders of a document have no value. -/
def Voice.lastText (v : Voice) (missing count : Nat) : String :=
  v.titledText "1;31" "error" s!"{missing} of {count} placeholders could not be resolved"

/-- With which status a run ends, and with which machine: what troubled it is told. -/
def finish (v : Voice) : Except Trouble Unit × Machine → Nat × Machine
  | (.ok (), n) => (0, n)
  | (.error trouble, n) => (1, n.hear (v.diagnosisTexts trouble.diagnosis))

/-- **A command line that was read** is run, and what troubled it is told. -/
theorem runOptions_run (o : Options) (m : Machine) :
    (runOptions o).run m = finish (voice o m) ((execute (voice o m) o).run.run m) := by
  obtain ⟨e, henvironment, hget⟩ :=
    Job.environment_run ["RUST_LOG", "CLICOLOR_FORCE", "NO_COLOR", "CLICOLOR"] m
  -- These variables decide how the program speaks, so it does not matter that `e` has no others.
  have hvoice : (⟨filterFor e o, isColoured e m.terminal⟩ : Voice) = voice o m := by
    have hlog : e.get? "RUST_LOG" = m.environment.get? "RUST_LOG" := hget _
    have hforce : e.get? "CLICOLOR_FORCE" = m.environment.get? "CLICOLOR_FORCE" := hget _
    have hno : e.get? "NO_COLOR" = m.environment.get? "NO_COLOR" := hget _
    have hclicolor : e.get? "CLICOLOR" = m.environment.get? "CLICOLOR" := hget _
    unfold voice filterFor isColoured
    rw [hlog, hforce, hno, hclicolor]
  have hterminal : (Job.ask .isTerminal).run m = (m.terminal, m) := rfl
  rw [runOptions, Job.run_bind, henvironment, Job.run_bind, hterminal]
  show Job.run (_ >>= fun _ => _) m = _
  rw [Job.run_bind, hvoice]
  cases (execute (voice o m) o).run.run m with
  | mk result n =>
    cases result with
    | ok => rfl
    | error trouble =>
      show Job.run (_ >>= fun _ => _) n = _
      rw [Job.run_bind, (voice o m).diagnosis_tells]
      rfl

/-- A command line that can be read is run as it was read. -/
theorem job_run {arguments : List String} {m : Machine} {o : Options}
    (h : Options.parse (m.environment.get? CommandLine.configVariable) arguments = .ok o) :
    (job arguments).run m = (runOptions o).run m := by
  have hlook : (Job.ask (.lookUp CommandLine.configVariable)).run m
      = (m.environment.get? CommandLine.configVariable, m) := rfl
  rw [job, Job.run_bind, hlook, h]

/-- How many placeholders of its document have no value is told at the end. -/
theorem diagnosisTexts_incomplete (v : Voice) {o : Options} {m : Machine} {s : Settings}
    {document : String} {r : Report} (h : ComesTo o m s document r) :
    v.diagnosisTexts (incomplete r).diagnosis
      = [v.lastText r.failures.length (Placeholder.find document).length] := by
  rw [← length_failures_add_resolved h.filled]
  rfl

/-- A run that has nothing to fill, no store command or no handle that can be read has nothing to
    fetch. -/
theorem idle_of {o : Options} {m : Machine}
    (h : o.list = true ∨ (∃ trouble, ((readDocument o).run.run m).1 = .error trouble) ∨
      (∃ trouble, ((settings silent o o.config).run.run m).1 = .error trouble) ∨
      ∃ s document, assigned? o m = some (s, document) ∧ (m.locate s.command = none ∨
        ∀ p ∈ Placeholder.find document, (Handle.parse p.handle).isOk = false)) :
    Idle o m := by
  intro s document hassigned hlocate
  have hsome : assigned? o m ≠ none := by
    rw [hassigned]
    simp
  -- In the first three cases the run comes to no document to be filled.
  rcases h with hlist | ⟨trouble, hread⟩ | ⟨trouble, hload⟩ | ⟨s', document', hassigned', hreason⟩
  · exact absurd (assigned?_of_list hlist) hsome
  · exact absurd (assigned?_of_unread hread) hsome
  · exact absurd (assigned?_of_unset hload) hsome
  · rw [hassigned] at hassigned'
    cases hassigned'
    rcases hreason with hmissing | hhandles
    · rw [hmissing] at hlocate
      cases hlocate
    · exact hhandles

/-! ### What the end of a run tells about it -/

section Outcomes

variable {v : Voice} {o : Options} {m n : Machine} {x : Except Trouble Unit × Machine}

theorem finish_status (v : Voice) (x : Except Trouble Unit × Machine) :
    (finish v x).1 = 0 ∨ (finish v x).1 = 1 := by
  obtain ⟨_ | _, n⟩ := x
  · exact .inr rfl
  · exact .inl rfl

theorem finish_eq_zero : (finish v x).1 = 0 ↔ x.1 = .ok () := by
  obtain ⟨_ | _, n⟩ := x <;> simp [finish]

theorem finish_eq_one : (finish v x).1 = 1 ↔ ∃ trouble, x.1 = .error trouble := by
  obtain ⟨_ | _, n⟩ := x <;> simp [finish]

theorem finish_calls (v : Voice) (x : Except Trouble Unit × Machine) :
    (finish v x).2.calls = x.2.calls := by
  obtain ⟨_ | _, n⟩ := x <;> rfl

theorem finish_told {trouble : Trouble} (h : x.1 = .error trouble) :
    (finish v x).2.told = x.2.told ++ v.diagnosisTexts trouble.diagnosis := by
  obtain ⟨result, n⟩ := x
  cases h
  rfl

/-- To tell what troubled a run neither prints anything nor changes a file. -/
theorem spares_finish (v : Voice) (x : Except Trouble Unit × Machine) :
    Spares x.2 (finish v x).2 := by
  obtain ⟨_ | _, n⟩ := x <;> exact ⟨rfl, rfl, rfl⟩

/-- A run that ends well delivered a listing or a whole document. -/
theorem RunEnds.of_ok (h : RunEnds v o m x) (hok : x.1 = .ok ()) :
    (∃ document, o.list = true ∧ ((readDocument o).run.run m).1 = .ok document ∧
      Delivers o (listing document) m x.2) ∨
    ∃ s document r, ComesTo o m s document r ∧ r.failures = [] ∧ Delivers o r.output m x.2 := by
  cases h with
  | listed hlist hread _ hdelivers => exact .inl ⟨_, hlist, hread, hdelivers⟩
  | filled hcomes hcomplete _ hdelivers =>
    exact .inr ⟨_, _, _, hcomes, List.isEmpty_iff.1 hcomplete, hdelivers⟩
  | marked | unwritten | failed => cases hok

/-- A run that fails delivered nothing but a document with markers, or the beginning of what could
    not be delivered. -/
theorem RunEnds.of_error {trouble : Trouble} (h : RunEnds v o m x) (herror : x.1 = .error trouble) :
    Spares m x.2 ∨
      (∃ s document r, ComesTo o m s document r ∧ s.policy = .marker ∧ r.failures ≠ [] ∧
        Delivers o r.output m x.2) ∨
      ∃ text, Yields o m text ∧ Tears o text m x.2 := by
  cases h with
  | listed | filled => cases herror
  | failed _ hspares => exact .inl hspares
  | @unwritten text fault n hyields _ hleft =>
    exact hleft.imp_right fun htears => .inr ⟨text, hyields, htears⟩
  | @marked s document r n before hcomes hlacks _ hdelivers _ =>
    have hfailures : r.failures ≠ [] := by simpa [Report.isComplete] using hlacks
    exact .inr (.inl ⟨s, document, r, hcomes, marker_of_failures hcomes.filled hfailures, hfailures,
      hdelivers⟩)

/-- A run that lists handles ends well if the listing can be delivered, -/
theorem RunEnds.of_listing {document : String} (h : RunEnds v o m x) (hlist : o.list = true)
    (hread : ((readDocument o).run.run m).1 = .ok document)
    (hcan : CanDeliver o (listing document) m) : x.1 = .ok () := by
  have hyields : Yields o m (listing document) := .listing hlist hread
  cases h with
  | listed | filled => rfl
  | marked hcomes => exact absurd hcomes (not_comesTo (assigned?_of_list hlist) _ _ _)
  | unwritten hyields' hcannot => exact absurd hcannot (hyields.not_cannot hcan hyields')
  | failed hnothing => exact absurd hyields (hnothing _)

variable {s : Settings} {document : String} {r : Report}

/-- and so does one that comes to a whole document. -/
theorem RunEnds.of_complete (h : RunEnds v o m x) (hcomes : ComesTo o m s document r)
    (hcomplete : r.failures = []) (hcan : CanDeliver o r.output m) : x.1 = .ok () := by
  have hyields : Yields o m r.output := .output hcomes
  cases h with
  | listed | filled => rfl
  | marked hcomes' hlacks =>
    obtain ⟨-, -, rfl⟩ := hcomes.unique hcomes'
    simp [Report.isComplete, hcomplete] at hlacks
  | unwritten hyields' hcannot => exact absurd hcannot (hyields.not_cannot hcan hyields')
  | failed hnothing => exact absurd hyields (hnothing _)

/-- A run that comes to a document with markers fails.  It delivers the document if it can. -/
theorem RunEnds.of_lacking (h : RunEnds v o m x) (hcomes : ComesTo o m s document r)
    (hlacks : r.failures ≠ []) :
    ∃ trouble, x.1 = .error trouble ∧
      (CanDeliver o r.output m → trouble = incomplete r ∧ Delivers o r.output m x.2 ∧
        ∃ before, x.2.told = before ++ r.failures.map v.unresolvedText) := by
  have hyields : Yields o m r.output := .output hcomes
  cases h with
  | listed hlist => exact absurd hcomes (not_comesTo (assigned?_of_list hlist) s document r)
  | filled hcomes' hcomplete =>
    obtain ⟨-, -, rfl⟩ := hcomes.unique hcomes'
    exact absurd (List.isEmpty_iff.1 hcomplete) hlacks
  | marked hcomes' _ _ hdelivers htold =>
    obtain ⟨-, -, rfl⟩ := hcomes.unique hcomes'
    exact ⟨_, rfl, fun _ => ⟨rfl, hdelivers, _, htold⟩⟩
  | unwritten hyields' hcannot =>
    exact ⟨_, rfl, fun hcan => absurd hcannot (hyields.not_cannot hcan hyields')⟩
  | failed hnothing => exact absurd hyields (hnothing _)

/-- What cannot be delivered makes a run fail, and at most its beginning was delivered. -/
theorem RunEnds.of_cannot {text : String} {fault : SystemFault} (h : RunEnds v o m x)
    (hyields : Yields o m text) (hcannot : delivery o text m = .error fault) :
    x.1 = .error (writeTrouble o fault) ∧ (Spares m x.2 ∨ Tears o text m x.2) := by
  cases h with
  | listed hlist hread hcan =>
    exact absurd hcannot (Yields.not_cannot (.listing hlist hread) hcan hyields)
  | filled hcomes _ hcan | marked hcomes _ hcan =>
    exact absurd hcannot (Yields.not_cannot (.output hcomes) hcan hyields)
  | unwritten hyields' hcannot' hleft =>
    obtain rfl := hyields'.unique hyields
    obtain rfl := Except.error.inj (hcannot'.symm.trans hcannot)
    exact ⟨rfl, hleft⟩
  | failed hnothing => exact absurd hyields (hnothing _)

end Outcomes

end Program

/-- **What the program delivers.**  A command line that can be read ends with the status 0 or 1.
    With 0 one text was put where it belongs and nowhere else: the listing of the handles, or a
    document whose placeholders all have values; so ends every run that has such a text and can put
    it there.  With 1 nothing was printed and no file was changed, unless a document was filled with
    markers for some of its placeholders, or the place of the result took the beginning of it only.
    A document with markers is delivered if it can be, each placeholder without a value is told of,
    in order, and in the end how many of all they are.  That a result cannot be delivered is told in
    the end.  Nothing is run to list handles, without a document, settings or the store command, or
    if no handle can be read. -/
theorem job_outcomes (arguments : List String) {m : Machine} {o : Options}
    (h : Options.parse (m.environment.get? CommandLine.configVariable) arguments = .ok o) :
    let e := (Program.job arguments).run m
    let v := Program.voice o m
    let read := ((Program.readDocument o).run.run m).1
    let loaded := ((Program.settings Program.silent o o.config).run.run m).1
    (e.1 = 0 ∨ e.1 = 1) ∧
    (e.1 = 0 → ∃ text, Program.Delivers o text m e.2 ∧
      ((∃ document, o.list = true ∧ read = .ok document ∧ text = Program.listing document ∧
          components '\n' text.toList
            = (Placeholder.find document).map (·.handle.toList) ++ [[]]) ∨
        ∃ s document r, Program.ComesTo o m s document r ∧ r.failures = [] ∧ text = r.output)) ∧
    (∀ document, o.list = true → read = .ok document →
      Program.CanDeliver o (Program.listing document) m → e.1 = 0) ∧
    (∀ s document r, Program.ComesTo o m s document r → r.failures = [] →
      Program.CanDeliver o r.output m → e.1 = 0) ∧
    (e.1 = 1 → Program.Spares m e.2 ∨
      (∃ s document r, Program.ComesTo o m s document r ∧ s.policy = .marker ∧ r.failures ≠ [] ∧
        Program.Delivers o r.output m e.2) ∨
      ∃ text, Program.Yields o m text ∧ Program.Tears o text m e.2) ∧
    (∀ s document r, Program.ComesTo o m s document r → s.policy = .marker → r.failures ≠ [] →
      e.1 = 1 ∧
      (Program.CanDeliver o r.output m → Program.Delivers o r.output m e.2 ∧
        ∃ before, e.2.told = before ++ r.failures.map v.unresolvedText
          ++ [v.lastText r.failures.length (Placeholder.find document).length])) ∧
    (∀ text fault, Program.Yields o m text → Program.delivery o text m = .error fault →
      e.1 = 1 ∧ (Program.Spares m e.2 ∨ Program.Tears o text m e.2) ∧
        ∃ before, e.2.told = before
          ++ v.diagnosisTexts (Program.writeTrouble o fault).diagnosis) ∧
    (v.coloured = true ↔
      (∃ value, m.environment.get? "CLICOLOR_FORCE" = some value ∧ value ≠ "0") ∨
        (m.terminal = true ∧ m.environment.get? "NO_COLOR" = none ∧
          m.environment.get? "CLICOLOR" ≠ some "0")) ∧
    ((o.list = true ∨ (∃ trouble, read = .error trouble) ∨ (∃ trouble, loaded = .error trouble) ∨
      ∃ s document, Program.assigned? o m = some (s, document) ∧ (m.locate s.command = none ∨
        ∀ p ∈ Placeholder.find document, (Handle.parse p.handle).isOk = false)) →
      e.2.calls = m.calls) := by
  intro e v read loaded
  have he : e = Program.finish v ((Program.execute v o).run.run m) := by
    rw [← Program.runOptions_run, ← Program.job_run h]
  have hends := Program.execute_ends v o m
  have hcalls : Program.Idle o m → ((Program.execute v o).run.run m).2.calls = m.calls :=
    Program.execute_idle v o m
  -- What is left to show follows from how a run can end, whatever was done in it.
  generalize (Program.execute v o).run.run m = x at he hends hcalls
  clear_value e
  subst he
  have htells : Program.Spares x.2 (Program.finish v x).2 := Program.spares_finish v x
  refine ⟨Program.finish_status v x, fun hzero => ?_, fun document hlist hread hcan => ?_,
    fun s document r hcomes hcomplete hcan => ?_, fun hone => ?_,
    fun s document r hcomes hmarker hlacks => ?_, fun text fault hyields hcannot => ?_,
    Program.isColoured_iff, fun hidle => ?_⟩
  · rcases hends.of_ok (Program.finish_eq_zero.1 hzero) with
      ⟨document, hlist, hread, hdelivers⟩ | ⟨s, document, r, hcomes, hcomplete, hdelivers⟩
    · exact ⟨_, hdelivers.trans htells,
        .inl ⟨document, hlist, hread, rfl, Program.components_listing document⟩⟩
    · exact ⟨_, hdelivers.trans htells, .inr ⟨s, document, r, hcomes, hcomplete, rfl⟩⟩
  · exact Program.finish_eq_zero.2 (hends.of_listing hlist hread hcan)
  · exact Program.finish_eq_zero.2 (hends.of_complete hcomes hcomplete hcan)
  · obtain ⟨trouble, herror⟩ := Program.finish_eq_one.1 hone
    rcases hends.of_error herror with hspares |
      ⟨s, document, r, hcomes, hmarker, hlacks, hdelivers⟩ | ⟨text, hyields, htears⟩
    · exact .inl (hspares.trans htells)
    · exact .inr (.inl ⟨s, document, r, hcomes, hmarker, hlacks, hdelivers.trans htells⟩)
    · exact .inr (.inr ⟨text, hyields, htears.trans htells⟩)
  · obtain ⟨trouble, herror, hdelivered⟩ := hends.of_lacking hcomes hlacks
    refine ⟨Program.finish_eq_one.2 ⟨trouble, herror⟩, fun hcan => ?_⟩
    obtain ⟨rfl, hdelivers, before, htold⟩ := hdelivered hcan
    refine ⟨hdelivers.trans htells, before, ?_⟩
    rw [Program.finish_told herror, htold, Program.diagnosisTexts_incomplete v hcomes]
  · obtain ⟨herror, hleft⟩ := hends.of_cannot hyields hcannot
    exact ⟨Program.finish_eq_one.2 ⟨_, herror⟩, Program.left_trans hleft htells, x.2.told,
      Program.finish_told herror⟩
  · rw [Program.finish_calls, hcalls (Program.idle_of hidle)]

/-- A document with a handle that can be read and one that cannot: it is printed with a marker. -/
theorem job_outcomes_marked :
    let m : Machine :=
      { environment := ⟨[("PATH", "/home/bin"), ("HOME", "/home")]⟩
        location := "/home"
        folder := .folder [("bin", .folder [("lpass", .program
          ⟨[], ⟨0, "", Text.encodeUtf8 "pw".toList, .exit 0⟩⟩)])]
        input := Text.encodeUtf8 "((db/Password)) ((x))".toList
        printed := []
        told := []
        calls := [] }
    let e := (Program.job ["--keep-going"]).run m
    e.1 = 1 ∧ e.2.printed = Text.encodeUtf8 "\"pw\" ((!unresolved x))".toList ∧
      ∃ before, e.2.told = before ++
        ["unresolved: ((x)): Malformed credential handle 'x': expected entry/field or " ++
            "entry/field/subfield\n",
          "error: 1 of 2 placeholders could not be resolved\n"] := by
  intro m e
  let o : Options :=
    { input := none, output := none, list := false, keepGoing := true, timeoutSeconds := none
      command := none, config := none, verbose := false, quiet := false }
  let s : Settings := ⟨"lpass", 300, true, .marker⟩
  let document := "((db/Password)) ((x))"
  let failure : Failure := .malformedHandle "x" HandleFault.tooFew.message
  let r : Report := ⟨"\"pw\" ((!unresolved x))", 1, [("x", failure)]⟩
  have hparse : Options.parse (m.environment.get? CommandLine.configVariable) ["--keep-going"]
      = .ok o := by
    decide +kernel
  have hcomes : Program.ComesTo o m s document r :=
    ⟨by decide +kernel, by decide +kernel, by decide +kernel⟩
  obtain ⟨-, -, -, -, -, hmarked, -⟩ := job_outcomes ["--keep-going"] hparse
  obtain ⟨hstatus, hcan⟩ := hmarked s document r hcomes rfl (by decide)
  obtain ⟨hdelivers, before, htold⟩ := hcan rfl
  simp only [e]
  refine ⟨hstatus, hdelivers.1.trans (List.nil_append _), before, ?_⟩
  -- What is told at the end is the marker and the count of what is missing.
  have htexts : r.failures.map (Program.voice o m).unresolvedText
      ++ [(Program.voice o m).lastText r.failures.length (Placeholder.find document).length]
      = ["unresolved: ((x)): Malformed credential handle 'x': expected entry/field or " ++
          "entry/field/subfield\n",
        "error: 1 of 2 placeholders could not be resolved\n"] := by
    decide +kernel
  rw [← htexts, ← List.append_assoc]
  exact htold

/-- Where colours are forced, the last line does not begin with the bare title; and a disk without
    room for all of a document keeps its beginning in the place of the old file, although the run
    fails and no placeholder lacks a value. -/
theorem job_outcomes_coloured_torn :
    (let m : Machine :=
      { environment := ⟨[("CLICOLOR_FORCE", "1"), ("PATH", "/home/bin"), ("HOME", "/home")]⟩
        location := "/home"
        folder := .folder [("bin", .folder [("lpass", .program
          ⟨[], ⟨0, "", Text.encodeUtf8 "pw".toList, .exit 0⟩⟩)])]
        input := Text.encodeUtf8 "((x))".toList
        printed := []
        told := []
        calls := [] }
    let o : Options :=
      { input := none, output := none, list := false, keepGoing := true, timeoutSeconds := none
        command := none, config := none, verbose := false, quiet := false }
    let s : Settings := ⟨"lpass", 300, true, .marker⟩
    let e := (Program.job ["--keep-going"]).run m
    Options.parse (m.environment.get? CommandLine.configVariable) ["--keep-going"] = .ok o ∧
      (∃ r, Program.ComesTo o m s "((x))" r ∧ r.failures.length = 1 ∧
        Program.CanDeliver o r.output m) ∧
      (Placeholder.find "((x))").length = 1 ∧ e.1 = 1 ∧
      e.2.told.getLast? = some
        "\x1b[1;31merror\x1b[0m: 1 of 1 placeholders could not be resolved\n" ∧
      e.2.told.getLast? ≠ some "error: 1 of 1 placeholders could not be resolved\n") ∧
    (let m : Machine :=
      { environment := ⟨[("HOME", "/home")]⟩
        location := "/home"
        folder := .folder [("out", .file (Text.encodeUtf8 "old".toList))]
        input := Text.encodeUtf8 "abcdef".toList
        disk := .limited 3 (.numbered 28)
        printed := []
        told := []
        calls := [] }
    let o : Options :=
      { input := none, output := some "out", list := false, keepGoing := false
        timeoutSeconds := none, command := none, config := none, verbose := false, quiet := false }
    let s : Settings := ⟨"lpass", 300, true, .abort⟩
    let e := (Program.job ["--output", "out"]).run m
    Options.parse (m.environment.get? CommandLine.configVariable) ["--output", "out"] = .ok o ∧
      Program.ComesTo o m s "abcdef" ⟨"abcdef", 0, []⟩ ∧ e.1 = 1 ∧
      m.read "out" = .ok (Text.encodeUtf8 "old".toList) ∧
      e.2.read "out" = .ok (Text.encodeUtf8 "abc".toList) ∧
      e.2.told = ["error: Failed to write output file: out\n\n" ++
        "Caused by:\n  1: No space left on device (os error 28)\n"]) := by
  refine ⟨?_, ?_⟩
  · intro m o s e
    let failure : Failure := .malformedHandle "x" HandleFault.tooFew.message
    let r : Report := ⟨"((!unresolved x))", 0, [("x", failure)]⟩
    have hcomes : Program.ComesTo o m s "((x))" r :=
      ⟨by decide +kernel, by decide +kernel, by decide +kernel⟩
    have hparse : Options.parse (m.environment.get? CommandLine.configVariable) ["--keep-going"]
        = .ok o := by
      decide +kernel
    -- The title is coloured by force, although nothing is told to a terminal.
    have hlast : e.2.told.getLast? = some
        "\x1b[1;31merror\x1b[0m: 1 of 1 placeholders could not be resolved\n" := by
      decide +kernel
    refine ⟨hparse, ⟨r, hcomes, rfl, rfl⟩, by decide +kernel, by decide +kernel, hlast, ?_⟩
    rw [hlast]
    decide
  · intro m o s e
    -- The file is emptied before the disk turns out to be full.
    exact ⟨by decide +kernel, ⟨by decide +kernel, by decide +kernel, by decide +kernel⟩,
      by decide +kernel, by decide +kernel, by decide +kernel, by decide +kernel⟩

end SecretFill
