import SecretFill.Proofs.Calls
import SecretFill.Proofs.Documents
import SecretFill.Proofs.Errands

namespace SecretFill

/-!
# Whether empty secrets count as cached

Over a constant store it makes no difference to what errands find whether an empty secret counts as
cached.  It only makes a difference to the calls: a key whose secret is empty is then called once, or
else as often as it is asked for.

* `Errand.Ends` — how an errand may end, documents side by side in any order of their steps.
* `Errand.settled`, `Errand.asked` — what an errand finds, and the keys for which it asks.
* `callsFor` — how often a key is called that is asked for so often.
* `Session.Tallies.visit`, `Session.Tallies.of_ends` — the calls so far are those for the keys that
  were asked for, after one key and after an errand.
* `empty_secrets_count_only` — errands find the same in both cases, and how their calls compare.
-/

variable {α σ : Type} {store : Store σ} {outcome : Key → Except Failure String}
  {keepEmpty : Bool} {keys : List Key} {s t : Session (σ × List Key)}

/-! ### Ends of errands -/

namespace Errand

/-- How an errand may end.  Documents that are filled side by side may be so in any order of their
    steps, as long as they are filled in the end. -/
inductive Ends (store : Store σ) (s : Session σ) : Errand → Finding → Session σ → Prop where
  /-- It is run. -/
  | run (e : Errand) : Ends store s e (e.run store s).1 (e.run store s).2
  /-- All documents are filled. -/
  | filled {policy : Policy} {documents : List String} {reports : List Report}
    {f : Floor (Except Failure Report) σ}
    (hruns : Runs (fun _ => store) (.start (documents.map (SecretFill.report policy)) s) f)
    (hfilled : f.stages = reports.map fun r => .finished (.ok r)) :
    Ends store s (.reports policy documents) (.reports (.ok reports)) f.session

/-- How errands may end one after the other. -/
inductive AllEnd (store : Store σ) : List Errand → Session σ → List Finding → Session σ → Prop where
  /-- There are no errands. -/
  | nil (s : Session σ) : AllEnd store [] s [] s
  /-- The next errand starts from what the first one left. -/
  | cons {e : Errand} {rest : List Errand} {s s' last : Session σ} {finding : Finding}
    {findings : List Finding} (hfirst : Ends store s e finding s')
    (hrest : AllEnd store rest s' findings last) :
    AllEnd store (e :: rest) s (finding :: findings) last

/-- Errands that are run end so. -/
theorem allEnd_runAll (store : Store σ) (errands : List Errand) (s : Session σ) :
    AllEnd store errands s (runAll store errands s).1 (runAll store errands s).2 := by
  induction errands generalizing s with
  | nil => exact .nil s
  | cons e rest ih => exact .cons (.run e) (ih (e.run store s).2)

/-- Whether what an errand finds is settled by the outcomes of the keys.  Of documents side by side
    that give up, it depends on the schedule which failure is found. -/
def IsSettled : Errand → Prop
  | reports policy _ => policy = .marker
  | _ => True

/-- What an errand finds over a constant store. -/
def settled (outcome : Key → Except Failure String) : Errand → Finding
  | report policy document => .report (Reference.report outcome policy document)
  | text policy document => .text ((Reference.report outcome policy document).map Report.output)
  | reports _ documents =>
    .reports (.ok (documents.map fun d => Reference.fill outcome (segments d.toList)))
  | handle raw => .text (Reference.resolve outcome raw)
  | secret key => .text (trimmed (outcome key))

/-- The keys for which an errand asks over a constant store. -/
def asked (outcome : Key → Except Failure String) : Errand → List Key
  | report policy document | text policy document =>
    (SecretFill.report policy document).asked fun key => trimmed (outcome key)
  | reports policy documents =>
    (documents.map (SecretFill.report policy)).flatMap (Walk.asked fun key => trimmed (outcome key))
  | handle raw => (resolve raw).asked fun key => trimmed (outcome key)
  | secret key => [key]

end Errand

/-! ### Calls -/

/-- How often a key is called that is asked for `n` times. -/
def callsFor (keepEmpty : Bool) (outcome : Except Failure String) (n : Nat) : Nat :=
  if leavesUsable keepEmpty outcome then min 1 n else n

/-- If empty secrets do not count as cached, there are no fewer calls. -/
theorem callsFor_le (outcome : Except Failure String) (n : Nat) :
    callsFor true outcome n ≤ callsFor false outcome n := by
  cases outcome with
  | error e => exact le_rfl
  | ok text =>
    show min 1 n ≤ callsFor false (.ok text) n
    unfold callsFor
    split
    · exact le_rfl
    · exact Nat.min_le_right 1 n

/-- There are more of them only where a secret is empty. -/
theorem callsFor_eq {outcome : Except Failure String}
    (h : ∀ text, outcome = .ok text → Text.trim text ≠ "") (n : Nat) :
    callsFor true outcome n = callsFor false outcome n := by
  cases outcome with
  | error e => rfl
  | ok text =>
    have husable : leavesUsable false (.ok text) = true := by
      have hfull := h text rfl
      simp only [leavesUsable, Bool.false_or, Bool.not_eq_true', Bool.eq_false_iff, Ne,
        String.isEmpty_iff]
      exact hfull
    unfold callsFor
    rw [husable]
    rfl

/-- A key that has a usable secret is not called again. -/
theorem callsFor_again {outcome : Except Failure String} {n : Nat}
    (husable : leavesUsable keepEmpty outcome = true) (hn : 0 < n) :
    callsFor keepEmpty outcome (n + 1) = callsFor keepEmpty outcome n := by
  unfold callsFor
  rw [if_pos husable, if_pos husable]
  omega

/-- A key that has none is called once more. -/
theorem callsFor_succ {outcome : Except Failure String} {n : Nat}
    (hfirst : leavesUsable keepEmpty outcome = true → n = 0) :
    callsFor keepEmpty outcome (n + 1) = callsFor keepEmpty outcome n + 1 := by
  unfold callsFor
  split
  · rename_i husable
    rw [hfirst husable]
    rfl
  · rfl

/-- Asking for a key in an honest session gets what the store would give. -/
theorem Session.Honest.credential_result {store : Store σ} {s : Session σ}
    (h : s.Honest store outcome) (key : Key) :
    ((credential key).run store s).result = trimmed (outcome key) := by
  obtain ⟨hresult, -, -⟩ := (credential key).run_eval s h.constant
  rw [hresult, h.answer]
  rfl

/-- The calls so far, and the keys that have usable secrets, are those of a cache that was asked for
    some keys. -/
structure Session.Tallies (store : Store σ) (outcome : Key → Except Failure String)
    (keepEmpty : Bool) (keys : List Key) (s : Session (σ × List Key)) : Prop where
  /-- The cache gives out what the store would give. -/
  honest : s.Honest store.recorded outcome
  /-- Whether empty secrets count as cached. -/
  keeps : s.cache.keepEmpty = keepEmpty
  /-- The keys with usable secrets are those that were asked for and whose outcome leaves one. -/
  contains : ∀ key, s.cache.contains key
    = (leavesUsable keepEmpty (outcome key) && keys.contains key)
  /-- A key was called as often as it is when it is asked for so often. -/
  calls : ∀ key, s.calls.count key = callsFor keepEmpty (outcome key) (keys.count key)

namespace Session.Tallies

/-- A new cache was asked for nothing. -/
theorem start (keepEmpty : Bool) {initial : σ} (h : store.Constant outcome initial) :
    (Session.recording ⟨.empty keepEmpty, initial⟩).Tallies store outcome keepEmpty [] where
  honest := ⟨h.recorded, Cache.answer_empty keepEmpty⟩
  keeps := rfl
  contains key := (Bool.and_false _).symm
  calls key := by
    unfold callsFor
    split <;> rfl

/-- A key that has a usable secret was asked for before, and is not called again. -/
theorem visit_hit (h : s.Tallies store outcome keepEmpty keys) {key : Key}
    (hc : s.cache.contains key = true) : s.Tallies store outcome keepEmpty (keys ++ [key]) := by
  have hcontains := h.contains key
  rw [hc] at hcontains
  obtain ⟨husable, hmem⟩ := Bool.and_eq_true_iff.1 hcontains.symm
  refine ⟨h.honest, h.keeps, fun k => ?_, fun k => ?_⟩
  · rw [h.contains k]
    by_cases hk : k = key
    · subst hk
      simp [List.contains_iff_mem.1 hmem]
    · simp [hk]
  · -- The calls of a key that was called for do not change when it is asked for again.
    rw [h.calls k, List.count_append, List.count_singleton]
    by_cases hk : key = k
    · subst hk
      have hpos : 0 < keys.count key := List.count_pos_iff.2 (List.contains_iff_mem.1 hmem)
      rw [if_pos (beq_self_eq_true key)]
      exact (callsFor_again husable hpos).symm
    · rw [if_neg (by simpa using hk)]
      rfl

/-- A key that has none is called, and from then on it has the secret that its outcome leaves. -/
theorem visit_miss (h : s.Tallies store outcome keepEmpty keys) {key : Key}
    (hc : s.cache.contains key = false) :
    (s.fetched store.recorded key).Tallies store outcome keepEmpty (keys ++ [key]) := by
  have hasked : ((credential key).run store.recorded s).session = s.fetched store.recorded key := by
    rw [credential_session, if_neg (Bool.eq_false_iff.1 hc)]
  have houtcome : (store.recorded key s.store).1.outcome = outcome key :=
    h.honest.constant.outcome_eq key
  have hcache : (s.fetched store.recorded key).cache
      = (s.cache.countFetch.finish key (outcome key)).1 := by
    rw [← houtcome]
    rfl
  have hcontains := h.contains key
  rw [hc] at hcontains
  refine ⟨hasked ▸ h.honest.of_run (credential key), ?_, fun k => ?_, fun k => ?_⟩
  · rw [hcache]
    exact Cache.keepEmpty_finish.trans h.keeps
  · rw [hcache]
    by_cases hk : k = key
    · subst hk
      rw [Cache.contains_finish_self (c := s.cache.countFetch) hc]
      show leavesUsable s.cache.keepEmpty _ = _
      rw [h.keeps]
      simp
    · rw [Cache.contains_finish_of_ne hk]
      show s.cache.contains k = _
      rw [h.contains k]
      simp [hk]
  · rw [calls_fetched, List.count_append, List.count_append, h.calls k, List.count_singleton]
    by_cases hk : key = k
    · subst hk
      -- If the first call leaves a usable secret, then this is the first time.
      have hfirst : leavesUsable keepEmpty (outcome key) = true → keys.count key = 0 := by
        intro husable
        rw [husable, Bool.true_and] at hcontains
        exact List.count_eq_zero.2 fun hmem => by simp [hmem] at hcontains
      rw [if_pos (beq_self_eq_true key)]
      exact (callsFor_succ hfirst).symm
    · rw [if_neg (by simpa using hk)]
      rfl

/-- **One key** more is asked for.  It is called unless it has a usable secret. -/
theorem visit (h : s.Tallies store outcome keepEmpty keys) (key : Key) :
    ((credential key).run store.recorded s).session.Tallies store outcome keepEmpty
      (keys ++ [key]) := by
  rw [credential_session]
  split
  · rename_i hc
    exact h.visit_hit hc
  · rename_i hc
    exact h.visit_miss (Bool.eq_false_iff.2 hc)

/-- **A walk** asks for one key after the other. -/
theorem of_run (h : s.Tallies store outcome keepEmpty keys) (w : Walk α) :
    (w.run store.recorded s).session.Tallies store outcome keepEmpty
      (keys ++ w.asked fun key => trimmed (outcome key)) := by
  induction w generalizing s keys with
  | done result =>
    rw [Walk.asked, List.append_nil]
    exact h
  | note notice next ih => exact ih h
  | ask key resume ih =>
    -- To ask and to go on is to ask alone, and then to go on with the settled answer.
    have hsplit : ((Walk.ask key resume).run store.recorded s).session
        = ((resume ((credential key).run store.recorded s).result).run store.recorded
          ((credential key).run store.recorded s).session).session := by
      have hbind : (credential key).bind resume = .ask key resume := rfl
      rw [← hbind, Walk.run_bind]
    rw [hsplit, h.honest.credential_result, Walk.asked, List.append_cons]
    exact ih (trimmed (outcome key)) (h.visit key)

/-- Walks one after the other. -/
theorem of_runAll (h : s.Tallies store outcome keepEmpty keys) (ws : List (Walk α)) :
    (Walk.runAll store.recorded ws s).2.Tallies store outcome keepEmpty
      (keys ++ ws.flatMap (Walk.asked fun key => trimmed (outcome key))) := by
  induction ws generalizing s keys with
  | nil =>
    rw [List.flatMap_nil, List.append_nil]
    exact h
  | cons w ws ih =>
    rw [List.flatMap_cons, ← List.append_assoc]
    exact ih (h.of_run w)

/-- What agrees with such a session is one. -/
theorem of_agree (h : s.Tallies store outcome keepEmpty keys) (hagree : t.Agree s)
    (hhonest : t.Honest store.recorded outcome) (hkeep : t.cache.keepEmpty = keepEmpty) :
    t.Tallies store outcome keepEmpty keys where
  honest := hhonest
  keeps := hkeep
  contains key := by
    rw [← h.contains key]
    unfold Cache.contains Cache.usable? Cache.isUsable
    rw [hagree.held key, hkeep, h.keeps]
  calls key := by
    rw [← h.calls key, Session.calls, Session.calls, List.count_reverse, List.count_reverse]
    exact hagree.calls key

/-- **Documents side by side**, in whatever order their steps are taken, ask for the same keys as one
    after the other. -/
theorem of_documents (h : s.Tallies store outcome keepEmpty keys) {documents : List String}
    {f : Floor (Except Failure Report) (σ × List Key)}
    (hruns : Runs (fun _ => store.recorded) (.start (documents.map (report .marker)) s) f)
    (hagree : f.session.Agree (Batch.oneByOne store.recorded .marker documents s).2) :
    f.session.Tallies store outcome keepEmpty
      (keys ++ (Errand.reports .marker documents).asked outcome) :=
  (h.of_runAll _).of_agree hagree (h.honest.of_steps hruns.steps)
    ((keepEmpty_of_steps hruns.steps).trans h.keeps)

/-- With markers every document has its report. -/
theorem oneByOne_marker (h : s.Tallies store outcome keepEmpty keys) (documents : List String) :
    (Batch.oneByOne store.recorded .marker documents s).1
      = (documents.map fun d => Reference.fill outcome (segments d.toList)).map .ok := by
  have hresults := (Walk.runAll_recorded (documents.map (report .marker)) s (.ofSession s)
    h.honest.constant rfl rfl).1
  rw [h.honest.answer, List.map_map] at hresults
  unfold Batch.oneByOne
  rw [hresults, List.map_map]
  exact List.map_congr_left fun d _ => report_eval .marker d

/-- **An errand** finds what is settled, and asks for its keys. -/
theorem of_ends (h : s.Tallies store outcome keepEmpty keys) {e : Errand} (he : e.IsSettled)
    {finding : Finding} (hends : e.Ends store.recorded s finding t) :
    finding = e.settled outcome ∧
      t.Tallies store outcome keepEmpty (keys ++ e.asked outcome) := by
  -- An errand is run, or its documents are all filled in some order of their steps.
  cases hends with
  | run =>
    cases e with
    | report policy document =>
      exact ⟨congrArg Finding.report (h.honest.report_result policy document), h.of_run _⟩
    | text policy document =>
      refine ⟨?_, h.of_run _⟩
      show Finding.text (Except.map _ _) = _
      rw [h.honest.report_result]
      rfl
    | handle raw => exact ⟨congrArg Finding.text (h.honest.resolve_result raw), h.of_run _⟩
    | secret key => exact ⟨congrArg Finding.text (h.honest.credential_result key), h.visit key⟩
    | reports policy documents =>
      obtain rfl : policy = .marker := he
      obtain ⟨f, hruns, hsession, -⟩ := Schedule.run_runs (fun _ => store.recorded) Batch.halts
        (Batch.asks documents) (documents.map (report .marker)) s
      -- With markers no document fails, so all are filled.
      rcases Batch.run_settled h.honest.constant documents .marker with
        ⟨d, -, e, hfailed, -⟩ | ⟨hcollect, hagree⟩
      · rw [h.honest.answer, report_eval] at hfailed
        cases hfailed
      · rw [h.oneByOne_marker, Batch.collect_filled] at hcollect
        refine ⟨congrArg Finding.reports hcollect, ?_⟩
        show (Batch.run store.recorded .marker documents s).2.Tallies store outcome _ _
        have hrun : f.session = (Batch.run store.recorded .marker documents s).2 := hsession
        rw [← hrun] at hagree ⊢
        exact h.of_documents hruns hagree
  | @filled policy documents reports f hruns hfilled =>
    obtain rfl : policy = .marker := he
    obtain ⟨keys', hlinear⟩ := (Floor.Linear.start _ _ h.honest.constant).of_runs hruns
    obtain ⟨hstages, hagree⟩ := hlinear.agree (Floor.isDone_of_stages hfilled) h.honest.constant
    refine ⟨?_, h.of_documents hruns hagree⟩
    -- What the documents have come to is what they come to one after the other.
    have hresults : (reports.map .ok).map Stage.finished
        = ((documents.map fun d => Reference.fill outcome (segments d.toList)).map
          (.ok : Report → Except Failure Report)).map Stage.finished := by
      rw [← h.oneByOne_marker, List.map_map]
      exact hfilled.symm.trans hstages
    have hreports := List.map_inj_right (fun _ _ h => Except.ok.inj h) |>.1
      (List.map_inj_right (fun _ _ h => Stage.finished.inj h) |>.1 hresults)
    rw [hreports]
    rfl

/-- **Any errands** find what is settled, and ask for their keys. -/
theorem of_allEnd (h : s.Tallies store outcome keepEmpty keys) {errands : List Errand}
    (herrands : ∀ e ∈ errands, e.IsSettled) {findings : List Finding}
    (hend : Errand.AllEnd store.recorded errands s findings t) :
    findings = errands.map (Errand.settled outcome) ∧
      t.Tallies store outcome keepEmpty (keys ++ errands.flatMap (Errand.asked outcome)) := by
  induction hend generalizing keys with
  | nil s =>
    refine ⟨rfl, ?_⟩
    rw [List.flatMap_nil, List.append_nil]
    exact h
  | cons hfirst hrest ih =>
    obtain ⟨he, hall⟩ := List.forall_mem_cons.1 herrands
    obtain ⟨hfinding, hnext⟩ := h.of_ends he hfirst
    obtain ⟨hfindings, hlast⟩ := ih hnext hall
    rw [hfinding, hfindings, List.flatMap_cons, ← List.append_assoc]
    exact ⟨rfl, hlast⟩

end Session.Tallies

/-- **It only counts for calls whether empty secrets count as cached.**  Let the same errands be done
    over a constant store, before a new cache where empty secrets count and before one where they do
    not; documents that are filled side by side do not give up, and are filled in any order of their
    steps.  Then the same is found at every step.  Where empty secrets do not count, no key is called
    less often; and a key is called as often if its fetch fails or its trimmed secret is not empty.

    Errands that are run end in one of these ways. -/
theorem empty_secrets_count_only (store : Store σ) (outcome : Key → Except Failure String)
    (initial : σ) (h : store.Constant outcome initial) (errands : List Errand)
    (herrands : ∀ e ∈ errands, e.IsSettled) :
    (∀ findings findings' kept again,
      Errand.AllEnd store.recorded errands (.recording ⟨.empty true, initial⟩) findings kept →
      Errand.AllEnd store.recorded errands (.recording ⟨.empty false, initial⟩) findings' again →
      findings' = findings ∧ ∀ key,
        kept.calls.count key ≤ again.calls.count key ∧
        ((∀ text, outcome key = .ok text → Text.trim text ≠ "") →
          again.calls.count key = kept.calls.count key)) ∧
    ∀ keepEmpty, Errand.AllEnd store.recorded errands (.recording ⟨.empty keepEmpty, initial⟩)
      (Errand.runAll store.recorded errands (.recording ⟨.empty keepEmpty, initial⟩)).1
      (Errand.runAll store.recorded errands (.recording ⟨.empty keepEmpty, initial⟩)).2 := by
  refine ⟨fun findings findings' kept again hkept hagain => ?_,
    fun keepEmpty => Errand.allEnd_runAll _ errands _⟩
  -- The findings do not depend on the cache, and the calls of a key only on how often it was asked
  -- for.
  obtain ⟨hfindings, htallies⟩ := (Session.Tallies.start true h).of_allEnd herrands hkept
  obtain ⟨hfindings', htallies'⟩ := (Session.Tallies.start false h).of_allEnd herrands hagain
  refine ⟨hfindings'.trans hfindings.symm, fun key => ⟨?_, fun hfull => ?_⟩⟩
  · rw [htallies.calls, htallies'.calls]
    exact callsFor_le _ _
  · rw [htallies.calls, htallies'.calls]
    exact (callsFor_eq hfull _).symm

/-- An empty secret, a blank one and a fetch that fails, for which documents ask on their own and
    side by side, while fetches take time. -/
theorem empty_secrets_count_only_blank :
    let url : Key := ⟨"db", "URL"⟩
    let locked : Key := ⟨"locked", "URL"⟩
    let m : MemoryStore := {
      secrets := [(url, ""), (⟨"db", "Notes"⟩, " \n")]
      failures := [(locked, .timedOut "locked" "URL" 1)]
      delay := 20
      history := [] }
    let errands : List Errand := [
      .report .abort "((db/URL)) ((db/Notes)) ((db/URL))",
      .reports .marker ["((db/URL)) ((locked/URL))", "((db/URL))"]]
    let run := fun keepEmpty =>
      Errand.runAll MemoryStore.fetch.recorded errands (.recording ⟨.empty keepEmpty, m⟩)
    (run false).1 = (run true).1 ∧
      (run true).2.calls.count url ≤ (run false).2.calls.count url ∧
      (run false).2.calls.count locked = (run true).2.calls.count locked := by
  intro url locked m errands run
  have hsettled : ∀ e ∈ errands, e.IsSettled := by
    intro e he
    simp only [errands, List.mem_cons, List.not_mem_nil, or_false] at he
    rcases he with rfl | rfl
    · trivial
    · rfl
  obtain ⟨hall, hends⟩ := empty_secrets_count_only MemoryStore.fetch m.outcome m m.constant errands
    hsettled
  obtain ⟨hfindings, hcalls⟩ := hall _ _ _ _ (hends true) (hends false)
  have hfails : m.outcome locked = .error (.timedOut "locked" "URL" 1) := rfl
  refine ⟨hfindings, (hcalls url).1, (hcalls locked).2 fun text htext => ?_⟩
  rw [hfails] at htext
  cases htext

end SecretFill
