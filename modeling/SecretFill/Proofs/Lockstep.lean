import SecretFill.Proofs.Errands
import SecretFill.Proofs.Margins

namespace SecretFill

/-!
# White space around secrets cannot be seen

Over stores whose answers differ only in the white space around secrets, schedules go in lockstep:
at every point the walks are equally far, before the same desk.  So whatever is asked of a cache,
and however its store is changed meanwhile, the same is found and the same is seen.

* `Lockstep` — a walk and the world around it, over both stores.
* `Walk.advance_alike`, `Schedule.loop_alike` — walks that are let on stay in lockstep.
* `Errand.run_alike` — an errand finds the same over both stores.
* `Happening`, `Happening.watch` — what is asked of a cache or happens to its store, and what is
  found and seen after each of these.
* `margins_unobservable` — the same is found and seen over both stores.
-/

variable {α σ σ' : Type} {R : σ → σ' → Prop} {store : Store σ} {store' : Store σ'}

/-! ### Schedules -/

/-- Two statuses that differ at most in the white space around the text of a fetch in flight. -/
inductive Status.Alike : Status α → Status α → Prop where
  /-- The same status. -/
  | same (status : Status α) : Alike status status
  /-- A fetch in flight. -/
  | fetching {key : Key} {due : Nat} {o o' : Except Failure String}
    {resume : Except Failure String → Walk α} (h : SameOutcome o o') :
    Alike (.fetching key due o resume) (.fetching key due o' resume)

/-- Two worlds with the same desk and the same time, over related states. -/
structure World.Alike (R : σ → σ' → Prop) (w : World σ) (w' : World σ') : Prop where
  /-- The desks are the same. -/
  desk : w.desk = w'.desk
  /-- The states are related. -/
  store : R w.store w'.store
  /-- The times are the same. -/
  clock : w.clock = w'.clock

/-- A walk and the world around it, over both stores. -/
structure Lockstep (R : σ → σ' → Prop) (p : Status α × World σ) (p' : Status α × World σ') :
    Prop where
  /-- The walk is equally far. -/
  status : p.1.Alike p'.1
  /-- The worlds are alike. -/
  world : p.2.Alike R p'.2

/-- **The turn of a walk** comes to the same, if what the walk does with its answer does. -/
theorem World.turn_alike (h : store.AnswersAlike R store') (caller : Nat) (key : Key)
    (resume : Except Failure String → Walk α)
    {go : Except Failure String → World σ → Status α × World σ}
    {go' : Except Failure String → World σ' → Status α × World σ'}
    (hgo : ∀ answer w w', World.Alike R w w' → Lockstep R (go answer w) (go' answer w'))
    {w : World σ} {w' : World σ'} (hw : w.Alike R w') :
    Lockstep R (w.turn (fun _ => store) caller key resume go)
      (w'.turn (fun _ => store') caller key resume go') := by
  obtain ⟨desk, state, clock⟩ := w
  obtain ⟨desk', state', clock'⟩ := w'
  obtain ⟨hdesk, hstate, hclock⟩ := hw
  obtain rfl : desk = desk' := hdesk
  obtain rfl : clock = clock' := hclock
  cases hu : desk.cache.usable? key with
  | some secret =>
    rw [turn_hit hu, turn_hit hu]
    exact hgo _ _ _ ⟨rfl, hstate, rfl⟩
  | none =>
    have houtcome := h.outcome key hstate
    have hdelay := h.delay key hstate
    by_cases hprompt : (store key state).1.delay = 0
    · -- The fetch is over at once, and its text is trimmed.
      rw [turn_prompt hu hprompt, turn_prompt hu (hdelay.symm.trans hprompt), houtcome.trimmed_eq]
      exact hgo _ _ _ ⟨congrArg Prod.fst (Desk.finish_alike houtcome _ caller key),
        h.next key hstate, rfl⟩
    · have hlate : (store' key state').1.delay ≠ 0 := fun h0 => hprompt (hdelay.trans h0)
      rw [turn_fetch hu hprompt, turn_fetch hu hlate]
      refine ⟨?_, rfl, h.next key hstate, rfl⟩
      show Status.Alike (.fetching key (clock + _) _ resume) (.fetching key (clock + _) _ resume)
      rw [hdelay]
      exact .fetching houtcome

/-- **A walk that is let on** stays in lockstep. -/
theorem Walk.advance_alike (h : store.AnswersAlike R store') (caller : Nat) (walk : Walk α)
    {w : World σ} {w' : World σ'} (hw : w.Alike R w') :
    Lockstep R (walk.advance (fun _ => store) caller w)
      (walk.advance (fun _ => store') caller w') := by
  induction walk generalizing w w' with
  | done result => exact ⟨.same _, hw⟩
  | note notice next ih => exact ih hw
  | ask key resume ih =>
    rw [advance_ask, advance_ask, hw.desk]
    split
    · exact ih _ hw
    · have hentered : World.Alike R { w with desk := w'.desk.enter caller key }
          { w' with desk := w'.desk.enter caller key } := ⟨rfl, hw.store, hw.clock⟩
      split
      · exact World.turn_alike h caller key resume (fun answer _ _ => ih answer) hentered
      · exact ⟨.same _, hentered⟩

namespace Status.Alike

variable {s s' : Status α} {w : World σ} {w' : World σ'}

/-- Equally far walks can go on in the same worlds. -/
theorem canGoOn (hs : s.Alike s') (caller : Nat) (hw : w.Alike R w') :
    s.canGoOn caller w = s'.canGoOn caller w' := by
  cases hs with
  | same =>
    cases s <;> simp only [Status.canGoOn, hw.desk, hw.clock]
  | fetching => simp only [Status.canGoOn, hw.clock]

/-- **A walk that is polled** stays in lockstep. -/
theorem poll (hs : s.Alike s') (h : store.AnswersAlike R store') (caller : Nat)
    (hw : w.Alike R w') :
    Lockstep R (s.poll (fun _ => store) caller w) (s'.poll (fun _ => store') caller w') := by
  unfold Status.poll
  rw [hs.canGoOn caller hw]
  split
  · -- They may differ in one thing: both wait for a fetch whose outcomes differ in white space.
    cases hs with
    | same =>
      cases s with
      | ready walk => exact walk.advance_alike h caller hw
      | inLine key resume =>
        exact World.turn_alike h caller key resume
          (fun answer _ _ => (resume answer).advance_alike h caller) hw
      | fetching key due outcome resume =>
        have hdesk : World.Alike R { w with desk := (w.desk.finish caller key outcome).1 }
            { w' with desk := (w'.desk.finish caller key outcome).1 } :=
          ⟨by rw [hw.desk], hw.store, hw.clock⟩
        have hnext := (resume (w.desk.finish caller key outcome).2).advance_alike h caller hdesk
        rw [hw.desk] at hnext ⊢
        exact hnext
      | finished result => exact ⟨.same _, hw⟩
    | @fetching key due o o' resume houtcome =>
      have hfinish : w.desk.finish caller key o = w'.desk.finish caller key o' := by
        rw [hw.desk, Desk.finish_alike houtcome]
      have hdesk : World.Alike R { w with desk := (w'.desk.finish caller key o').1 }
          { w' with desk := (w'.desk.finish caller key o').1 } := ⟨rfl, hw.store, hw.clock⟩
      simp only [hfinish]
      exact (resume (w'.desk.finish caller key o').2).advance_alike h caller hdesk
  · exact ⟨hs, hw⟩

end Status.Alike

namespace Schedule

variable {halts : List (Status α) → Bool} {l l' : List (Status α)} {w : World σ} {w' : World σ'}

/-- A pass over the walks stays in lockstep. -/
theorem pass_alike (h : store.AnswersAlike R store')
    (hhalts : ∀ l l', List.Forall₂ Status.Alike l l' → halts l = halts l')
    {before before' : List (Status α)} (hbefore : List.Forall₂ Status.Alike before before')
    (hl : List.Forall₂ Status.Alike l l') (hw : w.Alike R w') :
    let p := pass (fun _ => store) halts before l w
    let p' := pass (fun _ => store') halts before' l' w'
    List.Forall₂ Status.Alike p.1 p'.1 ∧ p.2.1.Alike R p'.2.1 ∧ p.2.2 = p'.2.2 := by
  induction hl generalizing before before' w w' with
  | nil => exact ⟨hbefore, hw, rfl⟩
  | cons hfirst hrest ih =>
    obtain ⟨hstatus, hworld⟩ := hfirst.poll h before.length hw
    rw [hbefore.length_eq] at hstatus hworld
    have hall := List.rel_append hbefore (.cons hstatus hrest)
    simp only [pass, hbefore.length_eq, hhalts _ _ hall]
    split
    · exact ⟨hall, hworld, rfl⟩
    · exact ih (List.rel_append hbefore (.cons hstatus .nil)) hworld

theorem anyCanGoOn_alike (hw : w.Alike R w') (caller : Nat)
    (hl : List.Forall₂ Status.Alike l l') :
    anyCanGoOn w caller l = anyCanGoOn w' caller l' := by
  induction hl generalizing caller with
  | nil => rfl
  | cons hfirst _ ih => rw [anyCanGoOn, anyCanGoOn, hfirst.canGoOn caller hw, ih]

/-- Fetches take the same time. -/
theorem nextDue?_alike (hl : List.Forall₂ Status.Alike l l') : nextDue? l = nextDue? l' := by
  unfold nextDue?
  congr 1
  induction hl with
  | nil => rfl
  | cons hfirst _ ih =>
    cases hfirst with
    | same => rw [List.filterMap_cons, List.filterMap_cons, ih]
    | fetching => simp only [List.filterMap_cons, ih]

/-- **Walks that are run** stay in lockstep, however long they go on. -/
theorem loop_alike (h : store.AnswersAlike R store')
    (hhalts : ∀ l l', List.Forall₂ Status.Alike l l' → halts l = halts l') (fuel : Nat)
    (hl : List.Forall₂ Status.Alike l l') (hw : w.Alike R w') :
    let p := loop (fun _ => store) halts fuel l w
    let p' := loop (fun _ => store') halts fuel l' w'
    List.Forall₂ Status.Alike p.1 p'.1 ∧ p.2.Alike R p'.2 := by
  induction fuel generalizing l l' w w' with
  | zero => exact ⟨hl, hw⟩
  | succ fuel ih =>
    obtain ⟨hpass, hworld, hhalted⟩ := pass_alike h hhalts .nil hl hw
    rw [loop, loop]
    generalize pass (fun _ => store) halts [] l w = p at hpass hworld hhalted
    generalize pass (fun _ => store') halts [] l' w' = p' at hpass hworld hhalted
    obtain ⟨l, w, halted⟩ := p
    obtain ⟨l', w', halted'⟩ := p'
    obtain rfl : halted = halted' := hhalted
    cases halted with
    | true => exact ⟨hpass, hworld⟩
    | false =>
      -- Another pass is made now or at the next time when a fetch is over, or never.
      simp only [anyCanGoOn_alike hworld 0 hpass, nextDue?_alike hpass]
      split
      · exact ih hpass hworld
      · split
        · exact ⟨hpass, hworld⟩
        · exact ih hpass ⟨hworld.desk, hworld.store, rfl⟩

end Schedule

/-! ### Errands -/

namespace Batch

variable {l l' : List (Status (Except Failure Report))}

/-- Equally far walks have both failed or both not, -/
theorem failed_alike {s s' : Status (Except Failure Report)} (hs : s.Alike s') :
    failed s = failed s' := by
  cases hs with
  | same => rfl
  | fetching => rfl

/-- and both filled their documents or both not. -/
theorem filled_alike {s s' : Status (Except Failure Report)} (hs : s.Alike s') :
    filled s = filled s' := by
  cases hs with
  | same => rfl
  | fetching => rfl

theorem any_failed_alike (hl : List.Forall₂ Status.Alike l l') :
    l.any failed = l'.any failed := by
  induction hl with
  | nil => rfl
  | cons hfirst _ ih => rw [List.any_cons, List.any_cons, failed_alike hfirst, ih]

/-- The first walk that has not filled its document has failed on both sides or on none. -/
theorem first_failed_alike (hl : List.Forall₂ Status.Alike l l') :
    (l.dropWhile filled).head?.any failed = (l'.dropWhile filled).head?.any failed := by
  induction hl with
  | nil => rfl
  | cons hfirst _ ih =>
    rw [List.dropWhile_cons, List.dropWhile_cons, filled_alike hfirst]
    split
    · exact ih
    · exact failed_alike hfirst

/-- Whether a failure stops the documents does not depend on what is still in flight. -/
theorem halts_alike (hl : List.Forall₂ Status.Alike l l') : halts l = halts l' := by
  unfold halts
  rw [hl.length_eq, any_failed_alike hl, first_failed_alike hl]

/-- Nor does what is collected. -/
theorem collect_alike (hl : List.Forall₂ Status.Alike l l') : collect l = collect l' := by
  induction hl with
  | nil => rfl
  | @cons status _ _ _ hfirst _ ih =>
    cases hfirst with
    | fetching => exact ih
    | same =>
      cases status with
      | ready | inLine | fetching => exact ih
      | finished result =>
        cases result with
        | ok r => rw [collect, collect, ih]
        | error e => rfl

/-- **Documents side by side** come to the same over both stores. -/
theorem run_alike (h : store.AnswersAlike R store') (policy : Policy) (documents : List String)
    {s : Session σ} {s' : Session σ'} (hs : s.Alike R s') :
    (run store policy documents s).1 = (run store' policy documents s').1 ∧
      (run store policy documents s).2.Alike R (run store' policy documents s').2 := by
  have hready : List.Forall₂ Status.Alike ((documents.map (report policy)).map .ready)
      ((documents.map (report policy)).map .ready) :=
    List.forall₂_same.2 fun status _ => .same status
  have hstart : World.Alike R ⟨.idle s.cache, s.store, 0⟩ ⟨.idle s'.cache, s'.store, 0⟩ :=
    ⟨congrArg Desk.idle hs.cache, hs.store, rfl⟩
  obtain ⟨hl, hw⟩ := Schedule.loop_alike h (fun _ _ => halts_alike)
    (3 * asks documents + (documents.map (report policy)).length + 1) hready hstart
  exact ⟨collect_alike hl, congrArg Desk.cache hw.desk, hw.store⟩

end Batch

/-- **An errand** finds the same over both stores. -/
theorem Errand.run_alike (h : store.AnswersAlike R store') (e : Errand) {s : Session σ}
    {s' : Session σ'} (hs : s.Alike R s') :
    (e.run store s).1 = (e.run store' s').1 ∧
      (e.run store s).2.Alike R (e.run store' s').2 := by
  have hwalk : ∀ {α : Type} (w : Walk α) (found : α → Finding),
      found (w.run store s).result = found (w.run store' s').result ∧
        (w.run store s).session.Alike R (w.run store' s').session := by
    intro α w found
    obtain ⟨hresult, hsession⟩ := w.run_alike h hs
    exact ⟨congrArg found hresult, hsession⟩
  -- All errands but the one for a batch are single walks.
  cases e with
  | report policy document => exact hwalk (SecretFill.report policy document) .report
  | text policy document =>
    exact hwalk (SecretFill.report policy document) fun result =>
      .text (result.map Report.output)
  | handle raw => exact hwalk (resolve raw) .text
  | secret key => exact hwalk (credential key) .text
  | reports policy documents =>
    obtain ⟨hresult, hsession⟩ := Batch.run_alike h policy documents hs
    exact ⟨congrArg Finding.reports hresult, hsession⟩

/-! ### What is found and seen -/

/-- What may happen to a cache and the store behind it. -/
inductive Happening (σ : Type) where
  /-- Something is asked of them. -/
  | errand (e : Errand)
  /-- The store is changed. -/
  | update (change : σ → σ)

namespace Happening

/-- What is found, if something was asked, and the session afterwards. -/
def run (store : Store σ) : Happening σ → Session (σ × List Key) →
    Option Finding × Session (σ × List Key)
  | errand e, s =>
    let (finding, s) := e.run store.recorded s
    (some finding, s)
  | update change, s => (none, ⟨s.cache, change s.store.1, s.store.2⟩)

/-- What is found and seen after each of some happenings, and the session at their end. -/
def watch (store : Store σ) : List (Happening σ) → Session (σ × List Key) →
    List (Option Finding × Glimpse) × Session (σ × List Key)
  | [], s => ([], s)
  | step :: rest, s =>
    let (found?, s) := step.run store s
    let (seen, last) := watch store rest s
    ((found?, s.glimpse) :: seen, last)

/-- The same is asked of both sides, or both stores are changed alike. -/
inductive Alike (R : σ → σ' → Prop) : Happening σ → Happening σ' → Prop where
  /-- The same is asked. -/
  | errand (e : Errand) : Alike R (.errand e) (.errand e)
  /-- States that are related are so afterwards. -/
  | update {change : σ → σ} {change' : σ' → σ'} (h : ∀ s s', R s s' → R (change s) (change' s')) :
    Alike R (.update change) (.update change')

variable {s : Session (σ × List Key)} {s' : Session (σ' × List Key)}

/-- Of sessions that are alike the same is seen. -/
theorem glimpse_eq (hs : s.Alike (Noted R) s') : s.glimpse = s'.glimpse := by
  unfold Session.glimpse Session.calls
  rw [hs.cache, hs.store.2]

/-- **One happening** finds the same on both sides, and leaves them alike. -/
theorem run_alike (h : store.AnswersAlike R store') {step : Happening σ} {step' : Happening σ'}
    (hstep : step.Alike R step') (hs : s.Alike (Noted R) s') :
    (step.run store s).1 = (step'.run store' s').1 ∧
      (step.run store s).2.Alike (Noted R) (step'.run store' s').2 := by
  cases hstep with
  | errand e =>
    obtain ⟨hfinding, hsession⟩ := e.run_alike h.recorded hs
    exact ⟨congrArg some hfinding, hsession⟩
  | update hchange => exact ⟨rfl, hs.cache, hchange _ _ hs.store.1, hs.store.2⟩

/-- **Any happenings.**  After each of them the same is found and seen on both sides. -/
theorem watch_alike (h : store.AnswersAlike R store') {steps : List (Happening σ)}
    {steps' : List (Happening σ')} (hsteps : List.Forall₂ (Alike R) steps steps')
    (hs : s.Alike (Noted R) s') :
    (watch store steps s).1 = (watch store' steps' s').1 ∧
      (watch store steps s).2.Alike (Noted R) (watch store' steps' s').2 := by
  induction hsteps generalizing s s' with
  | nil => exact ⟨rfl, hs⟩
  | cons hfirst _ ih =>
    obtain ⟨hfound, hsession⟩ := run_alike h hfirst hs
    obtain ⟨hseen, hlast⟩ := ih hsession
    rw [watch, watch]
    exact ⟨List.cons_eq_cons.2 ⟨Prod.ext hfound (glimpse_eq hsession), hseen⟩, hlast⟩

end Happening

/-- **White space around secrets cannot be seen.**  Let two stores answer every call alike but for
    the white space around secrets, and let the same be asked of a new cache before each of them, in
    any order, while the stores are changed alike.  Then after each step the same was found, and the
    same keys are cached, as many of them, after as many fetches and the same calls; be it that
    empty secrets count as cached or not.

    So it is too for walks that are then begun side by side, in any order of their steps and
    wherever some of them are dropped: over the other store they can do the same, with the same
    results and the same to be seen. -/
theorem margins_unobservable (R : σ → σ' → Prop) (store : Store σ) (store' : Store σ')
    (h : store.AnswersAlike R store') (keepEmpty : Bool) (initial : σ) (initial' : σ')
    (hinitial : R initial initial') (steps : List (Happening σ)) (steps' : List (Happening σ'))
    (hsteps : List.Forall₂ (Happening.Alike R) steps steps') :
    let watched := Happening.watch store steps (Session.recording ⟨.empty keepEmpty, initial⟩)
    let watched' := Happening.watch store' steps' (Session.recording ⟨.empty keepEmpty, initial'⟩)
    watched.1 = watched'.1 ∧
    ∀ (walks : List (Walk α)) (f : Floor α (σ × List Key)),
      Steps (fun _ => store.recorded) (.start walks watched.2) f →
      ∃ f', Steps (fun _ => store'.recorded) (.start walks watched'.2) f' ∧
        f.session.glimpse = f'.session.glimpse ∧
        ∀ (i : Nat) result, f.stages[i]? = some (.finished result) ↔
          f'.stages[i]? = some (.finished result) := by
  intro watched watched'
  have hstart : (Session.recording ⟨.empty keepEmpty, initial⟩).Alike (Noted R)
      (Session.recording ⟨.empty keepEmpty, initial'⟩) := ⟨rfl, hinitial, rfl⟩
  obtain ⟨hseen, hlast⟩ := Happening.watch_alike h hsteps hstart
  refine ⟨hseen, fun walks f hruns => ?_⟩
  -- The walks find the same desk, so every run over one store has its counterpart over the other.
  obtain ⟨f', hruns', hf⟩ := (Floor.Alike.start walks hlast).of_steps h.recorded hruns
  have hsession : f.session.Alike (Noted R) f'.session := ⟨congrArg Desk.cache hf.desk, hf.store⟩
  exact ⟨f', hruns', Happening.glimpse_eq hsession, fun i => hf.finished_iff⟩

namespace MemoryStore

/-- Two stores in memory whose secrets differ at most in the white space around them. -/
structure SameSecrets (m m' : MemoryStore) : Prop where
  /-- A key has a secret in both or in none. -/
  secrets : ∀ key, Option.Rel Text.SameBody (m.secrets.lookup key) (m'.secrets.lookup key)
  /-- The same fetches fail. -/
  failures : m.failures = m'.failures
  /-- Fetches take the same time. -/
  delay : m.delay = m'.delay

namespace SameSecrets

variable {m m' : MemoryStore}

/-- Such stores answer alike. -/
theorem answersAlike : fetch.AnswersAlike SameSecrets fetch where
  outcome := by
    intro m m' key h
    show SameOutcome (m.outcome key) (m'.outcome key)
    have hsecret := h.secrets key
    unfold outcome
    rw [h.failures]
    cases m'.failures.lookup key with
    | some e => exact .failure e
    | none =>
      generalize m.secrets.lookup key = secret at hsecret ⊢
      generalize m'.secrets.lookup key = secret' at hsecret ⊢
      cases hsecret with
      | some hbody => exact .text hbody
      | none => exact .failure _
  delay _ h := h.delay
  next _ h := ⟨h.secrets, h.failures, h.delay⟩

/-- Both are given a secret, with other white space around it. -/
theorem set (h : m.SameSecrets m') (key : Key) {s t : String} (hbody : Text.SameBody s t) :
    (m.set key s).SameSecrets (m'.set key t) where
  secrets k := by
    show Option.Rel _ (((key, s) :: m.secrets).lookup k) (((key, t) :: m'.secrets).lookup k)
    rw [List.lookup_cons, List.lookup_cons]
    split
    · exact .some hbody
    · exact h.secrets k
  failures := h.failures
  delay := h.delay

end SameSecrets

end MemoryStore

/-- A store that gives a secret verbatim and one that gives it trimmed, where fetches take time and
    one fails; another secret is blank at first, and then it is set. -/
theorem margins_unobservable_verbatim :
    let password : Key := ⟨"db", "Password"⟩
    let url : Key := ⟨"db", "URL"⟩
    let m : MemoryStore := {
      secrets := []
      failures := [(⟨"locked", "URL"⟩, .timedOut "locked" "URL" 1)]
      delay := 20
      history := [] }
    let verbatim := (m.set password " pw\n").set url "\t"
    let trimmed := (m.set password "pw").set url ""
    let steps : String → List (Happening MemoryStore) := fun text => [
      .errand (.report .marker "a: ((db/Password)) b: ((db/URL)) c: ((locked/URL))"),
      .update fun m => m.set url text,
      .errand (.reports .abort ["((db/URL))", "((locked/URL))"]),
      .errand (.secret url)]
    verbatim.SameSecrets trimmed ∧
      (Happening.watch MemoryStore.fetch (steps "local\n")
          (.recording ⟨.empty false, verbatim⟩)).1
        = (Happening.watch MemoryStore.fetch (steps "local")
          (.recording ⟨.empty false, trimmed⟩)).1 := by
  intro password url m verbatim trimmed steps
  have hsame : ∀ {s t : String}, Text.trim s = Text.trim t → Text.SameBody s t :=
    Text.sameBody_iff.2
  have hm : m.SameSecrets m := ⟨fun _ => .none, rfl, rfl⟩
  have hstores : verbatim.SameSecrets trimmed :=
    (hm.set password (hsame (by decide))).set url (hsame (by decide))
  have hset : ∀ m m' : MemoryStore, m.SameSecrets m' →
      (m.set url "local\n").SameSecrets (m'.set url "local") :=
    fun _ _ h => h.set url (hsame (by decide))
  obtain ⟨hseen, -⟩ := margins_unobservable (α := Unit) MemoryStore.SameSecrets MemoryStore.fetch
    MemoryStore.fetch MemoryStore.SameSecrets.answersAlike false verbatim trimmed hstores
    (steps "local\n") (steps "local")
    (.cons (.errand _) (.cons (.update hset) (.cons (.errand _) (.cons (.errand _) .nil))))
  exact ⟨hstores, hseen⟩

end SecretFill
