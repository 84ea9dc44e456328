import SecretFill.Proofs.Calls
import SecretFill.Proofs.Causes
import SecretFill.Proofs.Muted

namespace SecretFill

/-!
# Filling a document on two machines

Two machines differ only in what their programs print, so a document is filled with different
secrets on them.  If every placeholder has a value on both or the same failure on both, and if the
same secrets are empty, then nothing but the filled document shows a difference.

* `StoreCommand.answers` — what the store on a machine answers for each key.
* `fate`, `SameFates` — what may not depend on the machine.
* `Cache.masked` — a cache without its secrets.
* `Twins` — two sessions that differ only in secrets; `Twins.resolve`, `Twins.fill` — a handle and a
  row of segments leave twins, and tell the same.
* `report_twins` — so does a document.
-/

open Lpass (StoreCommand)

variable {α : Type}

/-! ### Answers of a machine -/

namespace Lpass.StoreCommand

variable (c : StoreCommand) {m m' : Machine}

/-- What the store on a machine answers for a key. -/
def answers (c : StoreCommand) (m : Machine) (key : Key) : Except Failure String :=
  (c.store key m).1.outcome

/-- What was run before makes no difference for an answer. -/
theorem reply_calls (m : Machine) (calls : List (List String)) (key : Key) :
    (c.store key { m with calls }).1 = (c.store key m).1 := by
  have hlaunch := congrArg Prod.fst (m.launch_calls calls c.name (showArguments key))
  exact congrArg (c.reply key) hlaunch

/-- Nor does what was told before. -/
theorem answers_hear (m : Machine) (texts : List String) :
    c.answers (m.hear texts) = c.answers m := by
  funext key
  simp only [answers, store_hear]

/-- **The store on a machine is constant.** -/
theorem constant (m : Machine) (calls : List (List String)) :
    c.store.Constant (c.answers m) { m with calls } := by
  intro keys key
  have hafter : ∃ calls', c.store.after { m with calls } keys = { m with calls := calls' } := by
    induction keys generalizing calls with
    | nil => exact ⟨calls, rfl⟩
    | cons key keys ih =>
      show ∃ calls', c.store.after (c.store key { m with calls }).2 keys = _
      rw [c.store_calls]
      split <;> exact ih _
  obtain ⟨calls', hafter⟩ := hafter
  rw [hafter]
  exact congrArg Reply.outcome (c.reply_calls m calls' key)

/-- What is told of a run does not depend on what was printed in it. -/
theorem notices_replyOfRun_muted (key : Key) (run : Run) :
    (c.replyOfRun key run.muted).notices = (c.replyOfRun key run).notices := by
  have hpause : run.muted.pause = run.pause := rfl
  unfold replyOfRun
  rw [hpause]
  cases c.limit?.filter (· ≤ run.pause) <;> rfl

/-- On machines that differ only in what programs print, a program is run alike. -/
theorem launch_cases (h : m.muted = m'.muted) (name : String) (arguments : List String) :
    (∃ fault, (m.launch name arguments).1 = .error fault ∧
      (m'.launch name arguments).1 = .error fault) ∨
    ∃ run run', (m.launch name arguments).1 = .ok run ∧
      (m'.launch name arguments).1 = .ok run' ∧ run.muted = run'.muted := by
  have hlaunch : (m.muted.launch name arguments).1 = (m'.muted.launch name arguments).1 := by
    rw [h]
  rw [Machine.launch_muted, Machine.launch_muted] at hlaunch
  exact map_eq_cases hlaunch

/-- There the same is told of a fetch, -/
theorem notices_eq (h : m.muted = m'.muted) (key : Key) :
    (c.store key m).1.notices = (c.store key m').1.notices := by
  show (c.reply key (m.launch c.name (showArguments key)).1).notices
    = (c.reply key (m'.launch c.name (showArguments key)).1).notices
  rcases launch_cases h c.name (showArguments key) with
    ⟨fault, hrun, hrun'⟩ | ⟨run, run', hrun, hrun', hmuted⟩
  · rw [hrun, hrun']
  · rw [hrun, hrun']
    show (c.replyOfRun key run).notices = (c.replyOfRun key run').notices
    rw [← c.notices_replyOfRun_muted, hmuted, c.notices_replyOfRun_muted]

/-- and the command can be run for the same keys. -/
theorem canRun_eq (h : m.muted = m'.muted) (key : Key) : c.canRun m key = c.canRun m' key := by
  unfold canRun
  rcases launch_cases h c.name (showArguments key) with
    ⟨fault, hrun, hrun'⟩ | ⟨run, run', hrun, hrun', -⟩
  · rw [hrun, hrun']
  · rw [hrun, hrun']
    rfl

/-- The failures of a store are its own. -/
theorem concernsStore_of_answers {key : Key} {e : Failure} (h : c.answers m key = .error e) :
    e.concernsStore = true := by
  have hreply : (c.reply key (m.launch c.name (showArguments key)).1).outcome = .error e := h
  -- Either no run was had, or one that took too long, failed or printed what is no text.
  cases hrun : (m.launch c.name (showArguments key)).1 with
  | error fault =>
    rw [hrun] at hreply
    simp only [reply, replyOfFault] at hreply
    split at hreply <;> cases hreply <;> rfl
  | ok run =>
    rw [hrun] at hreply
    simp only [reply, replyOfRun] at hreply
    split at hreply
    · cases hreply
      rfl
    · simp only [outcome] at hreply
      split at hreply
      · cases hreply
        rfl
      · split at hreply <;> cases hreply
        rfl

end Lpass.StoreCommand

/-! ### Failures of rendering -/

/-- **The failures of rendering** lie with the document or the secret, and not with the store. -/
theorem concernsStore_of_render {handle : Handle} {secret : String} {e : Failure}
    (h : render handle secret = .error e) : e.concernsStore = false := by
  obtain ⟨name, cause, -, -, rfl⟩ := Fragment.failsBy_of_render h
  cases cause with
  | unreadable place => cases place <;> rfl
  | misshapen | missing | unencodable => rfl

/-! ### Masked caches -/

/-- What is left of a secret that must not be seen: whether it is empty. -/
def masked (secret : String) : String := if secret = "" then "" else "*"

@[simp] theorem isEmpty_masked (secret : String) : (masked secret).isEmpty = secret.isEmpty := by
  unfold masked
  split
  · rename_i h
    rw [h]
  · rename_i h
    rw [(String.isEmpty_eq_false_iff).2 h]
    rfl

namespace Cache

variable {c d : Cache} {key : Key} {secret : String}

/-- A cache without its secrets: all that is left of each is whether it is empty. -/
def masked (c : Cache) : Cache :=
  { c with secrets := c.secrets.map fun entry => (entry.1, SecretFill.masked entry.2) }

theorem size_masked : c.masked.size = c.size := List.length_map _

/-- **A masked cache** still knows for which keys it has a usable secret. -/
theorem contains_masked : c.masked.contains key = c.contains key := by
  have hheld : c.masked.held? key = (c.held? key).map SecretFill.masked :=
    lookup_map SecretFill.masked key c.secrets
  unfold contains usable? isUsable
  rw [hheld]
  cases c.held? key with
  | none => rfl
  | some secret =>
    rw [Option.map_some, Option.filter_some, Option.filter_some, isEmpty_masked]
    show Option.isSome (if (c.keepEmpty || _) = true then _ else _) = _
    cases c.keepEmpty || !secret.isEmpty <;> rfl

theorem masked_insert : (c.insert key secret).masked
    = c.masked.insert key (SecretFill.masked secret) := by
  have hfilter : (c.secrets.map fun entry => (entry.1, SecretFill.masked entry.2)).filter
      (·.1 ≠ key) = (c.secrets.filter (·.1 ≠ key)).map
        fun entry => (entry.1, SecretFill.masked entry.2) := List.filter_map
  simp only [masked, insert, hfilter, List.map_cons]

end Cache

/-! ### Fates -/

/-- What becomes of something: it fails with a failure, or it does not fail. -/
def fate {β : Type} (x : Except Failure β) : Except Failure Unit := x.map fun _ => ()

@[simp] theorem isOk_fate {β : Type} (x : Except Failure β) : (fate x).isOk = x.isOk := by
  cases x <;> rfl

theorem fate_eq_ok {β : Type} {x : Except Failure β} : fate x = .ok () ↔ ∃ b, x = .ok b := by
  cases x <;> simp [fate, Except.map]

theorem fate_eq_error {β : Type} {x : Except Failure β} {e : Failure} :
    fate x = .error e ↔ x = .error e := by
  cases x <;> simp [fate, Except.map]

/-- If a handle has the same fate on two machines, so has the fetch for its key: the failures of the
    store are not those of rendering. -/
theorem fate_answers {c : StoreCommand} {m m' : Machine} {raw : String} {handle : Handle}
    (hparse : Handle.parse raw = .ok handle)
    (h : fate (Reference.resolve (c.answers m) raw) = fate (Reference.resolve (c.answers m') raw)) :
    fate (c.answers m handle.key) = fate (c.answers m' handle.key) := by
  have hresolve : ∀ m, Reference.resolve (c.answers m) raw
      = (trimmed (c.answers m handle.key)).bind (render handle) := by
    intro m
    rw [Reference.resolve, hparse]
    rfl
  -- A fetch that fails on one machine only would leave a failure of the store against one of
  -- rendering.
  have hmixed : ∀ {m m' : Machine} {e : Failure} {text : String},
      c.answers m handle.key = .error e → c.answers m' handle.key = .ok text →
      fate (Reference.resolve (c.answers m) raw)
        ≠ fate (Reference.resolve (c.answers m') raw) := by
    intro m m' e text herror hok heq
    have hfailed : Reference.resolve (c.answers m) raw = .error e := by
      rw [hresolve, herror]
      rfl
    rw [fate_eq_error.2 hfailed, eq_comm, fate_eq_error, hresolve, hok] at heq
    have hrender : e.concernsStore = false := concernsStore_of_render heq
    rw [c.concernsStore_of_answers herror] at hrender
    exact absurd hrender (by decide)
  cases hm : c.answers m handle.key with
  | error e =>
    cases hm' : c.answers m' handle.key with
    | error e' =>
      rw [hresolve, hresolve, hm, hm'] at h
      exact h
    | ok text' => exact absurd h (hmixed hm hm')
  | ok text =>
    cases hm' : c.answers m' handle.key with
    | error e' => exact absurd h.symm (hmixed hm' hm)
    | ok text' => rfl

/-- **A document has the same fate on two machines**: every placeholder has a value on both, or the
    same failure on both; and of the secrets that are fetched, the same ones are empty. -/
structure SameFates (c : StoreCommand) (policy : Policy) (document : String) (m m' : Machine) :
    Prop where
  /-- Each placeholder has the same fate. -/
  fate : ∀ p ∈ Placeholder.find document,
    fate (Reference.resolve (c.answers m) p.handle)
      = fate (Reference.resolve (c.answers m') p.handle)
  /-- The same secrets are empty, of those for which the policy asks. -/
  empty : let handles := (Placeholder.find document).map (·.handle)
    ∀ raw ∈ policy.visited handles (handles.map (Reference.resolve (c.answers m))),
      ∀ handle, Handle.parse raw = .ok handle →
        (trimmed (c.answers m handle.key) = .ok "" ↔ trimmed (c.answers m' handle.key) = .ok "")

/-- It has so when both were told something. -/
theorem SameFates.hear {c : StoreCommand} {policy : Policy} {document : String} {m m' : Machine}
    (h : SameFates c policy document m m') (texts : List String) :
    SameFates c policy document (m.hear texts) (m'.hear texts) := by
  obtain ⟨hfate, hempty⟩ := h
  constructor
  · simpa only [c.answers_hear] using hfate
  · simpa only [c.answers_hear] using hempty

/-! ### What is told of a handle -/

section Notices

variable {σ : Type} {store : Store σ}

/-- What is told when a secret is asked for. -/
theorem credential_notices (key : Key) (s : Session σ) :
    ((credential key).run store s).notices
      = if s.cache.contains key then [hitNotice key]
        else missNotice key :: (store key s.store).1.notices := by
  unfold credential Cache.contains
  cases h : s.cache.usable? key <;> simp [Walk.run, h]

/-- What is told when an answer is rendered. -/
theorem renderAnswer_notices (handle : Handle) (answer : Except Failure String) (s : Session σ) :
    ((renderAnswer handle answer).run store s).notices
      = if (answer.bind (render handle)).isOk then [resolvedNotice handle] else [] := by
  cases answer with
  | error e => rfl
  | ok secret => cases h : render handle secret <;> simp [renderAnswer, Walk.run, h, Except.bind,
      Except.isOk, Except.toBool]

/-- **What is told of a handle** depends on whether it has a value, and on what is told when its key
    is asked for. -/
theorem resolve_notices {raw : String} {handle : Handle} (h : Handle.parse raw = .ok handle)
    (s : Session σ) :
    ((resolve raw).run store s).notices = ((credential handle.key).run store s).notices
      ++ if ((resolve raw).run store s).result.isOk then [resolvedNotice handle] else [] := by
  have hwalk : resolve raw = (credential handle.key).bind (renderAnswer handle) := by
    rw [resolve_eq, h]
  rw [hwalk, Walk.run_bind]
  simp only [renderAnswer_notices, (renderAnswer_run handle _ _).1]

end Notices

/-! ### What policies and reports show -/

/-- A policy looks at the first handle. -/
theorem Policy.head_mem_visited (policy : Policy) (raw : String) (raws : List String)
    (outcome : Except Failure String) (outcomes : List (Except Failure String)) :
    raw ∈ policy.visited (raw :: raws) (outcome :: outcomes) := by
  cases policy with
  | marker => exact List.mem_cons_self
  | abort => cases outcome <;> exact List.mem_cons_self

/-- It looks at the others if the first one has a value or gets a marker. -/
theorem Policy.visited_subset {policy : Policy} {outcome : Except Failure String}
    (h : policy = .marker ∨ outcome.isOk = true) (raw : String) (raws : List String)
    (outcomes : List (Except Failure String)) :
    policy.visited raws outcomes ⊆ policy.visited (raw :: raws) (outcome :: outcomes) := by
  intro raw' hraw'
  cases policy with
  | marker => exact List.mem_cons_of_mem raw hraw'
  | abort =>
    cases outcome with
    | ok text => exact List.mem_cons_of_mem raw hraw'
    | error e => exact absurd h (by simp [Except.isOk, Except.toBool])

/-- What is told of a report: how many placeholders have a value, and why the others have none. -/
def Report.summary (r : Report) : Nat × List (String × Failure) := (r.resolved, r.failures)

/-! ### Twins -/

/-- Two sessions that differ only in secrets, over the store on two machines. -/
structure Twins (c : StoreCommand) (m m' : Machine) (s s' : Session Machine) : Prop where
  /-- The caches are the same, but for the secrets. -/
  cache : s.cache.masked = s'.cache.masked
  /-- The same was run on the machines. -/
  calls : ∃ calls, s.store = { m with calls } ∧ s'.store = { m' with calls }
  /-- The first cache gives out what the first machine answers, -/
  honest : s.Honest c.store (c.answers m)
  /-- and the other one what the other machine answers. -/
  honest' : s'.Honest c.store (c.answers m')

namespace Twins

variable {c : StoreCommand} {m m' : Machine} {s s' : Session Machine}

/-- Empty caches are twins. -/
theorem start (c : StoreCommand) (m m' : Machine) (keepEmpty : Bool) (h : m.calls = m'.calls) :
    Twins c m m' ⟨.empty keepEmpty, m⟩ ⟨.empty keepEmpty, m'⟩ where
  cache := rfl
  calls := ⟨m.calls, rfl, by rw [h]⟩
  honest := ⟨c.constant m m.calls, Cache.answer_empty keepEmpty⟩
  honest' := ⟨c.constant m' m'.calls, Cache.answer_empty keepEmpty⟩

/-- What was fetched is held by both, or by none; it is empty in both, or in none. -/
theorem masked_finish {d d' : Cache} {key : Key} {o o' : Except Failure String}
    (h : d.masked = d'.masked) (hfate : fate o = fate o')
    (hempty : trimmed o = .ok "" ↔ trimmed o' = .ok "") :
    (d.finish key o).1.masked = (d'.finish key o').1.masked := by
  cases o with
  | error e =>
    obtain rfl : o' = .error e := fate_eq_error.1 hfate.symm
    exact h
  | ok text =>
    cases o' with
    | error e' => cases hfate
    | ok text' =>
      have hmasked : masked (Text.trim text) = masked (Text.trim text') := by
        simp only [trimmed_ok, Except.ok.injEq] at hempty
        simp only [masked, hempty]
      rw [Cache.finish_ok, Cache.finish_ok, Cache.masked_insert, Cache.masked_insert, h, hmasked]

/-- **To ask for a secret** leaves twins and tells the same, if what is fetched differs in
    nothing but the secret. -/
theorem credential (h : Twins c m m' s s') (hmuted : m.muted = m'.muted) {key : Key}
    (hfate : fate (c.answers m key) = fate (c.answers m' key))
    (hempty : trimmed (c.answers m key) = .ok "" ↔ trimmed (c.answers m' key) = .ok "") :
    let o := (SecretFill.credential key).run c.store s
    let o' := (SecretFill.credential key).run c.store s'
    Twins c m m' o.session o'.session ∧ o.notices = o'.notices := by
  intro o o'
  have hcontains : s.cache.contains key = s'.cache.contains key := by
    rw [← Cache.contains_masked, h.cache, Cache.contains_masked]
  obtain ⟨calls, hstore, hstore'⟩ := h.calls
  have honest := h.honest.of_run (SecretFill.credential key)
  have honest' := h.honest'.of_run (SecretFill.credential key)
  have hsession : o.session = _ := credential_session key s
  have hsession' : o'.session = _ := credential_session key s'
  have hnotices : o.notices = _ := credential_notices key s
  have hnotices' : o'.notices = _ := credential_notices key s'
  -- Both caches have the key or neither, so both fetch or neither does.
  cases hhit : s.cache.contains key with
  | true =>
    rw [hhit, if_pos rfl] at hsession hnotices
    rw [← hcontains, hhit, if_pos rfl] at hsession' hnotices'
    rw [hsession, hsession', hnotices, hnotices']
    exact ⟨h, rfl⟩
  | false =>
    rw [hhit, if_neg (by simp)] at hsession hnotices
    rw [← hcontains, hhit, if_neg (by simp)] at hsession' hnotices'
    refine ⟨⟨?_, ?_, honest, honest'⟩, ?_⟩
    · rw [hsession, hsession']
      simp only [Session.fetched, hstore, hstore', c.reply_calls]
      exact masked_finish (congrArg Cache.countFetch h.cache) hfate hempty
    · rw [hsession, hsession']
      simp only [Session.fetched, hstore, hstore', c.store_calls, c.canRun_eq hmuted key]
      cases c.canRun m' key with
      | true => exact ⟨calls ++ [Lpass.showArguments key], rfl, rfl⟩
      | false => exact ⟨calls, rfl, rfl⟩
    · rw [hnotices, hnotices', hstore, hstore', c.reply_calls m calls, c.reply_calls m' calls,
        c.notices_eq hmuted key]

/-- **To resolve a handle** that has the same fate on both machines leaves twins and tells the
    same. -/
theorem resolve (h : Twins c m m' s s') (hmuted : m.muted = m'.muted) {raw : String}
    (hfate : fate (Reference.resolve (c.answers m) raw)
      = fate (Reference.resolve (c.answers m') raw))
    (hempty : ∀ handle, Handle.parse raw = .ok handle →
      (trimmed (c.answers m handle.key) = .ok "" ↔ trimmed (c.answers m' handle.key) = .ok "")) :
    let o := (SecretFill.resolve raw).run c.store s
    let o' := (SecretFill.resolve raw).run c.store s'
    Twins c m m' o.session o'.session ∧ o.notices = o'.notices ∧
      fate o.result = fate o'.result := by
  intro o o'
  have hresult : fate o.result = fate o'.result := by
    rw [h.honest.resolve_result, h.honest'.resolve_result, hfate]
  cases hparse : Handle.parse raw with
  | error e =>
    have hwalk : SecretFill.resolve raw = .done (.error e) := by
      rw [resolve_eq, hparse]
    have ho : o = ⟨.error e, s, []⟩ := congrArg (Walk.run c.store · s) hwalk
    have ho' : o' = ⟨.error e, s', []⟩ := congrArg (Walk.run c.store · s') hwalk
    rw [ho, ho']
    exact ⟨h, rfl, rfl⟩
  | ok handle =>
    obtain ⟨htwins, hnotices⟩ :=
      h.credential hmuted (fate_answers hparse hfate) (hempty handle hparse)
    have hok : o.result.isOk = o'.result.isOk := by
      rw [← isOk_fate, hresult, isOk_fate]
    refine ⟨?_, ?_, hresult⟩
    · have hsession : o.session = _ := resolve_session raw s
      have hsession' : o'.session = _ := resolve_session raw s'
      rw [hparse] at hsession hsession'
      rw [hsession, hsession']
      exact htwins
    · have ho : o.notices = _ := resolve_notices hparse s
      have ho' : o'.notices = _ := resolve_notices hparse s'
      rw [ho, ho', hnotices]
      exact congrArg (fun ok => _ ++ if ok = true then [resolvedNotice handle] else []) hok

/-- **To fill a row of segments** whose handles have the same fates leaves twins and tells the same,
    and so does its report, whatever its output is. -/
theorem fill (h : Twins c m m' s s') (hmuted : m.muted = m'.muted) (policy : Policy)
    {row : List Segment} {r r' : Report} (hr : r.summary = r'.summary)
    (hfates : ∀ raw ∈ handlesOf row, fate (Reference.resolve (c.answers m) raw)
      = fate (Reference.resolve (c.answers m') raw))
    (hempty : ∀ raw ∈ policy.visited (handlesOf row)
        ((handlesOf row).map (Reference.resolve (c.answers m))),
      ∀ handle, Handle.parse raw = .ok handle →
        (trimmed (c.answers m handle.key) = .ok "" ↔ trimmed (c.answers m' handle.key) = .ok "")) :
    let o := (SecretFill.fill policy row r).run c.store s
    let o' := (SecretFill.fill policy row r').run c.store s'
    Twins c m m' o.session o'.session ∧ o.notices = o'.notices ∧
      o.result.map Report.summary = o'.result.map Report.summary := by
  induction row generalizing s s' r r' with
  | nil => exact ⟨h, rfl, congrArg Except.ok hr⟩
  | cons segment rest ih =>
    cases segment with
    | literal char => exact ih h hr hfates hempty
    | placeholder raw =>
      simp only [handlesOf, List.map_cons] at hfates hempty
      have hfate := hfates _ List.mem_cons_self
      obtain ⟨htwins, hnotices, -⟩ := h.resolve hmuted hfate
        (hempty _ (policy.head_mem_visited _ _ _ _))
      have hothers : ∀ raw' ∈ handlesOf rest, _ := fun raw' hraw' =>
        hfates raw' (List.mem_cons_of_mem _ hraw')
      have hgoesOn := fun hnext raw' hraw' =>
        hempty raw' (Policy.visited_subset hnext _ _ _ hraw')
      simp only [SecretFill.fill, Walk.run_bind, hnotices, h.honest.resolve_result,
        h.honest'.resolve_result]
      -- The handle is filled in on both machines or fails on both, so both go on or both stop.
      cases hm : Reference.resolve (c.answers m) (String.ofList raw) with
      | ok text =>
        obtain ⟨text', hm'⟩ : ∃ text', Reference.resolve (c.answers m') (String.ofList raw)
            = .ok text' := by
          rw [hm] at hfate
          exact fate_eq_ok.1 hfate.symm
        have hvalue : (r.value text).summary = (r'.value text').summary := by
          simp only [Report.summary, Prod.mk.injEq] at hr ⊢
          exact ⟨congrArg (· + 1) hr.1, hr.2⟩
        obtain ⟨hend, htold, hsummary⟩ := ih htwins hvalue hothers
          (hgoesOn (.inr (congrArg Except.isOk hm)))
        rw [hm']
        exact ⟨hend, congrArg (_ ++ ·) htold, hsummary⟩
      | error e =>
        have hm' : Reference.resolve (c.answers m') (String.ofList raw) = .error e := by
          rw [hm] at hfate
          exact fate_eq_error.1 hfate.symm
        rw [hm']
        cases policy with
        | abort => exact ⟨htwins, rfl, rfl⟩
        | marker =>
          have hfailure : (r.failure (String.ofList raw) e).summary
              = (r'.failure (String.ofList raw) e).summary := by
            simp only [Report.summary, Prod.mk.injEq] at hr ⊢
            exact ⟨hr.1, congrArg (· ++ [(String.ofList raw, e)]) hr.2⟩
          obtain ⟨hend, htold, hsummary⟩ := ih htwins hfailure hothers (hgoesOn (.inl rfl))
          exact ⟨hend, congrArg (fun notices => _ ++ leavingNotice _ e :: notices) htold, hsummary⟩

end Twins

/-- **To fill a document** that has the same fate on both machines, from empty caches, leaves
    twins and tells the same, and so does its report, whatever its output is. -/
theorem report_twins {c : StoreCommand} {m m' : Machine} {policy : Policy} {document : String}
    (h : SameFates c policy document m m') (hmuted : m.muted = m'.muted) (keepEmpty : Bool) :
    let o := (report policy document).run c.store ⟨.empty keepEmpty, m⟩
    let o' := (report policy document).run c.store ⟨.empty keepEmpty, m'⟩
    Twins c m m' o.session o'.session ∧ o.notices = o'.notices ∧
      o.result.map Report.summary = o'.result.map Report.summary := by
  have hcalls : m.muted.calls = m'.muted.calls := by rw [hmuted]
  have hfates : ∀ raw ∈ handlesOf (segments document.toList),
      fate (Reference.resolve (c.answers m) raw)
        = fate (Reference.resolve (c.answers m') raw) := by
    intro raw hraw
    rw [handlesOf_segments] at hraw
    obtain ⟨p, hp, rfl⟩ := List.mem_map.1 hraw
    exact h.fate p hp
  have hempty := h.empty
  simp only [← handlesOf_segments] at hempty
  obtain ⟨hend, hnotices, hsummary⟩ := (Twins.start c m m' keepEmpty hcalls).fill hmuted policy
    (rfl : Report.empty.summary = Report.empty.summary) hfates hempty
  exact ⟨hend, congrArg (foundNotice _ :: ·) hnotices, hsummary⟩

end SecretFill
