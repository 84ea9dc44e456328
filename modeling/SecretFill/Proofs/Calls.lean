import Mathlib
import SecretFill.Lpass.Store
import SecretFill.Proofs.Fetches
import SecretFill.Proofs.Jobs
import SecretFill.Store.Memory

namespace SecretFill

/-!
# The calls that filling a document makes

A tour of handles needs to know of a cache only for which keys it has a usable secret.  It calls the
store for the key of a handle that is not among them, and the key joins them if the call gives a
usable secret.

* `Tour.visits` — a tour of handles with the calls that it makes.
* `Tour.Follows.visits` — resolving handles makes the calls of their tour.
* `Lpass.showArguments_injective` — two keys never have the same arguments.
* `Lpass.StoreCommand.calls_run` — over a store command, the calls run it with their arguments.
* `report_calls` — filling a document makes the calls of the tour of the handles that are visited.
-/

variable {α σ : Type} {store : Store σ}

/-! ### Tours -/

/-- The keys that have a usable secret. -/
def Cache.usableKeys (c : Cache) : Finset Key :=
  ((c.secrets.map (·.1)).filter fun key => c.contains key).toFinset

theorem Cache.mem_usableKeys {c : Cache} {key : Key} :
    key ∈ c.usableKeys ↔ c.contains key = true := by
  simp only [usableKeys, List.mem_toFinset, List.mem_filter, and_iff_right_iff_imp]
  intro h
  obtain ⟨secret, hsecret⟩ := Option.isSome_iff_exists.1 h
  obtain ⟨before, after, hsplit, -⟩ :=
    List.lookup_eq_some_iff.1 (usable?_eq_some_iff.1 hsecret).1
  rw [hsplit]
  simp

/-- Whether a fetch with this outcome leaves a usable secret: a text does, be it empty only if empty
    secrets count; the white space around it does not. -/
def leavesUsable (keepEmpty : Bool) : Except Failure String → Bool
  | .ok text => keepEmpty || !(Text.trim text).isEmpty
  | .error _ => false

/-- How far a tour of handles is. -/
structure Tour (σ : Type) where
  /-- The keys that have a usable secret. -/
  usable : Finset Key
  /-- The state of the store. -/
  store : σ
  /-- The calls so far, in order. -/
  calls : List Key

namespace Tour

/-- A tour that begins. -/
def start (s : Session σ) : Tour σ := ⟨s.cache.usableKeys, s.store, []⟩

/-- The next handle of a tour.  A malformed one changes nothing, nor does one whose key has a usable
    secret; any other makes a call. -/
def visit (store : Store σ) (keepEmpty : Bool) (t : Tour σ) (raw : String) : Tour σ :=
  match Handle.parse raw with
  | .error _ => t
  | .ok handle =>
    if handle.key ∈ t.usable then t
    else
      let (reply, state) := store handle.key t.store
      { usable :=
          if leavesUsable keepEmpty reply.outcome then insert handle.key t.usable else t.usable
        store := state
        calls := t.calls ++ [handle.key] }

/-- A tour of handles. -/
def visits (store : Store σ) (keepEmpty : Bool) (t : Tour σ) (raws : List String) : Tour σ :=
  raws.foldl (visit store keepEmpty) t

/-- A tour is where a session is. -/
structure Follows (t : Tour σ) (s : Session (σ × List Key)) : Prop where
  /-- The same keys have usable secrets. -/
  usable : ∀ key, key ∈ t.usable ↔ s.cache.contains key = true
  /-- The store is in the same state. -/
  store : t.store = s.store.1
  /-- The same calls were made. -/
  calls : t.calls = s.calls

end Tour

/-- After a fetch a key has a usable secret iff the outcome leaves one. -/
theorem Cache.contains_finish_self {c : Cache} {key : Key} {outcome : Except Failure String}
    (h : c.contains key = false) :
    (c.finish key outcome).1.contains key = leavesUsable c.keepEmpty outcome := by
  cases outcome with
  | error e => exact h
  | ok text =>
    have husable : (c.insert key (Text.trim text)).usable? key
        = if leavesUsable c.keepEmpty (.ok text) then some (Text.trim text) else none := by
      unfold usable?
      rw [held?_insert_self]
      rfl
    rw [contains, finish_ok, husable]
    cases leavesUsable c.keepEmpty (.ok text) <;> rfl

/-- A fetch of another key makes no difference. -/
theorem Cache.contains_finish_of_ne {c : Cache} {key other : Key}
    {outcome : Except Failure String} (h : other ≠ key) :
    (c.finish key outcome).1.contains other = c.contains other := by
  unfold contains
  rw [usable?_finish_of_ne h]

namespace Tour.Follows

variable {t : Tour σ} {s : Session (σ × List Key)}

theorem start (s : Session σ) : (Tour.start s).Follows s.recording where
  usable _ := Cache.mem_usableKeys
  store := rfl
  calls := rfl

/-- The keys with a usable secret are those of the cache. -/
theorem usableKeys_eq (h : t.Follows s) : s.cache.usableKeys = t.usable := by
  ext key
  rw [Cache.mem_usableKeys, h.usable]

/-- **One handle.**  Resolving it makes the call of its visit. -/
theorem visit (store : Store σ) (h : t.Follows s) (raw : String) :
    (t.visit store s.cache.keepEmpty raw).Follows
      ((resolve raw).run store.recorded s).session := by
  rw [resolve_session]
  unfold Tour.visit
  cases Handle.parse raw with
  | error e => exact h
  | ok handle =>
    simp only [credential_session]
    by_cases hu : s.cache.contains handle.key = true
    · rw [if_pos ((h.usable _).2 hu), if_pos hu]
      exact h
    · have hmem : handle.key ∉ t.usable := fun hmem => hu ((h.usable _).1 hmem)
      rw [if_neg hmem, if_neg hu]
      refine ⟨fun key => ?_, ?_, ?_⟩
      · simp only [Session.fetched, Store.recorded, ← h.store]
        generalize (store handle.key t.store).1.outcome = outcome
        by_cases hk : key = handle.key
        · subst hk
          rw [Cache.contains_finish_self (c := s.cache.countFetch) (Bool.eq_false_iff.2 hu)]
          show _ ↔ leavesUsable s.cache.keepEmpty outcome = true
          cases leavesUsable s.cache.keepEmpty outcome <;> simp [hmem]
        · rw [Cache.contains_finish_of_ne hk]
          show _ ↔ s.cache.contains key = true
          rw [← h.usable key]
          cases leavesUsable s.cache.keepEmpty outcome <;> simp [hk]
      · exact congrArg (fun state => (store handle.key state).2) h.store
      · rw [Session.calls_fetched, ← h.calls]

/-- **A row of handles.**  Resolving them makes the calls of their tour. -/
theorem visits (h : t.Follows s) (raws : List String) :
    (t.visits store s.cache.keepEmpty raws).Follows
      (Walk.runAll store.recorded (raws.map resolve) s).2 := by
  induction raws generalizing t s with
  | nil => exact h
  | cons raw raws ih =>
    have hkeep : ((resolve raw).run store.recorded s).session.cache.keepEmpty
        = s.cache.keepEmpty :=
      (resolve raw).run_induct (P := fun t => t.cache.keepEmpty = s.cache.keepEmpty)
        (fun t key _ ht => (Cache.keepEmpty_finish).trans ht) s rfl
    have hrest := ih (h.visit store raw)
    rw [hkeep] at hrest
    exact hrest

end Tour.Follows

/-! ### Calls of a program -/

namespace Machine

/-- A program that is run is noted with its arguments, whatever was run before. -/
theorem launch_calls (m : Machine) (calls : List (List String)) (name : String)
    (arguments : List String) :
    ({ m with calls } : Machine).launch name arguments
      = ((m.launch name arguments).1,
        if (m.launch name arguments).1.isOk then { m with calls := calls ++ [arguments] }
        else { m with calls }) := by
  have hprogram : ∀ path, ({ m with calls } : Machine).programAt path = m.programAt path :=
    fun _ => rfl
  have hexecutable : ({ m with calls } : Machine).executable name = m.executable name :=
    executable_congr hprogram rfl name
  unfold launch
  rw [hexecutable]
  split
  · rfl
  · cases m.executable name <;> rfl

end Machine

/-! ### Calls of a store command -/

namespace Lpass

/-- The field that a flag selects. -/
def flagField (flag : String) : String :=
  if flag = "--password" then "Password"
  else if flag = "--username" then "Username"
  else if flag = "--url" then "URL"
  else if flag = "--notes" then "Notes"
  else String.ofList (flag.toList.drop "--field=".length)

/-- A field is selected by its flag. -/
theorem flagField_fieldFlag : Function.LeftInverse flagField fieldFlag := by
  intro field
  unfold fieldFlag
  split_ifs with hpassword husername hurl hnotes
  · exact hpassword.symm
  · exact husername.symm
  · exact hurl.symm
  · exact hnotes.symm
  · have hflag : s!"--field={field}".toList = "--field=".toList ++ field.toList :=
      String.toList_append
    -- The four other flags begin in another way than that of a custom field.
    have hne : ∀ flag : String, ¬ "--field=".toList <+: flag.toList →
        s!"--field={field}" ≠ flag := by
      rintro _ h rfl
      exact h (hflag ▸ List.prefix_append _ _)
    unfold flagField
    rw [if_neg (hne _ (by decide)), if_neg (hne _ (by decide)), if_neg (hne _ (by decide)),
      if_neg (hne _ (by decide)), hflag, List.drop_left' (by rfl), String.ofList_toList]

/-- **Two keys never have the same arguments.** -/
theorem showArguments_injective : Function.Injective showArguments := by
  rintro ⟨entry, field⟩ ⟨entry', field'⟩ h
  simp only [showArguments, List.cons.injEq, true_and, and_true] at h
  rw [flagField_fieldFlag.injective h.1, h.2]

namespace StoreCommand

/-- Whether a machine has the command and can give it the arguments for a key. -/
def canRun (c : StoreCommand) (m : Machine) (key : Key) : Bool :=
  (m.launch c.name (showArguments key)).1.isOk

/-- A call notes the arguments for its key, if the command can be run. -/
theorem store_calls (c : StoreCommand) (m : Machine) (calls : List (List String)) (key : Key) :
    (c.store key { m with calls }).2
      = if c.canRun m key then { m with calls := calls ++ [showArguments key] }
        else { m with calls } :=
  congrArg Prod.snd (m.launch_calls calls c.name (showArguments key))

/-- **The calls run the command.**  A walk over a store command changes nothing of the machine but
    what was run on it: the command, once for each call for which it can be run, with the arguments
    for its key. -/
theorem calls_run (c : StoreCommand) (m : Machine) (cache : Cache) (w : Walk α) :
    let s := (w.run c.store.recorded (Session.recording ⟨cache, m⟩)).session
    s.store.1
      = { m with calls := m.calls ++ (s.calls.filter (c.canRun m)).map showArguments } := by
  refine w.run_induct (P := fun s : Session (Machine × List Key) => s.store.1
    = { m with calls := m.calls ++ (s.calls.filter (c.canRun m)).map showArguments })
    (fun s key _ h => ?_) _ ?_
  · have hcall : (s.fetched c.store.recorded key).store.1 = (c.store key s.store.1).2 := rfl
    rw [hcall, h, store_calls, Session.calls_fetched, List.filter_append, List.map_append]
    cases hrun : c.canRun m key with
    | true =>
      rw [if_pos rfl, List.filter_cons_of_pos hrun, List.append_assoc]
      rfl
    | false =>
      rw [if_neg (by simp), List.filter_cons_of_neg (by simp [hrun]), List.filter_nil, List.map_nil,
        List.append_nil]
  · show m = _
    rw [Session.calls_recording, List.filter_nil, List.map_nil, List.append_nil]

end StoreCommand

end Lpass

/-! ### Calls of a document -/

/-- **The calls that filling a document makes** are those of the tour of the handles that are
    visited: with markers all of them, and to give up those up to the first one that has no value,
    for whatever reason.  Also the store, the keys with usable secrets and the count of fetches are
    then as the tour says.  A malformed handle leaves everything as it is.

    Over a store command each call runs `show FLAG ENTRY`, if the command can be run at all, and the
    arguments of two keys are never the same. -/
theorem report_calls (store : Store σ) (policy : Policy) (document : String) (s : Session σ) :
    (let handles := (Placeholder.find document).map (·.handle)
      let outcomes := (Walk.runAll store.recorded (handles.map resolve) s.recording).1
      let tour := (Tour.start s).visits store s.cache.keepEmpty (policy.visited handles outcomes)
      let filled := ((report policy document).run store.recorded s.recording).session
      filled.calls = tour.calls ∧ filled.store.1 = tour.store ∧
        filled.cache.usableKeys = tour.usable ∧
        filled.cache.fetches = s.cache.fetches + tour.calls.length) ∧
    (∀ raw e, Handle.parse raw = .error e →
      ∀ t : Session σ, ((resolve raw).run store t).session = t) ∧
    (∀ (c : Lpass.StoreCommand) (m : Machine) (cache : Cache),
      let filled := ((report policy document).run c.store.recorded
        (Session.recording ⟨cache, m⟩)).session
      filled.store.1.calls = m.calls ++ (filled.calls.filter (c.canRun m)).map fun key =>
        ["show", Lpass.fieldFlag key.field, key.entry]) ∧
    Function.Injective fun key : Key => ["show", Lpass.fieldFlag key.field, key.entry] := by
  refine ⟨?_, fun raw e hraw t => ?_, fun c m cache => ?_, Lpass.showArguments_injective⟩
  · intro handles outcomes tour filled
    have hfilled : filled
        = (Walk.runAll store.recorded ((policy.visited handles outcomes).map resolve)
          s.recording).2 := (report_run _ policy document s.recording).2
    have hfollows : tour.Follows filled := by
      rw [hfilled]
      exact (Tour.Follows.start s).visits _
    have hfetches : filled.cache.fetches + 0 = s.cache.fetches + filled.calls.length := by
      rw [hfilled]
      exact Walk.fetches_runAll _ s.recording
    refine ⟨hfollows.calls.symm, hfollows.store.symm, hfollows.usableKeys_eq, ?_⟩
    rw [hfollows.calls]
    exact hfetches
  · rw [resolve_session, hraw]
  · exact congrArg Machine.calls (c.calls_run m cache (report policy document))

/-- A store that is busy at first: the key is called again for the third placeholder, and no more
    for the fourth; the malformed second one calls for nothing. -/
theorem report_calls_busy :
    let store : Store Nat := fun _ n =>
      (⟨if n = 0 then .error (.other "busy") else .ok " pw ", 0, []⟩, n + 1)
    let s : Session Nat := ⟨.empty true, 0⟩
    ((report .marker "((a/b))((x))((a/b))((a/b))").run store.recorded
        s.recording).session.calls = [⟨"a", "b"⟩, ⟨"a", "b"⟩] ∧
      ((resolve "x").run store s).session = s := by
  intro store s
  obtain ⟨⟨hcalls, -⟩, hmalformed, -⟩ := report_calls store .marker "((a/b))((x))((a/b))((a/b))" s
  have hsegments : segments "((a/b))((x))((a/b))((a/b))".toList
      = [.placeholder "a/b".toList, .placeholder "x".toList, .placeholder "a/b".toList,
        .placeholder "a/b".toList] := by cbv
  refine ⟨hcalls.trans ?_, hmalformed "x" (.malformedHandle "x" HandleFault.tooFew.message) rfl s⟩
  rw [← handlesOf_segments, hsegments]
  decide

end SecretFill
