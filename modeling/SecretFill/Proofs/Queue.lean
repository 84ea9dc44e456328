import SecretFill.Proofs.Polling
import SecretFill.Proofs.SingleFlight
import SecretFill.Proofs.Visits

namespace SecretFill

/-!
# Requests in the order in which they came

Requests that are made side by side stand in line in the order in which they came.  For each key
those that were answered, and behind them those still in line, are the requests that came so far.

* `Batch.visitOf` — the visit that a request makes.
* `Batch.served` — the book after the visits of some requests.
* `Queue` — what holds between the polls of a schedule of requests.
* `Queue.hit`, `Queue.enter`, `Queue.join`, `Queue.begin`, `Queue.finish` — what each step of a
  request keeps.
-/

namespace Batch

variable {requests : List Batch.Request} {cache : Cache} {i : Nat} {key : Key}

/-- The visit that a request makes. -/
def visitOf (requests : List Batch.Request) (i : Nat) : Visit Nat :=
  match requests[i]? with
  | some r => ⟨i, r.key, r.outcome⟩
  | none => ⟨i, ⟨"", ""⟩, .error (.other "")⟩

theorem visitOf_eq {r : Batch.Request} (h : requests[i]? = some r) :
    visitOf requests i = ⟨i, r.key, r.outcome⟩ := by
  simp only [visitOf, h]

@[simp] theorem tag_visitOf : (visitOf requests i).tag = i := by
  unfold visitOf
  split <;> rfl

/-- Those among some requests that are for a key. -/
def callers (requests : List Batch.Request) (key : Key) (served : List Nat) : List Nat :=
  served.filter fun i => (visitOf requests i).key = key

theorem callers_append (served more : List Nat) :
    callers requests key (served ++ more)
      = callers requests key served ++ callers requests key more :=
  List.filter_append ..

theorem callers_self : callers requests (visitOf requests i).key [i] = [i] := by
  simp [callers]

theorem callers_of_ne (h : key ≠ (visitOf requests i).key) : callers requests key [i] = [] := by
  simp [callers, Ne.symm h]

/-- The book after the visits of some requests. -/
def served (requests : List Batch.Request) (cache : Cache) (order : List Nat) : Book Nat :=
  (Book.mk cache [] []).visits (order.map (visitOf requests))

theorem served_snoc (order : List Nat) : served requests cache (order ++ [i])
    = (served requests cache order).visit (visitOf requests i) := by
  unfold served
  rw [List.map_append, Book.visits_append]
  rfl

theorem keepEmpty_served (order : List Nat) :
    (served requests cache order).cache.keepEmpty = cache.keepEmpty :=
  Book.keepEmpty_visits _

/-- Requests that come in the same order for each key leave books that cannot be told apart. -/
theorem served_alike {order order' : List Nat}
    (h : ∀ key, callers requests key order = callers requests key order') :
    (served requests cache order).Alike (served requests cache order') := by
  refine Book.visits_alike fun key => ?_
  rw [List.filter_map, List.filter_map]
  exact congrArg (List.map (visitOf requests)) (h key)

end Batch

/-! ### What holds between two polls -/

/-- How many fetches of a walk are in flight. -/
def Status.flights {α : Type} : Status α → Nat
  | fetching .. => 1
  | _ => 0

/-- How many fetches of walk `i` are in flight. -/
def flightsAt {α : Type} (statuses : List (Status α)) (i : Nat) : Nat :=
  match statuses[i]? with
  | some s => s.flights
  | none => 0

/-- How the status of a request fits the visits so far, when the first `m` requests have come. -/
def Stands (requests : List Batch.Request) (b : Book Nat) (m i : Nat) :
    Status (Except Failure String) → Prop
  | .ready walk => m ≤ i ∧ walk = credential (Batch.visitOf requests i).key
  | .inLine key resume => i < m ∧ key = (Batch.visitOf requests i).key ∧ resume = .done
  | .fetching key _ outcome resume => i < m ∧ key = (Batch.visitOf requests i).key ∧
    outcome = (Batch.visitOf requests i).outcome ∧ resume = .done
  | .finished answer => i < m ∧ (i, answer) ∈ b.answers

/-- The first `m` requests have come.  Some were answered, as if they had visited the cache in this
    order; for each key the others stand behind them, in the order in which they came. -/
structure Queue (requests : List Batch.Request) (cache : Cache) (m : Nat) (order : List Nat)
    (statuses : List (Status (Except Failure String))) (w : World (List Nat)) : Prop where
  /-- The lines are in order. -/
  orderly : (Schedule.floor statuses w).Orderly
  /-- There is a status for each request. -/
  length : statuses.length = requests.length
  /-- It fits the request. -/
  stands : ∀ i s, statuses[i]? = some s →
    Stands requests (Batch.served requests cache order) m i s
  /-- For each key the requests were answered in the order in which they came. -/
  lines : ∀ key, Batch.callers requests key order ++ w.desk.line key
    = Batch.callers requests key (List.range m)
  /-- The visits lead to the secrets of the cache. -/
  secrets : w.desk.cache.secrets = (Batch.served requests cache order).cache.secrets
  /-- The same secrets count as cached. -/
  keepEmpty : w.desk.cache.keepEmpty = cache.keepEmpty
  /-- The visits fetch what was fetched, up to the fetches in flight. -/
  fetched : ∀ i, w.store.count i
    = flightsAt statuses i + (Batch.served requests cache order).fetched.count i
  /-- The fetches are counted. -/
  fetches : w.desk.cache.fetches = cache.fetches + w.store.length

namespace Queue

variable {requests : List Batch.Request} {cache : Cache} {m m' i : Nat} {order order' : List Nat}
  {statuses : List (Status (Except Failure String))} {w w' : World (List Nat)}
  {old new : Status (Except Failure String)} {key : Key}

/-- What is usable is usable after the visits. -/
theorem usable? (h : Queue requests cache m order statuses w) (key : Key) :
    (Batch.served requests cache order).cache.usable? key = w.desk.cache.usable? key :=
  Cache.usable?_congr h.secrets.symm ((Batch.keepEmpty_served order).trans h.keepEmpty.symm)

/-- When one request gets another status, only its own part has to be looked at. -/
theorem put (h : Queue requests cache m order statuses w) (at_ : statuses[i]? = some old)
    (horderly : (Schedule.floor (statuses.set i new) w').Orderly)
    (hcame : m ≤ m' ∧ ∀ j, j ≠ i → m ≤ j → m' ≤ j)
    (hanswers : (Batch.served requests cache order).answers
      ⊆ (Batch.served requests cache order').answers)
    (hnew : Stands requests (Batch.served requests cache order') m' i new)
    (hlines : ∀ key, Batch.callers requests key order' ++ w'.desk.line key
      = Batch.callers requests key (List.range m'))
    (hsecrets : w'.desk.cache.secrets = (Batch.served requests cache order').cache.secrets)
    (hkeep : w'.desk.cache.keepEmpty = w.desk.cache.keepEmpty)
    (hfetched : ∀ j, w'.store.count j + (if j = i then old.flights else 0)
        + (Batch.served requests cache order).fetched.count j
      = w.store.count j + (if j = i then new.flights else 0)
        + (Batch.served requests cache order').fetched.count j)
    (hfetches : w'.desk.cache.fetches + w.store.length
      = w.desk.cache.fetches + w'.store.length) :
    Queue requests cache m' order' (statuses.set i new) w' where
  orderly := horderly
  length := by rw [List.length_set, h.length]
  stands j s hat := by
    by_cases hj : j = i
    · subst hj
      obtain ⟨hlt, hset⟩ := List.getElem?_eq_some_iff.1 hat
      rw [List.getElem_set_self] at hset
      exact hset ▸ hnew
    · rw [List.getElem?_set_ne (Ne.symm hj)] at hat
      have hbefore := h.stands j s hat
      obtain ⟨hle, hother⟩ := hcame
      cases s with
      | ready walk => exact ⟨hother j hj hbefore.1, hbefore.2⟩
      | inLine key resume => exact ⟨Nat.lt_of_lt_of_le hbefore.1 hle, hbefore.2⟩
      | fetching key due outcome resume => exact ⟨Nat.lt_of_lt_of_le hbefore.1 hle, hbefore.2⟩
      | finished answer => exact ⟨Nat.lt_of_lt_of_le hbefore.1 hle, hanswers hbefore.2⟩
  lines := hlines
  secrets := hsecrets
  keepEmpty := hkeep.trans h.keepEmpty
  fetched j := by
    have hbefore := h.fetched j
    have hstep := hfetched j
    -- No fetch but that of this request may have begun or ended.
    have hflights : flightsAt (statuses.set i new) j + (if j = i then old.flights else 0)
        = flightsAt statuses j + (if j = i then new.flights else 0) := by
      unfold flightsAt
      by_cases hj : j = i
      · subst hj
        obtain ⟨hlt, -⟩ := List.getElem?_eq_some_iff.1 at_
        rw [List.getElem?_set_self hlt, at_, if_pos rfl, if_pos rfl]
        exact Nat.add_comm ..
      · rw [List.getElem?_set_ne (Ne.symm hj), if_neg hj, if_neg hj]
    omega
  fetches := by
    have hbefore := h.fetches
    omega

/-! ### What a visit adds -/

/-- A visit that finds a usable secret. -/
theorem served_hit {secret : String} (h : Queue requests cache m order statuses w)
    (hu : w.desk.cache.usable? (Batch.visitOf requests i).key = some secret) :
    Batch.served requests cache (order ++ [i])
      = { Batch.served requests cache order with
          answers := (i, .ok secret) :: (Batch.served requests cache order).answers } := by
  rw [Batch.served_snoc, Book.visit_hit ((h.usable? _).trans hu), Batch.tag_visitOf]

/-- A visit that fetches. -/
theorem served_miss (h : Queue requests cache m order statuses w)
    (hu : w.desk.cache.usable? (Batch.visitOf requests i).key = none) :
    Batch.served requests cache (order ++ [i])
      = ⟨((Batch.served requests cache order).cache.countFetch.finish (Batch.visitOf requests i).key
          (Batch.visitOf requests i).outcome).1,
        i :: (Batch.served requests cache order).fetched,
        (i, trimmed (Batch.visitOf requests i).outcome)
          :: (Batch.served requests cache order).answers⟩ := by
  rw [Batch.served_snoc, Book.visit_miss ((h.usable? _).trans hu), Batch.tag_visitOf]

/-- The first in line for a key is answered next. -/
theorem lines_leave (h : Queue requests cache m order statuses w)
    (turn : w.desk.isTurn i (Batch.visitOf requests i).key = true) (key : Key) :
    Batch.callers requests key (order ++ [i])
        ++ (if key = (Batch.visitOf requests i).key
          then (w.desk.line (Batch.visitOf requests i).key).erase i else w.desk.line key)
      = Batch.callers requests key (List.range m) := by
  rw [Batch.callers_append, ← h.lines key]
  by_cases hk : key = (Batch.visitOf requests i).key
  · subst hk
    -- Who has the turn stands right behind those that were answered.
    obtain ⟨rest, hl⟩ : ∃ rest, w.desk.line (Batch.visitOf requests i).key = i :: rest := by
      rw [Desk.isTurn_iff] at turn
      exact List.head?_eq_some_iff.1 turn
    rw [if_pos rfl, Batch.callers_self, hl, List.erase_cons_head, List.append_assoc]
    rfl
  · rw [if_neg hk, Batch.callers_of_ne hk, List.append_nil]

/-- Who comes is the last of its key. -/
theorem callers_succ (key : Key) : Batch.callers requests key (List.range (m + 1))
    = Batch.callers requests key (List.range m) ++ Batch.callers requests key [m] := by
  rw [List.range_succ, Batch.callers_append]

/-! ### The steps of a request -/

/-- A request comes and finds a usable secret, nobody being in line for the key. -/
theorem hit (h : Queue requests cache m order statuses w)
    (at_ : statuses[m]? = some (.ready (credential (Batch.visitOf requests m).key)))
    {secret : String} (hu : w.desk.cache.usable? (Batch.visitOf requests m).key = some secret)
    (hline : w.desk.line (Batch.visitOf requests m).key = []) :
    Queue requests cache (m + 1) (order ++ [m]) (statuses.set m (.finished (.ok secret))) w := by
  have hserved := h.served_hit hu
  refine h.put at_ ?_ ⟨Nat.le_succ m, fun j hj hle => by omega⟩ ?_ ⟨Nat.lt_succ_self m, ?_⟩
    (fun key => ?_) ?_ rfl (fun j => ?_) rfl
  · rw [Schedule.floor_set]
    exact h.orderly.put_outside (Schedule.stage_floor at_ w) rfl rfl
  · rw [hserved]
    exact List.subset_cons_self _ _
  · rw [hserved]
    exact List.mem_cons_self
  · rw [callers_succ, Batch.callers_append, ← h.lines key]
    -- Nobody is in line for the key, so the request comes right behind those that were answered.
    by_cases hk : key = (Batch.visitOf requests m).key
    · rw [hk, hline, List.append_nil, List.append_nil]
    · rw [Batch.callers_of_ne hk, List.append_nil, List.append_nil]
  · rw [hserved]
    exact h.secrets
  · rw [hserved]
    rfl

/-- A request comes and stands in line. -/
theorem enter (h : Queue requests cache m order statuses w)
    (at_ : statuses[m]? = some (.ready (credential (Batch.visitOf requests m).key))) :
    Queue requests cache (m + 1) order
      (statuses.set m (.inLine (Batch.visitOf requests m).key .done))
      { w with desk := w.desk.enter m (Batch.visitOf requests m).key } := by
  refine h.put at_ ?_ ⟨Nat.le_succ m, fun j hj hle => by omega⟩ (List.Subset.refl _)
    ⟨Nat.lt_succ_self m, rfl, rfl⟩ (fun key => ?_) h.secrets rfl (fun j => rfl) rfl
  · rw [Schedule.floor_set]
    exact h.orderly.put_enter (Schedule.stage_floor at_ w) rfl
  · show _ ++ (w.desk.enter m (Batch.visitOf requests m).key).line key = _
    rw [callers_succ, Desk.line_enter, ← h.lines key]
    by_cases hk : key = (Batch.visitOf requests m).key
    · rw [hk, if_pos rfl, Batch.callers_self, List.append_assoc]
    · rw [if_neg hk, Batch.callers_of_ne hk, List.append_nil]

/-- In its turn a request finds a usable secret. -/
theorem join (h : Queue requests cache m order statuses w)
    (at_ : statuses[i]? = some (.inLine (Batch.visitOf requests i).key .done))
    (turn : w.desk.isTurn i (Batch.visitOf requests i).key = true) {secret : String}
    (hu : w.desk.cache.usable? (Batch.visitOf requests i).key = some secret) :
    Queue requests cache m (order ++ [i]) (statuses.set i (.finished (.ok secret)))
      { w with desk := w.desk.leave i (Batch.visitOf requests i).key } := by
  have hserved := h.served_hit hu
  obtain ⟨hcame, -⟩ := h.stands i _ at_
  refine h.put at_ ?_ ⟨Nat.le_refl m, fun j _ hle => hle⟩ ?_ ⟨hcame, ?_⟩
    (h.lines_leave turn) ?_ rfl (fun j => ?_) rfl
  · rw [Schedule.floor_set]
    exact h.orderly.put_leave w.desk.cache (Schedule.stage_floor at_ w) rfl rfl
      fun j k _ hf => (h.orderly.fetcher j k hf).2
  · rw [hserved]
    exact List.subset_cons_self _ _
  · rw [hserved]
    exact List.mem_cons_self
  · rw [hserved]
    exact h.secrets
  · rw [hserved]
    rfl

/-- In its turn a request begins to fetch. -/
theorem begin (h : Queue requests cache m order statuses w)
    (at_ : statuses[i]? = some (.inLine (Batch.visitOf requests i).key .done))
    (turn : w.desk.isTurn i (Batch.visitOf requests i).key = true)
    (hu : w.desk.cache.usable? (Batch.visitOf requests i).key = none) (due : Nat) :
    Queue requests cache m order
      (statuses.set i (.fetching (Batch.visitOf requests i).key due
        (Batch.visitOf requests i).outcome .done))
      ⟨w.counted, i :: w.store, w.clock⟩ := by
  obtain ⟨hcame, -⟩ := h.stands i _ at_
  refine h.put at_ ?_ ⟨Nat.le_refl m, fun j _ hle => hle⟩ (List.Subset.refl _)
    ⟨hcame, rfl, rfl, rfl⟩ h.lines h.secrets rfl (fun j => ?_) ?_
  · rw [Schedule.floor_set]
    exact (h.orderly.put_start (Schedule.stage_floor at_ w) turn hu).of_store _
  · -- The call is made and in flight, so the calls and what is in flight grow by one each.
    show (i :: w.store).count j + (if j = i then 0 else 0) + _
      = w.store.count j + (if j = i then 1 else 0) + _
    rw [List.count_cons]
    by_cases hj : j = i
    · simp [hj]
    · simp [hj, Ne.symm hj]
  · show w.desk.cache.fetches + 1 + w.store.length = w.desk.cache.fetches + (w.store.length + 1)
    omega

/-- The fetch of a request comes to its end. -/
theorem finish (h : Queue requests cache m order statuses w) {due : Nat}
    (at_ : statuses[i]? = some (.fetching (Batch.visitOf requests i).key due
      (Batch.visitOf requests i).outcome .done)) :
    Queue requests cache m (order ++ [i])
      (statuses.set i (.finished (trimmed (Batch.visitOf requests i).outcome)))
      { w with desk := (w.desk.finish i (Batch.visitOf requests i).key
        (Batch.visitOf requests i).outcome).1 } := by
  have hf : (Schedule.floor statuses w).Fetches i (Batch.visitOf requests i).key :=
    ⟨_, _, Schedule.stage_floor at_ w⟩
  obtain ⟨turn, hu⟩ := h.orderly.fetcher i _ hf
  have hserved := h.served_miss hu
  obtain ⟨hcame, -⟩ := h.stands i _ at_
  rw [Desk.finish_eq]
  refine h.put at_ ?_ ⟨Nat.le_refl m, fun j _ hle => hle⟩ ?_ ⟨hcame, ?_⟩
    (h.lines_leave turn) ?_ Cache.keepEmpty_finish (fun j => ?_) ?_
  · rw [Schedule.floor_set]
    exact h.orderly.put_leave _ (Schedule.stage_floor at_ w) rfl rfl (h.orderly.finish_cache hf)
  · rw [hserved]
    exact List.subset_cons_self _ _
  · rw [hserved]
    exact List.mem_cons_self
  · rw [hserved]
    exact Cache.secrets_finish_congr h.secrets
  · rw [hserved]
    -- The call was in flight and is served now.
    show w.store.count j + (if j = i then 1 else 0) + _
      = w.store.count j + (if j = i then 0 else 0) + (i :: _).count j
    rw [List.count_cons]
    by_cases hj : j = i
    · simp [hj]
      omega
    · simp [hj, Ne.symm hj]
  · show (w.desk.cache.finish _ _).1.fetches + _ = _
    rw [Cache.fetches_finish]

end Queue

end SecretFill
