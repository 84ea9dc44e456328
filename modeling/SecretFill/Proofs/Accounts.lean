import Mathlib
import SecretFill.Proofs.Contents
import SecretFill.Proofs.Linearization
import SecretFill.Proofs.Office

namespace SecretFill

/-!
# Every fetch is on somebody's account

Two caches count the fetches that they begin, and their store counts those that are made, in total
and for each key.  However fetches fail, are dropped or are made again, the counts go together.

* `MemoryStore.Tallies` — the two counts of a store go together.
* `Books` — what a step does to the counts: nothing, or a fetch begins, or it brings a text.
* `Balance` — how the counts of one cache go with what was brought into it; `Balanced` — how those
  of an office go with its events.
* `Balanced.of_acts`, `Balanced.of_history` — one event keeps them together, so all do.
* `accounts_balance` — every fetch of the store is counted by the cache that began it, or was made
  past both; a cache holds as many keys as were brought into it.
-/

/-! ### The two counts of a store -/

namespace MemoryStore

variable {m : MemoryStore} {key other : Key}

/-- The count of all fetches is that of the fetches of all keys. -/
def Tallies (m : MemoryStore) : Prop := m.totalCalls = ∑ᶠ key, m.calls key

@[simp] theorem totalCalls_countFetch : (m.countFetch key).totalCalls = m.totalCalls + 1 := rfl

theorem calls_countFetch_self : (m.countFetch key).calls key = m.calls key + 1 := by
  simp [calls, countFetch]

theorem calls_countFetch_of_ne (h : other ≠ key) :
    (m.countFetch key).calls other = m.calls other := by
  have hne : (other == key) = false := beq_false_of_ne h
  unfold calls countFetch
  rw [List.lookup_cons, hne]
  exact congrArg (·.getD 0) (lookup_filter_of_ne h m.history)

/-- One call of one key is added. -/
theorem calls_countFetch (m : MemoryStore) (key : Key) :
    (m.countFetch key).calls = fun k => m.calls k + if k = key then 1 else 0 := by
  funext k
  by_cases hk : k = key
  · rw [hk, if_pos rfl, calls_countFetch_self]
  · rw [if_neg hk, calls_countFetch_of_ne hk, Nat.add_zero]

/-- Only keys that were fetched have calls. -/
theorem finite_calls (m : MemoryStore) : (Function.support m.calls).Finite := by
  refine (m.history.map Prod.fst).toFinset.finite_toSet.subset fun key hcalls => ?_
  rw [List.coe_toFinset]
  by_contra hkey
  refine hcalls ?_
  have hnone : m.history.lookup key = none := by
    refine List.lookup_eq_none_iff.2 fun entry hentry => bne_iff_ne.2 fun heq => hkey ?_
    exact List.mem_map.2 ⟨entry, hentry, heq.symm⟩
  rw [calls, hnone, Option.getD_none]

namespace Tallies

/-- A store that nobody has asked, -/
theorem of_nil (hhistory : m.history = []) (htotal : m.total = 0) : m.Tallies := by
  have hcalls : ∀ key, m.calls key = 0 := fun key => by rw [calls, hhistory]; rfl
  rw [Tallies, finsum_congr hcalls, finsum_zero]
  exact htotal

/-- another fetch, -/
theorem countFetch (h : m.Tallies) (key : Key) : (m.countFetch key).Tallies := by
  have hone : (∑ᶠ k, if k = key then 1 else 0) = 1 :=
    (finsum_eq_single _ key fun k hk => if_neg hk).trans (if_pos rfl)
  have hfinite : (Function.support fun k => if k = key then 1 else 0).Finite :=
    (Set.finite_singleton key).subset fun k hk => by_contra fun hne => hk (if_neg hne)
  rw [Tallies, totalCalls_countFetch, calls_countFetch,
    finsum_add_distrib m.finite_calls hfinite, hone, h]

/-- and another secret. -/
theorem set (h : m.Tallies) (key : Key) (secret : String) : (m.set key secret).Tallies := h

end Tallies

end MemoryStore

/-! ### What a step does to the counts -/

section Books

variable {α β : Type} {f g : Floor α MemoryStore} {i : Nat} {stage old : Stage α}

/-- How many fetches are in flight. -/
def Floor.flights {σ : Type} (f : Floor α σ) : Nat :=
  Stage.total (fun stage => stage.flying.length) f.stages

/-- What a step does to the counts of a cache and its store, and which key it brings. -/
inductive Books (f : Floor α MemoryStore) (g : Floor β MemoryStore) : Option Key → Prop where
  /-- It does nothing to them.  It may give a fetch up. -/
  | quiet (cache : g.desk.cache = f.desk.cache) (store : g.store = f.store)
    (flights : g.flights ≤ f.flights) : Books f g none
  /-- A fetch begins. -/
  | begun {key : Key} (cache : g.desk.cache = f.desk.cache.countFetch)
    (store : g.store = f.store.countFetch key)
    (flights : g.flights = f.flights + 1) : Books f g none
  /-- A fetch ends with a text. -/
  | brought {key : Key} {text : String} (cache : g.desk.cache = f.desk.cache.insert key text)
    (store : g.store = f.store)
    (flights : g.flights + 1 = f.flights) : Books f g (some key)

namespace Floor

/-- A walk that gets to another stage takes its flight with it. -/
theorem flights_put {σ : Type} {f : Floor α σ} (at_ : f.stages[i]? = some old) :
    (f.put i stage).flights + old.flying.length = f.flights + stage.flying.length :=
  Stage.total_set _ at_

/-- Walks that have not begun have no flights. -/
theorem flights_start {σ : Type} (walks : List (Walk α)) (s : Session σ) :
    (Floor.start walks s).flights = 0 := by
  refine Stage.total_eq_zero fun stage hmem => ?_
  obtain ⟨walk, -, rfl⟩ := List.mem_map.1 hmem
  rfl

end Floor

/-- Sizes that are added at the end are added to the total. -/
theorem Stage.total_concat (size : Stage α → Nat) (stages : List (Stage α)) (stage : Stage α) :
    total size (stages ++ [stage]) = total size stages + size stage := by
  induction stages with
  | nil => exact Nat.add_comm _ _
  | cons first rest ih =>
    rw [List.cons_append, total, ih, total]
    omega

namespace Books

variable {walk : Walk α} {walks : List (Walk α)} {f : Floor α MemoryStore}

/-- Walks that are begun, be it in place of others. -/
theorem start {room : Floor β MemoryStore} : Books room (.start walks room.session) none :=
  .quiet rfl rfl ((Floor.flights_start walks room.session).trans_le (Nat.zero_le _))

/-- A walk that is begun beside others. -/
theorem join : Books f { f with stages := f.stages ++ [.going walk] } none :=
  .quiet rfl rfl (Stage.total_concat _ f.stages (.going walk)).le

/-- A walk that is dropped. -/
theorem drop (at_ : f.stages[i]? = some old) :
    Books f ((f.withDesk (f.deskWithout i old)).put i .dropped) none := by
  have hflights : (Floor.put (f.withDesk (f.deskWithout i old)) i .dropped).flights
      + old.flying.length = f.flights := Floor.flights_put (f := f.withDesk _) at_
  exact .quiet (f.cache_deskWithout i old) rfl (by omega)

/-- Another answer to a fetch in flight. -/
theorem answer {key : Key} {outcome : Except Failure String}
    {resume : Except Failure String → Walk α}
    (at_ : f.stages[i]? = some (.fetching key outcome resume)) (outcome' : Except Failure String) :
    Books f (f.put i (.fetching key outcome' resume)) none := by
  have hflights : (f.put i (.fetching key outcome' resume)).flights + 1 = f.flights + 1 :=
    Floor.flights_put at_
  exact .quiet rfl rfl (Nat.add_right_cancel hflights).le

end Books

/-- **A step of a walk** does one thing to the counts. -/
theorem Go.books (at_ : f.stages[i]? = some stage) (h : Go (fun _ => MemoryStore.fetch) i f g) :
    Books f g stage.brought? := by
  have hput : ∀ {h : Floor α MemoryStore} {old : Stage α} (new : Stage α),
      h.stages[i]? = some old →
        (h.put i new).flights + old.flying.length = h.flights + new.flying.length :=
    fun _ hat => Floor.flights_put hat
  -- Only the beginning of a fetch and an end with a text change the cache.
  cases h with
  | note at' | done at' | hit at' | miss at' =>
    obtain rfl := Option.some.inj (at_.symm.trans at')
    exact .quiet rfl rfl (hput _ at').le
  | enter at' =>
    obtain rfl := Option.some.inj (at_.symm.trans at')
    exact .quiet rfl rfl (hput (h := f.withDesk _) _ at').le
  | join at' turn found =>
    obtain rfl := Option.some.inj (at_.symm.trans at')
    rw [Desk.begin_fst_of_some found]
    exact .quiet rfl rfl (hput (h := f.withDesk _) _ at').le
  | start at' turn found =>
    obtain rfl := Option.some.inj (at_.symm.trans at')
    rw [Desk.begin_fst_of_none found]
    exact .begun rfl rfl (hput (h := ⟨_, _, f.stages⟩) _ at')
  | @finish key outcome resume at' =>
    obtain rfl := Option.some.inj (at_.symm.trans at')
    rw [Desk.finish_eq]
    have hflights := hput (h := f.withDesk _) (.going (resume (trimmed outcome))) at'
    cases outcome with
    | error e => exact .quiet rfl rfl ((Nat.le_add_right _ 1).trans hflights.le)
    | ok text => exact .brought rfl rfl hflights

end Books

/-! ### The counts of one cache -/

/-- The keys that were brought into a cache are those that it holds, each once; and each time a
    fetch was begun, as it was for those that are in flight. -/
structure Balance (keys : List Key) (cache : Cache) (flights : Nat) : Prop where
  /-- No key is held twice. -/
  nodup : (cache.secrets.map Prod.fst).Nodup
  /-- The keys that are held were brought. -/
  mem_iff : ∀ key, key ∈ cache.secrets.map Prod.fst ↔ key ∈ keys
  /-- Fetches that are over or in flight were begun. -/
  le_fetches : keys.length + flights ≤ cache.fetches

namespace Balance

variable {keys : List Key} {cache : Cache} {flights flights' : Nat}

/-- An empty cache. -/
theorem empty (keepEmpty : Bool) : Balance [] (.empty keepEmpty) 0 :=
  ⟨List.nodup_nil, fun _ => Iff.rfl, Nat.le_refl 0⟩

/-- Fetches that are given up. -/
theorem mono (h : Balance keys cache flights) (hle : flights' ≤ flights) :
    Balance keys cache flights' :=
  ⟨h.nodup, h.mem_iff, (Nat.add_le_add_left hle _).trans h.le_fetches⟩

/-- A fetch that begins. -/
theorem countFetch (h : Balance keys cache flights) :
    Balance keys cache.countFetch (flights + 1) :=
  ⟨h.nodup, h.mem_iff, Nat.succ_le_succ h.le_fetches⟩

/-- A fetch that ends with a text. -/
theorem insert (h : Balance keys cache (flights + 1)) (key : Key) (text : String) :
    Balance (keys ++ [key]) (cache.insert key text) flights where
  nodup := by
    have hrest : ((cache.secrets.filter (·.1 ≠ key)).map Prod.fst).Nodup :=
      h.nodup.sublist (List.filter_sublist.map Prod.fst)
    refine List.nodup_cons.2 ⟨fun hmem => ?_, hrest⟩
    -- Earlier secrets of the key are gone.
    obtain ⟨entry, hentry, hkey⟩ := List.mem_map.1 hmem
    exact absurd hkey (by simpa using (List.mem_filter.1 hentry).2)
  mem_iff k := by
    have hrest : k ∈ (cache.secrets.filter (·.1 ≠ key)).map Prod.fst
        ↔ k ∈ cache.secrets.map Prod.fst ∧ k ≠ key := by
      simp only [List.mem_map, List.mem_filter, decide_eq_true_eq]
      constructor
      · rintro ⟨entry, ⟨hmem, hne⟩, rfl⟩
        exact ⟨⟨entry, hmem, rfl⟩, hne⟩
      · rintro ⟨⟨entry, hmem, rfl⟩, hne⟩
        exact ⟨entry, ⟨hmem, hne⟩, rfl⟩
    show k ∈ key :: (cache.secrets.filter (·.1 ≠ key)).map Prod.fst ↔ _
    rw [List.mem_cons, hrest, h.mem_iff, List.mem_append, List.mem_singleton]
    by_cases hk : k = key <;> simp [hk]
  le_fetches := by
    have hle := h.le_fetches
    rw [List.length_append, List.length_singleton]
    show _ ≤ cache.fetches
    omega

/-- So many keys are held as were brought, be they brought once or again, -/
theorem size_eq (h : Balance keys cache flights) : cache.size = keys.toFinset.card := by
  have hkeys : (cache.secrets.map Prod.fst).toFinset = keys.toFinset := by
    ext key
    rw [List.mem_toFinset, List.mem_toFinset, h.mem_iff]
  rw [← hkeys, List.toFinset_card_of_nodup h.nodup, List.length_map, Cache.size]

/-- and not more than fetches were begun. -/
theorem size_le_fetches (h : Balance keys cache flights) : cache.size ≤ cache.fetches := by
  have hle := h.le_fetches
  have hcard : keys.toFinset.card ≤ keys.length := keys.toFinset_card_le
  rw [h.size_eq]
  omega

end Balance

/-! ### The counts of an office -/

/-- How many fetches were made past the desks. -/
def directs (events : List Event) : Nat :=
  events.countP fun
    | .direct _ => true
    | _ => false

/-- The keys for which texts were brought on a side, in order. -/
def broughtKeys (side : Side) (events : List Event) : List Key :=
  events.filterMap fun
    | .step s brought? => if s = side then brought? else none
    | _ => none

namespace Office

variable {α β : Type} {o : Office} {side other : Side} {f : Floor α MemoryStore}
  {g : Floor β MemoryStore}

/-- How many fetches of a side are in flight. -/
def flights (o : Office) (side : Side) : Nat :=
  Stage.total (fun stage => stage.flying.length) (o.rooms side).stages

theorem HasFloor.cache (h : o.HasFloor side f) : o.cache side = f.desk.cache := by
  unfold Office.cache
  rw [h.room]

theorem HasFloor.flights (h : o.HasFloor side f) : o.flights side = f.flights := by
  unfold Office.flights Floor.flights
  rw [h.room]

theorem cache_withFloor : (o.withFloor side g).cache side = g.desk.cache :=
  hasFloor_withFloor.cache

theorem flights_withFloor : (o.withFloor side g).flights side = g.flights :=
  hasFloor_withFloor.flights

theorem cache_withFloor_of_ne (h : other ≠ side) :
    (o.withFloor side g).cache other = o.cache other := by
  unfold Office.cache
  rw [rooms_withFloor_of_ne h]

theorem flights_withFloor_of_ne (h : other ≠ side) :
    (o.withFloor side g).flights other = o.flights other := by
  unfold Office.flights
  rw [rooms_withFloor_of_ne h]

/-- How many fetches both caches have begun. -/
def fetches (o : Office) : Nat := (o.cache .left).fetches + (o.cache .right).fetches

/-- One cache more or less is counted as it is. -/
theorem fetches_withFloor : (o.withFloor side g).fetches + (o.cache side).fetches
    = o.fetches + g.desk.cache.fetches := by
  have hself : (o.withFloor side g).cache side = g.desk.cache := cache_withFloor
  unfold fetches
  cases side with
  | left =>
    have hne : Side.right ≠ .left := by decide
    rw [hself, cache_withFloor_of_ne hne]
    omega
  | right =>
    have hne : Side.left ≠ .right := by decide
    rw [hself, cache_withFloor_of_ne hne]
    omega

end Office

/-- The counts of an office go with its events. -/
structure Balanced (events : List Event) (o : Office) : Prop where
  /-- Every fetch of the store was begun on a side, or made past both. -/
  total : o.store.totalCalls = o.fetches + directs events
  /-- The store counted it for its key. -/
  tallies : o.store.Tallies
  /-- What was brought on a side is held there. -/
  balance : ∀ side, Balance (broughtKeys side events) (o.cache side) (o.flights side)

section Books

variable {α β : Type} {f : Floor α MemoryStore} {g : Floor β MemoryStore} {brought? : Option Key}

/-- A fetch is counted by the cache and by the store. -/
theorem Books.totalCalls (h : Books f g brought?) :
    g.store.totalCalls + f.desk.cache.fetches = f.store.totalCalls + g.desk.cache.fetches := by
  cases h with
  | quiet cache store => rw [cache, store]
  | begun cache store =>
    rw [cache, store, MemoryStore.totalCalls_countFetch, Cache.fetches_countFetch]
    omega
  | brought cache store =>
    rw [cache, store]
    rfl

/-- A fetch is counted in total and for its key. -/
theorem Books.tallies (h : Books f g brought?) (htallies : f.store.Tallies) : g.store.Tallies := by
  cases h with
  | quiet cache store | brought cache store => exact store ▸ htallies
  | begun cache store => exact store ▸ htallies.countFetch _

/-- A step keeps the counts of a cache together. -/
theorem Books.balance {keys : List Key} (hbooks : Books f g brought?)
    (h : Balance keys f.desk.cache f.flights) :
    Balance (keys ++ brought?.toList) g.desk.cache g.flights := by
  cases hbooks with
  | quiet cache store flights =>
    rw [cache, Option.toList_none, List.append_nil]
    exact h.mono flights
  | begun cache store flights =>
    rw [cache, flights, Option.toList_none, List.append_nil]
    exact h.countFetch
  | brought cache store flights =>
    rw [← flights] at h
    rw [cache]
    exact h.insert _ _

end Books

theorem directs_append (events : List Event) (event : Event) :
    directs (events ++ [event]) = directs events + directs [event] :=
  List.countP_append

/-- Nothing is brought past the desks. -/
theorem broughtKeys_past (side : Side) {event : Event} (h : event.side? = none)
    {events : List Event} : broughtKeys side (events ++ [event]) = broughtKeys side events := by
  cases event with
  | step => cases h
  | direct | set => simp [broughtKeys]

theorem broughtKeys_step (side other : Side) (brought? : Option Key) (events : List Event) :
    broughtKeys other (events ++ [.step side brought?])
      = broughtKeys other events ++ if side = other then brought?.toList else [] := by
  unfold broughtKeys
  rw [List.filterMap_append]
  split <;> cases brought? <;> simp [*]

namespace Balanced

variable {events : List Event} {o o' : Office} {event : Event} {side : Side}

theorem opened (keepEmpty : Side → Bool) (secrets : List (Key × String))
    (failures : List (Key × Failure)) (delay : Nat) :
    Balanced [] (.opened keepEmpty secrets failures delay) :=
  ⟨rfl, .of_nil rfl rfl, fun side => .empty (keepEmpty side)⟩

/-- What is done on a side changes the counts of this side, and of the store. -/
theorem of_books {α β : Type} {f : Floor α MemoryStore} {g : Floor β MemoryStore}
    {brought? : Option Key} (h : Balanced events o) (here : o.HasFloor side f)
    (hbooks : Books f g brought?) :
    Balanced (events ++ [.step side brought?]) (o.withFloor side g) where
  total := by
    have hcalls := hbooks.totalCalls
    have hfetches : (o.withFloor side g).fetches + (o.cache side).fetches = _ :=
      Office.fetches_withFloor
    have hdirects : directs (events ++ [.step side brought?]) = directs events :=
      directs_append events _
    have htotal := h.total
    rw [here.cache] at hfetches
    rw [here.store] at htotal
    rw [hdirects]
    show g.store.totalCalls = _
    omega
  tallies := hbooks.tallies (here.store ▸ h.tallies)
  balance other := by
    have hbalance := h.balance other
    rw [broughtKeys_step]
    -- What is done on this side does not change the books of the other one.
    by_cases hside : other = side
    · subst hside
      rw [here.cache, here.flights] at hbalance
      rw [if_pos rfl, Office.cache_withFloor, Office.flights_withFloor]
      exact hbooks.balance hbalance
    · rw [if_neg (Ne.symm hside), List.append_nil, Office.cache_withFloor_of_ne hside,
        Office.flights_withFloor_of_ne hside]
      exact hbalance

/-- What is done past the desks changes the counts of the store. -/
theorem of_store {store : MemoryStore} (h : Balanced events o) (hside : event.side? = none)
    (hcalls : store.totalCalls = o.store.totalCalls + directs [event]) (htallies : store.Tallies) :
    Balanced (events ++ [event]) { o with store } where
  total := by
    rw [directs_append, ← Nat.add_assoc, hcalls, h.total]
    rfl
  tallies := htallies
  balance side := by
    rw [broughtKeys_past side hside]
    exact h.balance side

/-- **One event** keeps the counts together. -/
theorem of_acts (h : Balanced events o) (hacts : Acts o event o') :
    Balanced (events ++ [event]) o' := by
  cases hacts with
  | renew side walks =>
    -- Walks of any kind may be there, so their floor is taken from the room.
    have here : o.HasFloor side ⟨(o.rooms side).desk, o.store, (o.rooms side).stages⟩ := ⟨rfl, rfl⟩
    exact h.of_books here .start
  | join here walk => exact h.of_books here .join
  | go here at_ hgo => exact h.of_books here (hgo.books at_)
  | drop here at_ isOpen => exact h.of_books here (.drop at_)
  | answer here at_ => exact h.of_books here (.answer at_ _)
  | direct key => exact h.of_store rfl rfl (h.tallies.countFetch key)
  | set key secret => exact h.of_store rfl rfl (h.tallies.set key secret)

/-- **Any events** keep the counts together. -/
theorem of_history {first : Office} (h : Balanced [] first) (hhistory : History first events o) :
    Balanced events o := by
  induction hhistory with
  | nil => exact h
  | snoc _ hacts ih => exact ih.of_acts hacts

end Balanced

/-! ### Accounts -/

/-- **Accounts balance.**  Let anything happen to two caches that were empty, and to their store:
    walks of any kind are begun, take steps, wait, fail and are dropped on both sides, while others
    ask the store too and change its secrets.  Then every call of the store was begun on one side or
    made past both, and is a call for one key; a cache holds exactly as many keys as were brought
    into it, not more than fetches were begun, and none iff it is empty.  What happens elsewhere
    leaves a cache as it is, and everything that can be done with a cache so happens on its side. -/
theorem accounts_balance {keepEmpty : Side → Bool} {secrets : List (Key × String)}
    {failures : List (Key × Failure)} {delay : Nat} {events : List Event} {o : Office}
    (h : History (.opened keepEmpty secrets failures delay) events o) :
    o.store.totalCalls
      = (o.cache .left).fetches + (o.cache .right).fetches + directs events ∧
    o.store.totalCalls = ∑ᶠ key, o.store.calls key ∧
    (∀ side,
      (o.cache side).size = (broughtKeys side events).toFinset.card ∧
      (o.cache side).size ≤ (o.cache side).fetches ∧
      ((o.cache side).isEmpty = true ↔ (o.cache side).size = 0)) ∧
    (∀ event o' side, Acts o event o' → event.side? ≠ some side → o'.cache side = o.cache side) ∧
    (∀ side t, Operates MemoryStore.fetch (o.session side) t →
      ∃ events' o', (∀ event ∈ events', event.side? = some side) ∧
        History (.opened keepEmpty secrets failures delay) (events ++ events') o' ∧
        o'.session side = t) := by
  have hbalanced : Balanced events o := (Balanced.opened keepEmpty secrets failures delay).of_history h
  refine ⟨hbalanced.total, hbalanced.tallies, fun side => ?_,
    fun event o' side hacts hside => ?_, fun side t hop => ?_⟩
  · have hbalance := hbalanced.balance side
    exact ⟨hbalance.size_eq, hbalance.size_le_fetches, List.isEmpty_iff_length_eq_zero⟩
  · unfold Office.cache
    rw [hacts.rooms_eq hside]
  · obtain ⟨events', o', hevents, hhistory, hsession⟩ := History.of_operates hop
    exact ⟨events', o', hevents, h.append hhistory, hsession⟩

/-- On one side a fetch is in flight when its walk is dropped.  On the other one the same key is
    fetched; the secret is replaced meanwhile, so the new one is brought.  Then the key is fetched
    past both. -/
theorem accounts_balance_dropped :
    let key : Key := ⟨"db", "Password"⟩
    let first : Office := .opened (fun _ => false) [(key, "old")] [] 20
    ∃ events o, History first events o ∧ directs events = 1 ∧
      (o.cache .left).fetches = 1 ∧ (o.cache .right).fetches = 1 ∧
      (o.cache .right).held? key = some "new" ∧
      o.store.totalCalls = 3 ∧ o.store.calls key = 3 ∧
      (o.cache .left).size = 0 ∧ (o.cache .right).size = 1 := by
  intro key first
  have hhistory : ∃ events o, History first events o ∧ directs events = 1 ∧
      broughtKeys .left events = [] ∧ broughtKeys .right events = [key] ∧
      (o.cache .left).fetches = 1 ∧ (o.cache .right).fetches = 1 ∧
      (o.cache .right).held? key = some "new" ∧ o.store.calls key = 3 := by
    refine ⟨_, _, ((((((((((((History.nil.snoc (.renew .left [credential key])).snoc
      (.go (i := 0) Office.hasFloor_withFloor rfl (.miss rfl rfl))).snoc
      (.go (i := 0) Office.hasFloor_withFloor rfl (.enter rfl))).snoc
      (.go (i := 0) Office.hasFloor_withFloor rfl (.start rfl rfl rfl))).snoc
      (.drop (i := 0) Office.hasFloor_withFloor rfl (by exact trivial))).snoc
      (.renew .right [credential key])).snoc
      (.go (i := 0) Office.hasFloor_withFloor rfl (.miss rfl rfl))).snoc
      (.go (i := 0) Office.hasFloor_withFloor rfl (.enter rfl))).snoc
      (.go (i := 0) Office.hasFloor_withFloor rfl (.start rfl rfl rfl))).snoc
      (.set key "new")).snoc
      (.answer (i := 0) (Office.hasFloor_withFloor.of_store _) rfl)).snoc
      (.go (i := 0) Office.hasFloor_withFloor rfl (.finish rfl))).snoc
      (.direct key), rfl, rfl, rfl, rfl, rfl, rfl, rfl⟩
  obtain ⟨events, o, h, hdirects, hleft, hright, hfetches, hfetches', hheld, hcalls⟩ := hhistory
  obtain ⟨htotal, -, hsize, -, -⟩ := accounts_balance h
  refine ⟨events, o, h, hdirects, hfetches, hfetches', hheld, ?_, hcalls, ?_, ?_⟩
  · rw [htotal, hdirects, hfetches, hfetches']
  · rw [(hsize .left).1, hleft]
    rfl
  · rw [(hsize .right).1, hright]
    rfl

end SecretFill
