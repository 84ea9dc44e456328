import Mathlib.Logic.Function.Basic
import SecretFill.Proofs.Batches

namespace SecretFill

/-!
# Two caches before one store

In an office there are two sides, each with a desk of its own and walks before it.  Both desks fetch
from one store in memory, which others may ask too, past the desks.  All this goes on at the same
time, and a walk may be dropped at any moment.

* `Room`, `Office` — one side, and both of them over their store.
* `Acts` — what may happen next; `History` — what happened so far, event by event.
* `Walk.run_runs` — a walk that is run on its own takes steps; `History.of_operates` — so does every
  operation, and all of them on its side.
-/

/-! ### Walks on their own -/

/-- **A fetch on its own**: the walk that asks misses the key, stands in line, has the turn as soon as
    it does, and leaves the line when the fetch ends. -/
theorem runs_fetch {α σ : Type} (store : Store σ) {key : Key}
    (resume : Except Failure String → Walk α) {s : Session σ} (hu : s.cache.usable? key = none) :
    let reply := (store key s.store).1
    Runs (fun _ => store) (.start [.ask key resume] s)
      (.start [resume (trimmed reply.outcome)]
        ⟨(s.cache.countFetch.finish key reply.outcome).1, (store key s.store).2⟩) := by
  intro reply
  let cache := (s.cache.countFetch.finish key reply.outcome).1
  let entered := (Desk.idle s.cache).enter 0 key
  have hturn : entered.isTurn 0 key = true := by
    rw [Desk.isTurn_iff, Desk.line_enter, if_pos rfl]
    rfl
  have hmiss : Go (fun _ => store) 0 (.start [.ask key resume] s)
      ⟨.idle s.cache, s.store, [.missed key resume]⟩ := .miss rfl hu
  have henter : Go (fun _ => store) 0 ⟨.idle s.cache, s.store, [.missed key resume]⟩
      ⟨entered, s.store, [.inLine key resume]⟩ := .enter rfl
  have hstart : Go (fun _ => store) 0 ⟨entered, s.store, [.inLine key resume]⟩
      ⟨{ entered with cache := s.cache.countFetch }, (store key s.store).2,
        [.fetching key reply.outcome resume]⟩ := by
    have hgo : Go (fun _ => store) 0 ⟨entered, s.store, [.inLine key resume]⟩ _ :=
      .start rfl hturn (Desk.begin_snd.trans hu)
    rwa [Desk.begin_none hu] at hgo
  have hidle : { entered with cache }.leave 0 key = .idle cache :=
    Desk.leave_enter_idle s.cache cache 0 key
  have hfinish : Go (fun _ => store) 0
      ⟨{ entered with cache := s.cache.countFetch }, (store key s.store).2,
        [.fetching key reply.outcome resume]⟩
      ⟨.idle cache, (store key s.store).2, [.going (resume (trimmed reply.outcome))]⟩ := by
    have hgo : Go (fun _ => store) 0 ⟨{ entered with cache := s.cache.countFetch },
        (store key s.store).2, [.fetching key reply.outcome resume]⟩ _ := .finish rfl
    rw [Desk.finish_eq] at hgo
    rw [← hidle]
    exact hgo
  -- These four steps, one after the other, are the fetch.
  exact .head ⟨0, hmiss⟩ (.head ⟨0, henter⟩ (.head ⟨0, hstart⟩ (.single ⟨0, hfinish⟩)))

/-- **A walk on its own** takes steps before an idle desk, and leaves what they leave. -/
theorem Walk.run_runs {α σ : Type} (store : Store σ) (walk : Walk α) (s : Session σ) :
    ∃ f, Runs (fun _ => store) (.start [walk] s) f ∧ f.session = (walk.run store s).session := by
  induction walk generalizing s with
  | done result => exact ⟨_, .single ⟨0, .done rfl⟩, rfl⟩
  | note notice next ih =>
    obtain ⟨f, hruns, hsession⟩ := ih s
    exact ⟨f, .head ⟨0, .note rfl⟩ hruns, hsession⟩
  | ask key resume ih =>
    cases hu : s.cache.usable? key with
    | some secret =>
      obtain ⟨f, hruns, hsession⟩ := ih (.ok secret) s
      simp only [run, hu]
      exact ⟨f, .head ⟨0, .hit rfl hu⟩ hruns, hsession⟩
    | none =>
      obtain ⟨f, hruns, hsession⟩ := ih (trimmed (store key s.store).1.outcome) ⟨_, _⟩
      simp only [run, hu, Cache.finish_snd]
      exact ⟨f, (runs_fetch store resume hu).trans hruns, hsession⟩

/-- Who takes a step is there. -/
theorem Go.exists_stage {α σ : Type} {source : Source σ} {i : Nat} {f g : Floor α σ}
    (h : Go source i f g) : ∃ stage, f.stages[i]? = some stage := by
  cases h with
  | note at_ | done at_ | hit at_ | miss at_ | enter at_ | join at_ | start at_ | finish at_ =>
    exact ⟨_, at_⟩

/-! ### Two sides -/

/-- The sides of an office. -/
inductive Side where
  /-- One of them. -/
  | left
  /-- The other one. -/
  | right
deriving DecidableEq, Repr

/-- A desk, and walks of one kind before it. -/
structure Room where
  /-- What the walks come to. -/
  {Result : Type}
  /-- The cache and the lines before it. -/
  desk : Desk
  /-- How far each walk is. -/
  stages : List (Stage Result)

/-- A room on each side, over one store. -/
structure Office where
  /-- The rooms. -/
  rooms : Side → Room
  /-- The store of both. -/
  store : MemoryStore

/-- What happens in an office. -/
inductive Event where
  /-- Something is done on a side.  It may be the end of a fetch that brings a text for a key. -/
  | step (side : Side) (brought? : Option Key)
  /-- A key is fetched past the desks. -/
  | direct (key : Key)
  /-- The store is given a secret. -/
  | set (key : Key) (secret : String)
deriving DecidableEq, Repr

/-- The side on which something is done. -/
def Event.side? : Event → Option Side
  | step side _ => some side
  | direct _ | set .. => none

/-- The key of a fetch whose end brings a text. -/
def Stage.brought? {α : Type} : Stage α → Option Key
  | fetching key (.ok _) _ => some key
  | _ => none

namespace Office

variable {α : Type} {o : Office} {side other : Side} {f g : Floor α MemoryStore}

/-- The cache on a side. -/
def cache (o : Office) (side : Side) : Cache := (o.rooms side).desk.cache

/-- The cache on a side, and the store. -/
def session (o : Office) (side : Side) : Session MemoryStore := ⟨o.cache side, o.store⟩

/-- The walks on a side and what is before them are a floor. -/
structure HasFloor (o : Office) (side : Side) (f : Floor α MemoryStore) : Prop where
  /-- The desk and the walks. -/
  room : o.rooms side = ⟨f.desk, f.stages⟩
  /-- The store. -/
  store : o.store = f.store

/-- Another floor on a side. -/
def withFloor (o : Office) (side : Side) (f : Floor α MemoryStore) : Office where
  rooms := Function.update o.rooms side ⟨f.desk, f.stages⟩
  store := f.store

/-- Caches without secrets, and a store that nobody has asked. -/
def opened (keepEmpty : Side → Bool) (secrets : List (Key × String))
    (failures : List (Key × Failure)) (delay : Nat) : Office where
  rooms side := { Result := Unit, desk := .idle (.empty (keepEmpty side)), stages := [] }
  store := { secrets, failures, delay, history := [] }

/-- What happens to the store happens before the walks. -/
theorem HasFloor.of_store (h : o.HasFloor side f) (store : MemoryStore) :
    ({ o with store } : Office).HasFloor side { f with store } :=
  ⟨h.room, rfl⟩

theorem hasFloor_withFloor : (o.withFloor side f).HasFloor side f :=
  ⟨Function.update_self side _ o.rooms, rfl⟩

theorem rooms_withFloor_of_ne (h : other ≠ side) :
    (o.withFloor side f).rooms other = o.rooms other :=
  Function.update_of_ne h _ o.rooms

theorem withFloor_withFloor : (o.withFloor side f).withFloor side g = o.withFloor side g := by
  simp only [withFloor, Function.update_idem]

theorem HasFloor.session (h : o.HasFloor side f) : o.session side = f.session := by
  unfold Office.session cache Floor.session
  rw [h.room, h.store]

end Office

/-- What may happen in an office. -/
inductive Acts (o : Office) : Event → Office → Prop where
  /-- All walks of a side are dropped, and others are begun. -/
  | renew {α : Type} (side : Side) (walks : List (Walk α)) :
    Acts o (.step side none) (o.withFloor side (.start walks (o.session side)))
  /-- A walk is begun beside those that are there. -/
  | join {α : Type} {side : Side} {f : Floor α MemoryStore} (here : o.HasFloor side f)
    (walk : Walk α) :
    Acts o (.step side none) (o.withFloor side { f with stages := f.stages ++ [.going walk] })
  /-- A walk takes a step. -/
  | go {α : Type} {side : Side} {f g : Floor α MemoryStore} {i : Nat} {stage : Stage α}
    (here : o.HasFloor side f) (at_ : f.stages[i]? = some stage)
    (h : Go (fun _ => MemoryStore.fetch) i f g) :
    Acts o (.step side stage.brought?) (o.withFloor side g)
  /-- A walk is dropped, and leaves its line. -/
  | drop {α : Type} {side : Side} {f : Floor α MemoryStore} {i : Nat} {stage : Stage α}
    (here : o.HasFloor side f) (at_ : f.stages[i]? = some stage) (isOpen : stage.IsOpen) :
    Acts o (.step side none)
      (o.withFloor side ((f.withDesk (f.deskWithout i stage)).put i .dropped))
  /-- While a fetch takes its time, the answer comes to be what the store holds by now. -/
  | answer {α : Type} {side : Side} {f : Floor α MemoryStore} {i : Nat} {key : Key}
    {outcome : Except Failure String} {resume : Except Failure String → Walk α}
    (here : o.HasFloor side f) (at_ : f.stages[i]? = some (.fetching key outcome resume)) :
    Acts o (.step side none)
      (o.withFloor side (f.put i (.fetching key (f.store.outcome key) resume)))
  /-- A key is fetched past the desks. -/
  | direct (key : Key) : Acts o (.direct key) { o with store := (MemoryStore.fetch key o.store).2 }
  /-- The store is given a secret. -/
  | set (key : Key) (secret : String) :
    Acts o (.set key secret) { o with store := o.store.set key secret }

/-- The events that lead from one office to another, in order. -/
inductive History (first : Office) : List Event → Office → Prop where
  /-- Nothing happened. -/
  | nil : History first [] first
  /-- Something happened last. -/
  | snoc {events : List Event} {event : Event} {o o' : Office} (h : History first events o)
    (hacts : Acts o event o') : History first (events ++ [event]) o'

/-- **A side to itself.**  What is done on one side leaves the desk and the walks of the other one as
    they are, and so does what is done past the desks. -/
theorem Acts.rooms_eq {o o' : Office} {event : Event} {side : Side} (h : Acts o event o')
    (hside : event.side? ≠ some side) : o'.rooms side = o.rooms side := by
  cases h with
  | renew | join | go | drop | answer =>
    exact Office.rooms_withFloor_of_ne fun hsame => hside (congrArg some hsame.symm)
  | direct | set => rfl

/-! ### Operations -/

namespace History

variable {α : Type} {first o o' : Office} {events events' : List Event} {side : Side}
  {f g : Floor α MemoryStore}

theorem append (h : History first events o) (h' : History o events' o') :
    History first (events ++ events') o' := by
  induction h' with
  | nil => rwa [List.append_nil]
  | snoc _ hacts ih =>
    rw [← List.append_assoc]
    exact ih.snoc hacts

/-- Steps of walks on a side are events on this side. -/
theorem of_steps (o : Office) (side : Side) (hsteps : Steps (fun _ => MemoryStore.fetch) f g) :
    ∃ events, (∀ event ∈ events, event.side? = some side) ∧
      History (o.withFloor side f) events (o.withFloor side g) := by
  induction hsteps with
  | refl => exact ⟨[], by simp, .nil⟩
  | @tail before after _ hstep ih =>
    obtain ⟨events, hevents, hhistory⟩ := ih
    have hlast : ∃ event, event.side? = some side ∧
        Acts (o.withFloor side before) event (o.withFloor side after) := by
      -- The office afterwards is the one before with another floor.
      rw [← Office.withFloor_withFloor (f := before) (g := after)]
      cases hstep with
      | @go i g h =>
        obtain ⟨stage, hat⟩ := h.exists_stage
        exact ⟨_, rfl, .go Office.hasFloor_withFloor hat h⟩
      | drop at_ isOpen => exact ⟨_, rfl, .drop Office.hasFloor_withFloor at_ isOpen⟩
    obtain ⟨event, hevent, hacts⟩ := hlast
    refine ⟨events ++ [event], fun e he => ?_, hhistory.snoc hacts⟩
    rcases List.mem_append.1 he with hearlier | hnow
    · exact hevents e hearlier
    · rwa [List.mem_singleton.1 hnow]

/-- **Every operation** on the cache of a side is a row of events on this side. -/
theorem of_operates {t : Session MemoryStore}
    (hop : Operates MemoryStore.fetch (o.session side) t) :
    ∃ events o', (∀ event ∈ events, event.side? = some side) ∧ History o events o' ∧
      o'.session side = t := by
  -- An operation is one order of steps, with walks that may be dropped.
  have hsteps : ∃ (α : Type) (walks : List (Walk α)) (f : Floor α MemoryStore),
      Steps (fun _ => MemoryStore.fetch) (.start walks (o.session side)) f ∧ f.session = t := by
    have hrun : ∀ {α : Type} (walk : Walk α), ∃ (f : Floor α MemoryStore),
        Steps (fun _ => MemoryStore.fetch) (.start [walk] (o.session side)) f ∧
          f.session = (walk.run MemoryStore.fetch (o.session side)).session := by
      intro α walk
      obtain ⟨f, hruns, hsession⟩ := walk.run_runs MemoryStore.fetch (o.session side)
      exact ⟨f, hruns.steps, hsession⟩
    cases hop with
    | document policy document => exact ⟨_, _, hrun (report policy document)⟩
    | handle raw => exact ⟨_, _, hrun (resolve raw)⟩
    | credential key => exact ⟨_, _, hrun (credential key)⟩
    | documents policy documents =>
      obtain ⟨f, hruns, hsession, -⟩ := Schedule.run_runs (fun _ => MemoryStore.fetch) Batch.halts
        (Batch.asks documents) (documents.map (report policy)) (o.session side)
      exact ⟨_, _, f, hruns.steps, hsession⟩
    | dropped walks f h => exact ⟨_, walks, f, h, rfl⟩
  obtain ⟨α, walks, f, hsteps, hsession⟩ := hsteps
  obtain ⟨events, hevents, hhistory⟩ := of_steps o side hsteps
  refine ⟨.step side none :: events, o.withFloor side f, ?_, ?_, ?_⟩
  · exact List.forall_mem_cons.2 ⟨rfl, hevents⟩
  · exact (History.nil.snoc (.renew side walks)).append hhistory
  · rw [Office.hasFloor_withFloor.session, hsession]

end History

end SecretFill
