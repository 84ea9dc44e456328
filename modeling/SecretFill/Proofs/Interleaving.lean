import Mathlib.Logic.Relation
import SecretFill.Proofs.Cache
import SecretFill.Schedule

namespace SecretFill

open Relation (ReflTransGen)

/-!
# Walks between whose steps anything may happen

`Schedule` runs walks in one order.  Here the order is left open: between any two steps of a walk
the others may do whatever they can, and a walk may be dropped at any moment.  Also the two looks
into the cache are apart: a walk that found nothing stands in line only later.

* `Stage`, `Floor` — how far each walk is, and the desk and the store before which they stand.
* `Go` — one step of one walk; `Step` — a step, or the end of a walk that is dropped.
* `Runs`, `Steps` — any number of steps, without and with walks that are dropped.
* `Go.cache_cases`, `Steps.cache_induct` — what steps do to the cache, and what they keep of it.
-/

variable {α σ : Type}

/-! ### Standing in line -/

namespace Desk

variable {d : Desk} {caller other : Nat} {key k : Key}

/-- A caller stands at the end of the line for a key. -/
def enter (d : Desk) (caller : Nat) (key : Key) : Desk := d.withLine key (d.line key ++ [caller])

/-- To ask is to look, and to stand in line if nothing was found. -/
theorem ask_eq (d : Desk) (caller : Nat) (key : Key) :
    d.ask caller key =
      match d.cache.usable? key with
      | some secret => (d, .cached secret)
      | none => (d.enter caller key, if (d.line key).isEmpty then .turn else .wait) := rfl

theorem line_enter : (d.enter caller key).line k
    = if k = key then d.line key ++ [caller] else d.line k := rfl

theorem line_leave : (d.leave caller key).line k
    = if k = key then (d.line key).erase caller else d.line k := rfl

theorem isTurn_iff : d.isTurn caller key = true ↔ (d.line key).head? = some caller := by
  simp [isTurn]

/-- One caller at a time has the turn for a key. -/
theorem isTurn_unique (h : d.isTurn caller key = true) (h' : d.isTurn other key = true) :
    caller = other := by
  rw [isTurn_iff] at h h'
  exact Option.some.inj (h.symm.trans h')

theorem mem_line_of_isTurn (h : d.isTurn caller key = true) : caller ∈ d.line key :=
  List.mem_of_head? (isTurn_iff.1 h)

/-- Who comes later does not take the turn away. -/
theorem isTurn_enter (h : d.isTurn caller k = true) :
    (d.enter other key).isTurn caller k = true := by
  rw [isTurn_iff] at h ⊢
  rw [line_enter]
  split
  · rename_i hk
    subst hk
    rw [List.head?_append, h]
    rfl
  · exact h

/-- Who leaves takes the turn from nobody else. -/
theorem isTurn_leave (h : d.isTurn caller k = true) (hne : caller ≠ other) :
    (d.leave other key).isTurn caller k = true := by
  rw [isTurn_iff] at h ⊢
  rw [line_leave]
  split
  · rename_i hk
    subst hk
    cases hl : d.line k with
    | nil => rw [hl] at h; exact absurd h (by simp)
    | cons first rest =>
      rw [hl] at h
      -- The caller stands first, so another one is taken out behind it.
      have hfirst : first = caller := Option.some.inj h
      rw [List.erase_cons_tail (by simpa [hfirst] using hne), hfirst]
      rfl
  · exact h

theorem begin_some {secret : String} (h : d.cache.usable? key = some secret) :
    d.begin caller key = (d.leave caller key, some secret) := by
  simp only [begin, h]

theorem begin_none (h : d.cache.usable? key = none) :
    d.begin caller key = ({ d with cache := d.cache.countFetch }, none) := by
  simp only [begin, h]

/-- In its turn a caller meets what the cache can give. -/
theorem begin_snd : (d.begin caller key).2 = d.cache.usable? key := by
  cases h : d.cache.usable? key with
  | none => rw [begin_none h]
  | some secret => rw [begin_some h]

/-- A caller that meets a secret in its turn leaves, and the cache stays as it is. -/
theorem begin_fst_of_some {secret : String} (h : (d.begin caller key).2 = some secret) :
    (d.begin caller key).1 = d.leave caller key := by
  rw [begin_snd] at h
  rw [begin_some h]

/-- One that meets nothing begins to fetch, and the lines stay as they are. -/
theorem begin_fst_of_none (h : (d.begin caller key).2 = none) :
    (d.begin caller key).1 = { d with cache := d.cache.countFetch } := by
  rw [begin_snd] at h
  rw [begin_none h]

theorem finish_eq (d : Desk) (caller : Nat) (key : Key) (outcome : Except Failure String) :
    d.finish caller key outcome =
      ({ d with cache := (d.cache.finish key outcome).1 }.leave caller key, trimmed outcome) := by
  have hsnd : (d.cache.finish key outcome).2 = trimmed outcome := Cache.finish_snd
  unfold finish
  rw [← hsnd]

end Desk

/-! ### Stages and floors -/

/-- How far a walk is when anything may happen between two of its steps. -/
inductive Stage (α : Type) where
  /-- It is about to take a step. -/
  | going (walk : Walk α)
  /-- It found no usable secret and is about to stand in line. -/
  | missed (key : Key) (resume : Except Failure String → Walk α)
  /-- It stands in line for a key. -/
  | inLine (key : Key) (resume : Except Failure String → Walk α)
  /-- Its fetch has begun. -/
  | fetching (key : Key) (outcome : Except Failure String)
    (resume : Except Failure String → Walk α)
  /-- It has a result. -/
  | finished (result : α)
  /-- It was dropped before it had one. -/
  | dropped

namespace Stage

/-- The key in whose line a walk stands. -/
def place? : Stage α → Option Key
  | inLine key _ | fetching key .. => some key
  | _ => none

/-- What stages come to together, each of some size. -/
def total (size : Stage α → Nat) : List (Stage α) → Nat
  | [] => 0
  | stage :: rest => size stage + total size rest

/-- When one stage is replaced, so is its size in the total. -/
theorem total_set (size : Stage α → Nat) {stages : List (Stage α)} {i : Nat} {old new : Stage α}
    (at_ : stages[i]? = some old) :
    total size (stages.set i new) + size old = total size stages + size new := by
  induction stages generalizing i with
  | nil => exact absurd at_ (by simp)
  | cons first rest ih =>
    cases i with
    | zero =>
      obtain rfl : first = old := Option.some.inj at_
      simp only [List.set_cons_zero, total]
      omega
    | succ i =>
      have hrest := ih (i := i) at_
      simp only [List.set_cons_succ, total]
      omega

theorem total_eq_zero {size : Stage α → Nat} {stages : List (Stage α)}
    (h : ∀ stage ∈ stages, size stage = 0) : total size stages = 0 := by
  induction stages with
  | nil => rfl
  | cons first rest ih =>
    have hrest := ih fun stage hmem => h stage (List.mem_cons_of_mem first hmem)
    rw [total, h first List.mem_cons_self, hrest]

/-- Whether a walk is neither finished nor dropped. -/
def IsOpen : Stage α → Prop
  | finished _ | dropped => False
  | _ => True

end Stage

/-- Walks side by side before one desk and one store. -/
structure Floor (α σ : Type) where
  /-- The cache and the lines before it. -/
  desk : Desk
  /-- The state of the store. -/
  store : σ
  /-- How far each walk is. -/
  stages : List (Stage α)

namespace Floor

/-- Walks that have not begun. -/
def start (walks : List (Walk α)) (s : Session σ) : Floor α σ :=
  ⟨.idle s.cache, s.store, walks.map .going⟩

/-- The cache and the store, which is what remains when the walks are over or dropped. -/
def session (f : Floor α σ) : Session σ := ⟨f.desk.cache, f.store⟩

/-- One walk gets to another stage. -/
def put (f : Floor α σ) (i : Nat) (stage : Stage α) : Floor α σ :=
  { f with stages := f.stages.set i stage }

/-- Puts another desk before the walks. -/
def withDesk (f : Floor α σ) (desk : Desk) : Floor α σ := { f with desk }

/-- The desk when a walk leaves the line in which it stands, if it stands in one. -/
def deskWithout (f : Floor α σ) (i : Nat) (stage : Stage α) : Desk :=
  match stage.place? with
  | some key => f.desk.leave i key
  | none => f.desk

/-- A walk waits for a key that another one has. -/
def Waits (f : Floor α σ) (i : Nat) (key : Key) : Prop :=
  (∃ resume, f.stages[i]? = some (.inLine key resume)) ∧ f.desk.isTurn i key = false

/-- The fetch of a walk for a key is in flight. -/
def Fetches (f : Floor α σ) (i : Nat) (key : Key) : Prop :=
  ∃ outcome resume, f.stages[i]? = some (.fetching key outcome resume)

/-- All walks have their results. -/
def IsDone (f : Floor α σ) : Prop := ∀ stage ∈ f.stages, ∃ result, stage = .finished result

theorem isDone_of_stages {f : Floor α σ} {β : Type} {results : List β} {result : β → α}
    (h : f.stages = results.map fun r => .finished (result r)) : f.IsDone := by
  intro stage hmem
  rw [h] at hmem
  obtain ⟨r, -, rfl⟩ := List.mem_map.1 hmem
  exact ⟨result r, rfl⟩

end Floor

/-! ### Steps -/

/-- Walk `i` takes a step. -/
inductive Go (source : Source σ) (i : Nat) (f : Floor α σ) : Floor α σ → Prop where
  /-- It notes something. -/
  | note {notice : Log.Notice} {next : Walk α}
    (at_ : f.stages[i]? = some (.going (.note notice next))) : Go source i f (f.put i (.going next))
  /-- It comes to its end. -/
  | done {result : α} (at_ : f.stages[i]? = some (.going (.done result))) :
    Go source i f (f.put i (.finished result))
  /-- It finds a usable secret. -/
  | hit {key : Key} {resume : Except Failure String → Walk α} {secret : String}
    (at_ : f.stages[i]? = some (.going (.ask key resume)))
    (found : f.desk.cache.usable? key = some secret) :
    Go source i f (f.put i (.going (resume (.ok secret))))
  /-- It finds none. -/
  | miss {key : Key} {resume : Except Failure String → Walk α}
    (at_ : f.stages[i]? = some (.going (.ask key resume)))
    (found : f.desk.cache.usable? key = none) : Go source i f (f.put i (.missed key resume))
  /-- It stands in line. -/
  | enter {key : Key} {resume : Except Failure String → Walk α}
    (at_ : f.stages[i]? = some (.missed key resume)) :
    Go source i f ((f.withDesk (f.desk.enter i key)).put i (.inLine key resume))
  /-- In its turn it finds what another one fetched. -/
  | join {key : Key} {resume : Except Failure String → Walk α} {secret : String}
    (at_ : f.stages[i]? = some (.inLine key resume)) (turn : f.desk.isTurn i key = true)
    (found : (f.desk.begin i key).2 = some secret) :
    Go source i f ((f.withDesk (f.desk.begin i key).1).put i (.going (resume (.ok secret))))
  /-- In its turn it begins to fetch. -/
  | start {key : Key} {resume : Except Failure String → Walk α}
    (at_ : f.stages[i]? = some (.inLine key resume)) (turn : f.desk.isTurn i key = true)
    (found : (f.desk.begin i key).2 = none) :
    Go source i f (Floor.put ⟨(f.desk.begin i key).1, (source i key f.store).2, f.stages⟩ i
      (.fetching key (source i key f.store).1.outcome resume))
  /-- Its fetch is over. -/
  | finish {key : Key} {outcome : Except Failure String} {resume : Except Failure String → Walk α}
    (at_ : f.stages[i]? = some (.fetching key outcome resume)) :
    Go source i f ((f.withDesk (f.desk.finish i key outcome).1).put i
      (.going (resume (f.desk.finish i key outcome).2)))

/-- Some walk takes a step, or an open one is dropped. -/
inductive Step (source : Source σ) (f : Floor α σ) : Floor α σ → Prop where
  /-- A walk goes on. -/
  | go {i : Nat} {g : Floor α σ} (h : Go source i f g) : Step source f g
  /-- A walk is dropped, and leaves its line. -/
  | drop {i : Nat} {stage : Stage α} (at_ : f.stages[i]? = some stage) (isOpen : stage.IsOpen) :
    Step source f ((f.withDesk (f.deskWithout i stage)).put i .dropped)

/-- Any number of steps in any order, no walk being dropped. -/
def Runs (source : Source σ) : Floor α σ → Floor α σ → Prop :=
  ReflTransGen fun f g => ∃ i, Go source i f g

/-- Any number of steps in any order, with walks that are dropped. -/
def Steps (source : Source σ) : Floor α σ → Floor α σ → Prop := ReflTransGen (Step source)

/-- Runs are steps. -/
theorem Runs.steps {source : Source σ} {f g : Floor α σ} (h : Runs source f g) :
    Steps source f g :=
  Relation.ReflTransGen.mono (fun _ _ ⟨_, hgo⟩ => .go hgo) _ _ h

namespace Floor

variable {f : Floor α σ} {i j : Nat} {stage old : Stage α}

theorem stage_put_self (at_ : f.stages[i]? = some old) :
    (f.put i stage).stages[i]? = some stage := by
  obtain ⟨hlt, -⟩ := List.getElem?_eq_some_iff.1 at_
  exact List.getElem?_set_self hlt

theorem stage_put_of_ne (h : j ≠ i) : (f.put i stage).stages[j]? = f.stages[j]? :=
  List.getElem?_set_ne (Ne.symm h)

/-- When one walk was put to a stage, it is there, and every other one is where it was. -/
theorem of_stage_put (at_ : (f.put i stage).stages[j]? = some old) :
    (j = i ∧ old = stage) ∨ (j ≠ i ∧ f.stages[j]? = some old) := by
  by_cases hj : j = i
  · subst hj
    obtain ⟨hlt, hset⟩ := List.getElem?_eq_some_iff.1 at_
    refine .inl ⟨rfl, ?_⟩
    rw [← hset]
    exact List.getElem_set_self hlt
  · rw [stage_put_of_ne hj] at at_
    exact .inr ⟨hj, at_⟩

/-- Walks that have not begun fetch nothing. -/
theorem not_fetches_start (walks : List (Walk α)) (s : Session σ) (key : Key) :
    ¬ (Floor.start walks s).Fetches i key := by
  rintro ⟨outcome, resume, hat⟩
  have hmap : (walks.map Stage.going)[i]? = some (.fetching key outcome resume) := hat
  rw [List.getElem?_map] at hmap
  cases hw : walks[i]? <;> simp [hw] at hmap

/-- The key in whose line walk `i` stands. -/
def place? (f : Floor α σ) (i : Nat) : Option Key := f.stages[i]?.bind Stage.place?

theorem place?_of_at (at_ : f.stages[i]? = some stage) : f.place? i = stage.place? := by
  rw [place?, at_]
  rfl

theorem place?_put_self (at_ : f.stages[i]? = some old) :
    (f.put i stage).place? i = stage.place? := place?_of_at (stage_put_self at_)

theorem place?_put_of_ne (h : j ≠ i) : (f.put i stage).place? j = f.place? j := by
  rw [place?, place?, stage_put_of_ne h]

/-- A walk is dropped without a word to the cache. -/
theorem cache_deskWithout (f : Floor α σ) (i : Nat) (stage : Stage α) :
    (f.deskWithout i stage).cache = f.desk.cache := by
  unfold deskWithout
  split <;> rfl

end Floor

/-! ### What steps do to the cache -/

section Caches

variable {source : Source σ} {f g : Floor α σ} {i : Nat}

/-- **What one step does to the cache**: nothing, unless a fetch begins or comes to its end. -/
theorem Go.cache_cases (hgo : Go source i f g) :
    g.desk.cache = f.desk.cache ∨ g.desk.cache = f.desk.cache.countFetch ∨
    ∃ key outcome resume, f.stages[i]? = some (.fetching key outcome resume) ∧
      g.desk.cache = (f.desk.cache.finish key outcome).1 := by
  cases hgo with
  | note | done | hit | miss | enter => exact .inl rfl
  | join at_ turn found =>
    rw [Desk.begin_fst_of_some found]
    exact .inl rfl
  | start at_ turn found =>
    rw [Desk.begin_fst_of_none found]
    exact .inr (.inl rfl)
  | @finish key outcome resume at_ =>
    rw [Desk.finish_eq]
    exact .inr (.inr ⟨key, outcome, resume, at_, rfl⟩)

/-- So it is if walks may be dropped. -/
theorem Step.cache_cases (hstep : Step source f g) :
    g.desk.cache = f.desk.cache ∨ g.desk.cache = f.desk.cache.countFetch ∨
    ∃ (i : Nat), ∃ key outcome resume,
      f.stages[i]? = some (.fetching key outcome resume) ∧
        g.desk.cache = (f.desk.cache.finish key outcome).1 := by
  cases hstep with
  | @go i _ hgo => exact hgo.cache_cases.imp_right fun h => h.imp_right fun hended => ⟨i, hended⟩
  | @drop i stage at_ isOpen => exact .inl (f.cache_deskWithout i stage)

/-- **What fetches keep** of a cache, all steps keep. -/
theorem Steps.cache_induct {P : Cache → Prop} (hcount : ∀ c, P c → P c.countFetch)
    (hfinish : ∀ c key outcome, P c → P (c.finish key outcome).1) (hsteps : Steps source f g)
    (h : P f.desk.cache) : P g.desk.cache := by
  induction hsteps with
  | refl => exact h
  | tail _ hstep ih =>
    rcases hstep.cache_cases with hsame | hbegun | ⟨i, key, outcome, resume, -, hended⟩
    · exact hsame ▸ ih
    · exact hbegun ▸ hcount _ ih
    · exact hended ▸ hfinish _ key outcome ih

/-- Whether an empty secret counts as cached does not change. -/
theorem keepEmpty_of_steps (hsteps : Steps source f g) :
    g.desk.cache.keepEmpty = f.desk.cache.keepEmpty :=
  hsteps.cache_induct (P := fun c => c.keepEmpty = f.desk.cache.keepEmpty) (fun _ h => h)
    (fun _ _ _ h => Cache.keepEmpty_finish.trans h) rfl

end Caches

end SecretFill
