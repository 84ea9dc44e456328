import SecretFill.Desk
import SecretFill.Walk

namespace SecretFill

/-!
# Walks side by side

Several walks run over one cache and one store.  A walk goes on until it has to wait, for its turn
or for the end of its fetch.  Walks that can go on do so in the order of the list; only when none
can does time pass.

* `Status` — how far a walk is.
* `World` — what the walks share.
* `Status.poll` — lets one walk go on as far as it can.
* `Schedule.run` — runs all walks until they are finished or one of them stops the others.
-/

variable {α σ : Type}

/-- How far a walk is. -/
inductive Status (α : Type) where
  /-- It can go on. -/
  | ready (walk : Walk α)
  /-- It stands in line for a key. -/
  | inLine (key : Key) (resume : Except Failure String → Walk α)
  /-- Its fetch is over at the time `due`. -/
  | fetching (key : Key) (due : Nat) (outcome : Except Failure String)
    (resume : Except Failure String → Walk α)
  /-- It has a result. -/
  | finished (result : α)

/-- The result of a walk that is finished. -/
def Status.result? : Status α → Option α
  | .finished result => some result
  | _ => none

/-- What the walks share. -/
structure World (σ : Type) where
  /-- The cache and the lines before it. -/
  desk : Desk
  /-- The state of the store. -/
  store : σ
  /-- The time in milliseconds. -/
  clock : Nat

/-- A store that knows which walk asks. -/
abbrev Source (σ : Type) := Nat → Store σ

/-- The turn of a walk for a key.  A fetch that takes no time is over at once. -/
def World.turn (source : Source σ) (caller : Nat) (key : Key)
    (resume : Except Failure String → Walk α)
    (go : Except Failure String → World σ → Status α × World σ) (w : World σ) :
    Status α × World σ :=
  match w.desk.begin caller key with
  | (desk, some secret) => go (.ok secret) { w with desk }
  | (desk, none) =>
    let (reply, store) := source caller key w.store
    if reply.delay = 0 then
      let (desk, answer) := desk.finish caller key reply.outcome
      go answer { w with desk, store }
    else
      (.fetching key (w.clock + reply.delay) reply.outcome resume, { w with desk, store })

/-- Lets a walk go on until it has to wait. -/
def Walk.advance (source : Source σ) (caller : Nat) : Walk α → World σ → Status α × World σ
  | .done result, w => (.finished result, w)
  | .note _ next, w => next.advance source caller w
  | .ask key resume, w =>
    match w.desk.ask caller key with
    | (desk, .cached secret) => (resume (.ok secret)).advance source caller { w with desk }
    | (desk, .wait) => (.inLine key resume, { w with desk })
    | (desk, .turn) =>
      World.turn source caller key resume (fun answer => (resume answer).advance source caller)
        { w with desk }

namespace Status

/-- Whether a walk can go on. -/
def canGoOn (caller : Nat) (w : World σ) : Status α → Bool
  | ready _ => true
  | inLine key _ => w.desk.isTurn caller key
  | fetching _ due .. => due ≤ w.clock
  | finished _ => false

/-- Lets a walk go on as far as it can. -/
def poll (source : Source σ) (caller : Nat) (s : Status α) (w : World σ) : Status α × World σ :=
  if s.canGoOn caller w then
    match s with
    | ready walk => walk.advance source caller w
    | inLine key resume =>
      World.turn source caller key resume (fun answer => (resume answer).advance source caller) w
    | fetching key _ outcome resume =>
      let (desk, answer) := w.desk.finish caller key outcome
      (resume answer).advance source caller { w with desk }
    | finished result => (finished result, w)
  else (s, w)

end Status

namespace Schedule

/-- Polls the walks behind those in `before` in order, until the state of all makes the run halt. -/
def pass (source : Source σ) (halts : List (Status α) → Bool) (before : List (Status α)) :
    List (Status α) → World σ → List (Status α) × World σ × Bool
  | [], w => (before, w, false)
  | s :: rest, w =>
    let (s, w) := s.poll source before.length w
    let all := before ++ s :: rest
    if halts all then (all, w, true) else pass source halts (before ++ [s]) rest w

/-- Whether one of the walks behind the first `caller` ones can go on. -/
def anyCanGoOn (w : World σ) : Nat → List (Status α) → Bool
  | _, [] => false
  | caller, s :: rest => s.canGoOn caller w || anyCanGoOn w (caller + 1) rest

/-- The earliest time at which a fetch is over. -/
def nextDue? (statuses : List (Status α)) : Option Nat :=
  (statuses.filterMap fun
    | .fetching _ due .. => some due
    | _ => none).min?

/-- Passes over the walks at most `fuel` times, and lets time pass where no walk can go on. -/
def loop (source : Source σ) (halts : List (Status α) → Bool) :
    Nat → List (Status α) → World σ → List (Status α) × World σ
  | 0, statuses, w => (statuses, w)
  | fuel + 1, statuses, w =>
    match pass source halts [] statuses w with
    | (statuses, w, true) => (statuses, w)
    | (statuses, w, false) =>
      -- A walk may have handed its turn to one that was passed already, so all are passed again
      -- before time goes on.
      if anyCanGoOn w 0 statuses then loop source halts fuel statuses w
      else
        match nextDue? statuses with
        | none => (statuses, w)
        | some due => loop source halts fuel statuses { w with clock := due }

/-- Runs walks from the start over a cache and a store.  In every pass a walk goes on, so there are
    at most three for each secret that a walk asks for, and one more for each walk. -/
def run (source : Source σ) (halts : List (Status α) → Bool) (asks : Nat) (walks : List (Walk α))
    (s : Session σ) : List (Status α) × Session σ :=
  let fuel := 3 * asks + walks.length + 1
  let (statuses, w) := loop source halts fuel (walks.map .ready) ⟨.idle s.cache, s.store, 0⟩
  (statuses, ⟨w.desk.cache, w.store⟩)

end Schedule

end SecretFill
