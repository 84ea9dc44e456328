import SecretFill.Proofs.Lines

namespace SecretFill

open Relation (ReflTransGen)

/-!
# Polls are steps

What `Schedule` does with a walk when it lets it on is a row of steps of `Proofs.Interleaving`, all
of them steps of this walk.

* `Status.stage`, `World.floor` — a status and a world, seen as a stage and a floor.
* `World.turn_goes`, `Walk.advance_goes` — the turn of a walk, and a walk that is let on.
* `Schedule.poll_goes` — a walk that is polled among others.
-/

variable {α σ : Type} {source : Source σ}

/-! ### Statuses as stages -/

/-- The stage of a walk with a status. -/
def Status.stage : Status α → Stage α
  | ready walk => .going walk
  | inLine key resume => .inLine key resume
  | fetching key _ outcome resume => .fetching key outcome resume
  | finished result => .finished result

/-- The floor that a world is, with walks at these stages. -/
def World.floor (w : World σ) (stages : List (Stage α)) : Floor α σ := ⟨w.desk, w.store, stages⟩

/-- The floor that a schedule stands on. -/
def Schedule.floor (statuses : List (Status α)) (w : World σ) : Floor α σ :=
  w.floor (statuses.map Status.stage)

/-- The floor when one walk has come to a status. -/
def World.settle (stages : List (Stage α)) (i : Nat) (p : Status α × World σ) : Floor α σ :=
  (p.2.floor stages).put i p.1.stage

/-- Any number of steps of one walk. -/
def Goes (source : Source σ) (i : Nat) : Floor α σ → Floor α σ → Prop := ReflTransGen (Go source i)

theorem Goes.runs {i : Nat} {f g : Floor α σ} (h : Goes source i f g) : Runs source f g :=
  Relation.ReflTransGen.mono (fun _ _ hgo => ⟨i, hgo⟩) _ _ h

/-! ### The turn of a walk -/

section Turn

variable {caller : Nat} {key : Key} {resume : Except Failure String → Walk α}
  {go : Except Failure String → World σ → Status α × World σ} {w : World σ}

/-- When its turn to fetch has come, before the store is asked. -/
def World.counted (w : World σ) : Desk := { w.desk with cache := w.desk.cache.countFetch }

theorem World.turn_hit {secret : String} (h : w.desk.cache.usable? key = some secret) :
    w.turn source caller key resume go
      = go (.ok secret) { w with desk := w.desk.leave caller key } := by
  simp only [World.turn, Desk.begin_some h]

/-- A fetch that takes no time. -/
theorem World.turn_prompt (h : w.desk.cache.usable? key = none)
    (hdelay : (source caller key w.store).1.delay = 0) :
    w.turn source caller key resume go
      = go (trimmed (source caller key w.store).1.outcome)
        ⟨(w.counted.finish caller key (source caller key w.store).1.outcome).1,
          (source caller key w.store).2, w.clock⟩ := by
  simp only [World.turn, Desk.begin_none h, hdelay, if_true, Desk.finish_eq, World.counted]

/-- A fetch that takes time. -/
theorem World.turn_fetch (h : w.desk.cache.usable? key = none)
    (hdelay : (source caller key w.store).1.delay ≠ 0) :
    w.turn source caller key resume go
      = (.fetching key (w.clock + (source caller key w.store).1.delay)
          (source caller key w.store).1.outcome resume,
        ⟨w.counted, (source caller key w.store).2, w.clock⟩) := by
  simp only [World.turn, Desk.begin_none h, hdelay, if_false, World.counted]

end Turn

/-- To ask is to find a usable secret, or to stand in line and have the turn if it was empty. -/
theorem Walk.advance_ask (caller : Nat) (key : Key) (resume : Except Failure String → Walk α)
    (w : World σ) :
    (Walk.ask key resume).advance source caller w =
      match w.desk.cache.usable? key with
      | some secret => (resume (.ok secret)).advance source caller w
      | none =>
        if (w.desk.line key).isEmpty then
          World.turn source caller key resume
            (fun answer => (resume answer).advance source caller)
            { w with desk := w.desk.enter caller key }
        else (.inLine key resume, { w with desk := w.desk.enter caller key }) := by
  rw [Walk.advance, Desk.ask_eq]
  cases w.desk.cache.usable? key with
  | some secret => rfl
  | none => cases (w.desk.line key).isEmpty <;> rfl

/-! ### One walk is let on -/

section Advance

variable {stages : List (Stage α)} {i : Nat} {key : Key} {resume : Except Failure String → Walk α}

theorem Floor.put_put (f : Floor α σ) (i : Nat) (stage stage' : Stage α) :
    (f.put i stage).put i stage' = f.put i stage' := by
  simp only [put, List.set_set]

/-- A stage that was just put is there. -/
theorem World.floor_at (w : World σ) (hi : i < stages.length) (stage : Stage α) :
    ((w.floor stages).put i stage).stages[i]? = some stage :=
  List.getElem?_set_self hi

/-- **The turn of a walk** consists of steps of this walk, provided it goes on with steps of its own
    whatever the answer is. -/
theorem World.turn_goes (w : World σ) (hi : i < stages.length)
    (hturn : w.desk.isTurn i key = true)
    (hresume : ∀ answer (w : World σ),
      Goes source i ((w.floor stages).put i (.going (resume answer)))
      (settle stages i ((resume answer).advance source i w))) :
    Goes source i ((w.floor stages).put i (.inLine key resume))
      (settle stages i (w.turn source i key resume
        fun answer => (resume answer).advance source i)) := by
  have hat := w.floor_at hi (.inLine key resume)
  cases hu : w.desk.cache.usable? key with
  | some secret =>
    have hgo : Go source i _ _ := .join hat hturn (Desk.begin_snd.trans hu)
    have hb : ((w.floor stages).put i (.inLine key resume)).desk.begin i key
        = (w.desk.leave i key, some secret) := Desk.begin_some hu
    rw [hb] at hgo
    rw [turn_hit hu]
    refine .head hgo ?_
    show Goes source i (((World.floor { w with desk := w.desk.leave i key } stages).put i
      (.inLine key resume)).put i (.going (resume (.ok secret)))) _
    rw [Floor.put_put]
    exact hresume (.ok secret) _
  | none =>
    let fetched : World σ := ⟨w.counted, (source i key w.store).2, w.clock⟩
    -- The fetch begins in any case; if it takes no time, it also ends within the turn.
    have hstart : Go source i ((w.floor stages).put i (.inLine key resume))
        ((fetched.floor stages).put i
          (.fetching key (source i key w.store).1.outcome resume)) := by
      have hgo : Go source i _ _ := .start hat hturn (Desk.begin_snd.trans hu)
      have hb : ((w.floor stages).put i (.inLine key resume)).desk.begin i key
          = (w.counted, none) := Desk.begin_none hu
      rw [hb] at hgo
      rw [← Floor.put_put (fetched.floor stages) i (.inLine key resume)]
      exact hgo
    by_cases hdelay : (source i key w.store).1.delay = 0
    · have hgo : Go source i _ _ := .finish
        (fetched.floor_at hi (.fetching key (source i key w.store).1.outcome resume))
      have hb : ((fetched.floor stages).put i
          (.fetching key (source i key w.store).1.outcome resume)).desk.finish i key
            (source i key w.store).1.outcome
          = ((w.counted.finish i key (source i key w.store).1.outcome).1,
            trimmed (source i key w.store).1.outcome) := by
        rw [Desk.finish_eq]
        rfl
      rw [hb] at hgo
      rw [turn_prompt hu hdelay]
      refine .head hstart (.head hgo ?_)
      have hrest := hresume (trimmed (source i key w.store).1.outcome)
        ⟨(w.counted.finish i key (source i key w.store).1.outcome).1, (source i key w.store).2,
          w.clock⟩
      rw [← Floor.put_put _ i (.fetching key (source i key w.store).1.outcome resume)] at hrest
      exact hrest
    · rw [turn_fetch hu hdelay]
      exact .single hstart

/-- **A walk that is let on** takes steps of its own, and nobody else takes any. -/
theorem Walk.advance_goes (walk : Walk α) (w : World σ) (hi : i < stages.length) :
    Goes source i ((w.floor stages).put i (.going walk))
      (World.settle stages i (walk.advance source i w)) := by
  -- By induction on the walk: with any answer it goes on as a smaller one.
  induction walk generalizing w with
  | done result =>
    have hgo : Go source i _ _ := .done (w.floor_at hi (.going (.done result)))
    rw [Floor.put_put] at hgo
    exact .single hgo
  | note notice next ih =>
    have hgo : Go source i _ _ := .note (w.floor_at hi (.going (.note notice next)))
    rw [Floor.put_put] at hgo
    exact .head hgo (ih w)
  | ask key resume ih =>
    have hat := w.floor_at hi (.going (.ask key resume))
    rw [advance_ask]
    cases hu : w.desk.cache.usable? key with
    | some secret =>
      have hgo : Go source i _ _ := .hit hat hu
      rw [Floor.put_put] at hgo
      exact .head hgo (ih (.ok secret) w)
    | none =>
      have hmiss : Go source i _ _ := .miss hat hu
      rw [Floor.put_put] at hmiss
      have henter : Go source i _ _ := .enter (w.floor_at hi (.missed key resume))
      let entered : World σ := { w with desk := w.desk.enter i key }
      -- Nothing was found, so the walk stands in line, in two steps.
      have hboth : Goes source i ((w.floor stages).put i (.going (.ask key resume)))
          ((entered.floor stages).put i (.inLine key resume)) := by
        refine .head hmiss (.single ?_)
        rw [← Floor.put_put (entered.floor stages) i (.missed key resume)]
        exact henter
      cases hl : (w.desk.line key).isEmpty with
      | false => exact hboth
      | true =>
        have hturn : entered.desk.isTurn i key = true := by
          rw [Desk.isTurn_iff, Desk.line_enter, if_pos rfl, List.isEmpty_iff.1 hl]
          rfl
        exact .trans hboth (entered.turn_goes hi hturn ih)

/-- **A walk that is polled** takes steps of its own, or none. -/
theorem Status.poll_goes (s : Status α) (w : World σ) (hi : i < stages.length) :
    Goes source i ((w.floor stages).put i s.stage)
      (World.settle stages i (s.poll source i w)) := by
  unfold poll
  split
  · rename_i hcan
    cases s with
    | ready walk => exact walk.advance_goes w hi
    | inLine key resume =>
      exact w.turn_goes hi hcan fun answer w => (resume answer).advance_goes w hi
    | fetching key due outcome resume =>
      -- The end of the fetch is one step, and the walk goes on from there.
      have hgo : Go source i _ _ := .finish (w.floor_at hi (.fetching key outcome resume))
      have hb : ((w.floor stages).put i (.fetching key outcome resume)).desk.finish i key outcome
          = w.desk.finish i key outcome := rfl
      rw [hb] at hgo
      refine .head hgo ?_
      have hrest : Goes source i _ _ := (resume (w.desk.finish i key outcome).2).advance_goes
        { w with desk := (w.desk.finish i key outcome).1 } hi
      rw [← Floor.put_put _ i (.fetching key outcome resume)] at hrest
      exact hrest
    | finished result => exact .refl
  · exact .refl

end Advance

/-- A walk that cannot go on stays as it is. -/
theorem Status.poll_eq {s : Status α} {caller : Nat} {w : World σ}
    (h : s.canGoOn caller w = false) : s.poll source caller w = (s, w) := by
  unfold poll
  rw [h]
  rfl

/-! ### One walk among others -/

namespace Schedule

/-- A walk that gets another status gets its stage. -/
theorem floor_set (statuses : List (Status α)) (i : Nat) (s : Status α) (w : World σ) :
    floor (statuses.set i s) w = (floor statuses w).put i s.stage := by
  unfold floor World.floor Floor.put
  rw [List.map_set]

theorem stage_floor {statuses : List (Status α)} {i : Nat} {s : Status α}
    (at_ : statuses[i]? = some s) (w : World σ) :
    (floor statuses w).stages[i]? = some s.stage := by
  show (statuses.map Status.stage)[i]? = some s.stage
  rw [List.getElem?_map, at_]
  rfl

/-- A walk at a stage has a status of this stage. -/
theorem exists_status {statuses : List (Status α)} {w : World σ} {i : Nat} {stage : Stage α}
    (at_ : (floor statuses w).stages[i]? = some stage) :
    ∃ s, statuses[i]? = some s ∧ s.stage = stage := by
  have hmap : (statuses.map Status.stage)[i]? = some stage := at_
  rw [List.getElem?_map] at hmap
  exact Option.map_eq_some_iff.1 hmap

/-- A walk that is polled among others takes steps of its own, or none. -/
theorem poll_goes {statuses : List (Status α)} {i : Nat} {s : Status α}
    (at_ : statuses[i]? = some s) (w : World σ) :
    Goes source i (floor statuses w)
      (floor (statuses.set i (s.poll source i w).1) (s.poll source i w).2) := by
  obtain ⟨hlt, hget⟩ := List.getElem?_eq_some_iff.1 (stage_floor at_ w)
  have hgoes : Goes source i _ _ := s.poll_goes w hlt
  -- Putting a walk to the stage where it is changes nothing.
  have hsame : (w.floor (floor statuses w).stages).put i s.stage = floor statuses w := by
    show Floor.mk w.desk w.store ((floor statuses w).stages.set i s.stage) = floor statuses w
    rw [← hget, List.set_getElem_self]
    rfl
  rw [hsame] at hgoes
  rw [floor_set]
  exact hgoes

end Schedule

end SecretFill
