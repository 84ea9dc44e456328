import SecretFill.Proofs.Polling

namespace SecretFill

/-!
# A schedule is one of the orders

A pass polls the walks in order, and a loop repeats it.  So what every poll keeps, a loop keeps, and
all that holds in every order of steps holds of a schedule.

* `Schedule.pass_induct`, `Schedule.loop_induct` — what every poll keeps, passes and loops keep.
* `Schedule.loop_induct_after` — the same, when the first pass is different.
* `Schedule.loop_runs`, `Schedule.run_runs` — a loop is a run, and so is a schedule.
-/

variable {α σ : Type} {source : Source σ}

namespace Schedule

/-- **A pass** polls the walks in order, so what each poll takes from one index to the next holds
    where the pass stops; unless it is halted, that is at the end. -/
theorem pass_induct {P : Nat → List (Status α) → World σ → Prop}
    (halts : List (Status α) → Bool)
    (hpoll : ∀ i statuses w s, statuses[i]? = some s → P i statuses w →
      P (i + 1) (statuses.set i (s.poll source i w).1) (s.poll source i w).2)
    (before rest : List (Status α)) (w : World σ) (h : P before.length (before ++ rest) w) :
    ∃ i, P i (pass source halts before rest w).1 (pass source halts before rest w).2.1 ∧
      ((pass source halts before rest w).2.2 = false → i = before.length + rest.length) := by
  induction rest generalizing before w with
  | nil =>
    rw [List.append_nil] at h
    exact ⟨before.length, h, fun _ => rfl⟩
  | cons s rest ih =>
    have hat : (before ++ s :: rest)[before.length]? = some s := by
      rw [List.getElem?_append_right (Nat.le_refl _), Nat.sub_self]
      rfl
    have hnext := hpoll _ _ _ _ hat h
    -- After the poll this walk is one of those in front of the rest.
    have hset : (before ++ s :: rest).set before.length (s.poll source before.length w).1
        = before ++ (s.poll source before.length w).1 :: rest := by
      rw [List.set_append_right _ _ (Nat.le_refl _), Nat.sub_self]
      rfl
    rw [hset] at hnext
    simp only [pass]
    split
    · exact ⟨_, hnext, by simp⟩
    · have hrest := ih (before ++ [(s.poll source before.length w).1]) _ (by simpa using hnext)
      obtain ⟨i, hi, hend⟩ := hrest
      refine ⟨i, hi, fun hfalse => ?_⟩
      rw [hend hfalse, List.length_append, List.length_cons, List.length_cons, List.length_nil]
      omega

/-- A pass is halted by the walks that it leaves. -/
theorem pass_halts {statuses : List (Status α)} {w : World σ} (halts : List (Status α) → Bool)
    (before : List (Status α)) (h : (pass source halts before statuses w).2.2 = true) :
    halts (pass source halts before statuses w).1 = true := by
  induction statuses generalizing before w with
  | nil => exact absurd h (by simp [pass])
  | cons s rest ih =>
    simp only [pass] at h ⊢
    split
    · rename_i hhalts
      exact hhalts
    · rename_i hhalts
      rw [if_neg hhalts] at h
      exact ih _ h

/-- **A loop** keeps what every poll keeps, at all times. -/
theorem loop_induct {Q : List (Status α) → World σ → Prop} (halts : List (Status α) → Bool)
    (hpoll : ∀ i statuses w s, statuses[i]? = some s → Q statuses w →
      Q (statuses.set i (s.poll source i w).1) (s.poll source i w).2)
    (hclock : ∀ statuses w time, Q statuses w → Q statuses { w with clock := time })
    (fuel : Nat) (statuses : List (Status α)) (w : World σ) (h : Q statuses w) :
    Q (loop source halts fuel statuses w).1 (loop source halts fuel statuses w).2 := by
  induction fuel generalizing statuses w with
  | zero => exact h
  | succ fuel ih =>
    -- A pass keeps it, and so does the clock when it is put forward between two passes.
    obtain ⟨-, hpass, -⟩ :=
      pass_induct (P := fun _ => Q) halts hpoll [] statuses w h
    rw [loop]
    split
    · rename_i hp
      rw [hp] at hpass
      exact hpass
    · rename_i statuses' w' hp
      rw [hp] at hpass
      split
      · exact ih statuses' w' hpass
      · split
        · exact hpass
        · exact ih statuses' _ (hclock _ _ _ hpass)

/-- **After the first pass** a loop that nothing halts keeps what every poll keeps, if that holds
    where the first pass ends. -/
theorem loop_induct_after {P : Nat → List (Status α) → World σ → Prop}
    {Q : List (Status α) → World σ → Prop}
    (hfirst : ∀ i statuses w s, statuses[i]? = some s → P i statuses w →
      P (i + 1) (statuses.set i (s.poll source i w).1) (s.poll source i w).2)
    (hpoll : ∀ i statuses w s, statuses[i]? = some s → Q statuses w →
      Q (statuses.set i (s.poll source i w).1) (s.poll source i w).2)
    (hclock : ∀ statuses w time, Q statuses w → Q statuses { w with clock := time })
    (fuel : Nat) (statuses : List (Status α)) (w : World σ) (h : P 0 statuses w)
    (hnext : ∀ statuses' w', P statuses.length statuses' w' → Q statuses' w') :
    Q (loop source (fun _ => false) (fuel + 1) statuses w).1
      (loop source (fun _ => false) (fuel + 1) statuses w).2 := by
  obtain ⟨i, hpass, hend⟩ := pass_induct (fun _ => false) hfirst [] statuses w h
  -- Nothing halts, so the first pass gets to the last of the walks.
  have hgoes : (pass source (fun _ => false) [] statuses w).2.2 = false := by
    refine Bool.eq_false_iff.2 fun hhalted => ?_
    exact absurd (pass_halts (fun _ => false) [] hhalted) (by decide)
  have hlength : i = statuses.length := by
    rw [hend hgoes]
    exact Nat.zero_add _
  rw [hlength] at hpass
  rw [loop]
  split
  · rename_i hp
    rw [hp] at hgoes
    cases hgoes
  · rename_i statuses' w' hp
    rw [hp] at hpass
    have hQ : Q statuses' w' := hnext statuses' w' hpass
    split
    · exact loop_induct _ hpoll hclock fuel statuses' w' hQ
    · split
      · exact hQ
      · exact loop_induct _ hpoll hclock fuel statuses' _ (hclock _ _ _ hQ)

/-- **A schedule is a run.**  A loop takes its walks from floor to floor by steps. -/
theorem loop_runs (halts : List (Status α) → Bool) (fuel : Nat) (statuses : List (Status α))
    (w : World σ) :
    Runs source (floor statuses w) (floor (loop source halts fuel statuses w).1
      (loop source halts fuel statuses w).2) := by
  refine loop_induct (Q := fun statuses' w' =>
    Runs source (floor statuses w) (floor statuses' w')) halts ?_ (fun _ _ _ h => h) fuel statuses w
    .refl
  intro i statuses' w' s hat hruns
  exact Relation.ReflTransGen.trans hruns (poll_goes hat w').runs

/-- Walks that are all ready at an idle desk have not begun. -/
theorem floor_ready (walks : List (Walk α)) (s : Session σ) :
    floor (walks.map .ready) ⟨.idle s.cache, s.store, 0⟩ = Floor.start walks s := by
  unfold floor World.floor Floor.start
  rw [List.map_map]
  rfl

/-- The walks of a schedule and its session, at the end, are those of a floor that a run reaches. -/
theorem run_runs (source : Source σ) (halts : List (Status α) → Bool) (asks : Nat)
    (walks : List (Walk α)) (s : Session σ) :
    ∃ f, Runs source (Floor.start walks s) f ∧ f.session = (run source halts asks walks s).2 ∧
      f.stages = (run source halts asks walks s).1.map Status.stage := by
  have hruns : Runs source _ _ := loop_runs halts (3 * asks + walks.length + 1)
    (walks.map .ready) ⟨.idle s.cache, s.store, 0⟩
  rw [floor_ready] at hruns
  exact ⟨_, hruns, rfl, rfl⟩

end Schedule

end SecretFill
