import SecretFill.Proofs.ConstantStore

namespace SecretFill

/-!
# Every order comes to an end

Over a constant store each step takes a walk closer to its end, whoever takes it.  So walks cannot
go on forever, and where no step is left all of them are finished.

* `Stage.steps`, `Floor.todo` — the steps that a walk, and all walks, have still to take.
* `Floor.Steady.todo_of_go` — one step leaves less to do.
* `Floor.Steady.acc` — there is no endless order of steps.
* `Floor.Orderly.isDone` — where no step is left, all walks are finished.
-/

variable {α σ : Type} {store : Store σ} {outcome : Key → Except Failure String}

namespace Stage

/-- How many steps a walk will still take when it gets settled answers. -/
def steps (answer : Key → Except Failure String) : Stage α → Nat
  | going walk => count walk
  | missed key resume => count (resume (answer key)) + 3
  | inLine key resume => count (resume (answer key)) + 2
  | fetching key _ resume => count (resume (answer key)) + 1
  | finished _ | dropped => 0
where
  /-- The steps of a walk, four for each secret that has to be fetched. -/
  count : Walk α → Nat
    | .done _ => 1
    | .note _ next => count next + 1
    | .ask key resume => count (resume (answer key)) + 4

end Stage

namespace Floor

variable {f g : Floor α σ} {c : Cache} {i : Nat} {old new : Stage α}

/-- What walks on a floor have still to do. -/
def todo (f : Floor α σ) (answer : Key → Except Failure String) : Nat :=
  Stage.total (Stage.steps answer) f.stages

theorem todo_lt {answer : Key → Except Failure String} (at_ : f.stages[i]? = some old)
    (hg : g.stages = f.stages.set i new) (hsteps : new.steps answer < old.steps answer) :
    g.todo answer < f.todo answer := by
  have htotal : Stage.total (Stage.steps answer) (f.stages.set i new) + old.steps answer
      = Stage.total (Stage.steps answer) f.stages + new.steps answer := Stage.total_set _ at_
  unfold todo
  rw [hg]
  omega

namespace Steady

/-- **One step** leaves less to do. -/
theorem todo_of_go (h : f.Steady store outcome c) (hgo : Go (fun _ => store) i f g) :
    g.todo (c.answer outcome) < f.todo (c.answer outcome) := by
  have hanswer : ∀ {key secret}, f.desk.cache.usable? key = some secret →
      c.answer outcome key = .ok secret := by
    intro key secret hu
    rw [← h.answer]
    exact Cache.answer_of_some hu
  cases hgo with
  | note at_ => exact todo_lt at_ rfl (Nat.lt_succ_self _)
  | done at_ => exact todo_lt at_ rfl Nat.one_pos
  | miss at_ found => exact todo_lt at_ rfl (Nat.lt_succ_self _)
  | enter at_ => exact todo_lt at_ rfl (Nat.lt_succ_self _)
  | hit at_ found =>
    refine todo_lt at_ rfl ?_
    -- A secret that is found saves the steps to fetch it.
    simp only [Stage.steps, Stage.steps.count, hanswer found]
    omega
  | join at_ turn found =>
    rw [Desk.begin_snd] at found
    refine todo_lt at_ rfl ?_
    simp only [Stage.steps, hanswer found]
    omega
  | start at_ turn found => exact todo_lt at_ rfl (Nat.lt_succ_self _)
  | @finish key o resume at_ =>
    obtain rfl : o = outcome key := h.fetches i key o resume at_
    have hnone := (h.orderly.fetcher i key ⟨_, _, at_⟩).2
    have hsame : c.answer outcome key = trimmed (outcome key) := by
      rw [← h.answer]
      exact Cache.answer_of_none hnone
    refine todo_lt at_ rfl ?_
    simp only [Stage.steps, hsame, Desk.finish_eq]
    omega

/-- **Every order of steps** comes to an end. -/
theorem acc (h : f.Steady store outcome c) :
    Acc (fun g f => ∃ i, Go (fun _ => store) i f g) f := by
  -- By induction on what there is still to do.
  induction hn : f.todo (c.answer outcome) using Nat.strongRecOn generalizing f with
  | ind n ih =>
    subst hn
    refine .intro f fun g hstep => ?_
    obtain ⟨i, hgo⟩ := hstep
    exact ih _ (h.todo_of_go hgo) (h.of_go hgo) rfl

end Steady

/-- Walks that cannot go on are finished, if none was dropped. -/
theorem Orderly.isDone {f : Floor α σ} (h : f.Orderly) (source : Source σ)
    (hstages : Stage.dropped ∉ f.stages) (hstuck : ¬ ∃ i g, Go source i f g) :
    f.IsDone := by
  intro stage hmem
  obtain ⟨i, hat⟩ := List.mem_iff_getElem?.1 hmem
  cases stage with
  | finished result => exact ⟨result, rfl⟩
  | dropped => exact absurd hmem hstages
  | going | missed | inLine | fetching =>
    have hgo : ∃ j g, Go source j f g := h.exists_go source hat trivial
    exact absurd hgo hstuck

end Floor

end SecretFill
