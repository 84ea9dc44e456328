import Mathlib.Data.Set.List
import SecretFill.Proofs.Passes

namespace SecretFill

/-!
# Schedules come to an end

A walk that is polled when it can go on comes closer to its end by a measure that the fuel of a
schedule covers.  So a schedule goes on until it is halted or all walks are finished.

* `Walk.AsksAtMost` — a bound on the secrets that a walk asks for, whatever the answers are.
* `Status.Within`, `Schedule.Budget` — the passes that a walk, and all of them, may still take.
* `Schedule.loop_ends` — a loop with enough fuel stops where it is halted or nobody can go on.
* `Schedule.run_ends` — with walks from the start, nobody can go on only if all are finished.
-/

variable {α β σ : Type} {source : Source σ}

/-! ### How often a walk asks -/

namespace Walk

/-- A walk asks for at most so many secrets, whatever the answers are. -/
def AsksAtMost : Walk α → Nat → Prop
  | done _, _ => True
  | note _ next, n => next.AsksAtMost n
  | ask _ resume, n => ∃ m, n = m + 1 ∧ ∀ answer, (resume answer).AsksAtMost m

theorem AsksAtMost.bind {w : Walk α} {f : α → Walk β} {n m : Nat} (h : w.AsksAtMost n)
    (hf : ∀ result, (f result).AsksAtMost m) : (w.bind f).AsksAtMost (n + m) := by
  induction w generalizing n with
  | done result =>
    show (f result).AsksAtMost (n + m)
    -- The first walk may have asked for less than it might, so the bound has to be raised.
    have hmono : ∀ (v : Walk β) (k : Nat), v.AsksAtMost k → v.AsksAtMost (n + k) := by
      intro v
      induction v with
      | done result => exact fun _ _ => trivial
      | note notice next ih => exact ih
      | ask key resume ih =>
        rintro k ⟨j, rfl, hj⟩
        exact ⟨n + j, by omega, fun answer => ih answer j (hj answer)⟩
    exact hmono (f result) m (hf result)
  | note notice next ih => exact ih h
  | ask key resume ih =>
    obtain ⟨k, rfl, hk⟩ := h
    exact ⟨k + m, by omega, fun answer => ih answer (hk answer)⟩

end Walk

/-! ### What a poll takes from the budget -/

namespace Status

/-- A walk will be done with in so many passes in which it goes on: three for each secret, to stand
    in line, to fetch, and to go on, and one to begin. -/
def Within : Status α → Nat → Prop
  | ready walk, n => ∃ asks, walk.AsksAtMost asks ∧ 3 * asks + 1 ≤ n
  | inLine _ resume, n => ∃ asks, (∀ answer, (resume answer).AsksAtMost asks) ∧ 3 * asks + 3 ≤ n
  | fetching _ _ _ resume, n =>
    ∃ asks, (∀ answer, (resume answer).AsksAtMost asks) ∧ 3 * asks + 2 ≤ n
  | finished _, _ => True

theorem Within.mono {s : Status α} {n m : Nat} (h : s.Within n) (hle : n ≤ m) : s.Within m := by
  cases s with
  | ready walk | inLine key resume | fetching key due outcome resume =>
    obtain ⟨asks, hasks, hbound⟩ := h
    exact ⟨asks, hasks, by omega⟩
  | finished result => trivial

/-- The turn of a walk takes it to its fetch, or past its question. -/
theorem turn_within {caller asks : Nat} {key : Key} {resume : Except Failure String → Walk α}
    {go : Except Failure String → World σ → Status α × World σ} (w : World σ)
    (hresume : ∀ answer, (resume answer).AsksAtMost asks)
    (hgo : ∀ answer w, (go answer w).1.Within (3 * asks)) :
    (w.turn source caller key resume go).1.Within (3 * asks + 2) := by
  cases hu : w.desk.cache.usable? key with
  | some secret =>
    rw [World.turn_hit hu]
    exact (hgo _ _).mono (by omega)
  | none =>
    by_cases hdelay : (source caller key w.store).1.delay = 0
    · rw [World.turn_prompt hu hdelay]
      exact (hgo _ _).mono (by omega)
    · rw [World.turn_fetch hu hdelay]
      exact ⟨asks, hresume, Nat.le_refl _⟩

/-- A walk that is let on stops with less to do than at its start. -/
theorem advance_within {caller asks : Nat} {walk : Walk α} (h : walk.AsksAtMost asks)
    (w : World σ) : (walk.advance source caller w).1.Within (3 * asks) := by
  induction walk generalizing w asks with
  | done result => trivial
  | note notice next ih => exact ih h w
  | ask key resume ih =>
    obtain ⟨rest, rfl, hresume⟩ := h
    rw [Walk.advance_ask]
    cases hu : w.desk.cache.usable? key with
    | some secret => exact (ih (.ok secret) (hresume _) w).mono (by omega)
    | none =>
      cases hl : (w.desk.line key).isEmpty with
      | false => exact ⟨rest, hresume, by omega⟩
      | true =>
        have hturn : (World.turn source caller key resume _ _).1.Within (3 * rest + 2) :=
          turn_within { w with desk := w.desk.enter caller key } hresume
            fun answer w => ih answer (hresume answer) w
        exact hturn.mono (by omega)

/-- **A walk that is polled** and can go on has less to do afterwards. -/
theorem poll_within {s : Status α} {caller n : Nat} {w : World σ} (h : s.Within n)
    (hcan : s.canGoOn caller w = true) : ∃ m < n, (s.poll source caller w).1.Within m := by
  -- Each request that may still be made is worth three polls: to ask, to wait and to fetch.
  cases s with
  | ready walk =>
    obtain ⟨asks, hasks, hbound⟩ := h
    refine ⟨3 * asks, by omega, ?_⟩
    rw [poll, if_pos hcan]
    exact advance_within hasks w
  | inLine key resume =>
    obtain ⟨asks, hresume, hbound⟩ := h
    refine ⟨3 * asks + 2, by omega, ?_⟩
    rw [poll, if_pos hcan]
    exact turn_within w hresume fun answer w => advance_within (hresume answer) w
  | fetching key due outcome resume =>
    obtain ⟨asks, hresume, hbound⟩ := h
    refine ⟨3 * asks, by omega, ?_⟩
    rw [poll, if_pos hcan]
    exact advance_within (hresume _) _
  | finished result => exact absurd hcan (by simp [canGoOn])

end Status

namespace Schedule

variable {statuses : List (Status α)} {w : World σ} {n : Nat}

/-! ### What a pass takes from the budget -/

/-- All walks will be done with in so many passes, if one of them goes on in each. -/
def Budget : List (Status α) → Nat → Prop
  | [], _ => True
  | s :: rest, n => ∃ m k, m + k ≤ n ∧ s.Within m ∧ Budget rest k

/-- Walks that have not begun, three passes for each secret and one for each walk. -/
theorem Budget.ready_cons {walk : Walk α} {walks : List (Walk α)} {asks : Nat}
    (hwalk : walk.AsksAtMost asks) (h : Budget (walks.map .ready) (3 * n + walks.length)) :
    Budget ((walk :: walks).map .ready) (3 * (asks + n) + (walk :: walks).length) := by
  refine ⟨3 * asks + 1, _, ?_, ⟨asks, hwalk, Nat.le_refl _⟩, h⟩
  rw [List.length_cons]
  omega

/-- A walk that has less to do leaves all with less to do. -/
theorem Budget.set {i : Nat} {s s' : Status α} (h : Budget statuses n)
    (at_ : statuses[i]? = some s) (hless : ∀ m, s.Within m → ∃ k < m, s'.Within k) :
    ∃ k < n, Budget (statuses.set i s') k := by
  induction statuses generalizing i n with
  | nil => exact absurd at_ (by simp)
  | cons first rest ih =>
    obtain ⟨m, k, hsum, hfirst, hrest⟩ := h
    cases i with
    | zero =>
      obtain rfl : first = s := Option.some.inj at_
      obtain ⟨m', hlt, hwithin⟩ := hless m hfirst
      exact ⟨m' + k, by omega, m', k, Nat.le_refl _, hwithin, hrest⟩
    | succ i =>
      obtain ⟨k', hlt, hbudget⟩ := ih hrest at_
      exact ⟨m + k', by omega, m, k', Nat.le_refl _, hfirst, hbudget⟩

/-- Whether some walk can go on. -/
theorem anyCanGoOn_iff (first : Nat) : anyCanGoOn w first statuses = true ↔
    ∃ i, ∃ s : Status α, statuses[i]? = some s ∧ s.canGoOn (first + i) w = true := by
  induction statuses generalizing first with
  | nil => simp [anyCanGoOn]
  | cons s rest ih =>
    rw [anyCanGoOn, Bool.or_eq_true, ih]
    -- The callers are numbered from the first one on, so a place behind it is shifted.
    constructor
    · rintro (hcan | ⟨i, s', hat, hcan⟩)
      · exact ⟨0, s, rfl, hcan⟩
      · refine ⟨i + 1, s', hat, ?_⟩
        rw [← hcan]
        congr 1
        omega
    · rintro ⟨i, s', hat, hcan⟩
      cases i with
      | zero =>
        obtain rfl : s = s' := Option.some.inj hat
        exact .inl hcan
      | succ i =>
        refine .inr ⟨i, s', hat, ?_⟩
        rw [← hcan]
        congr 1
        omega

/-- **A pass** in which nobody is halted takes from the budget, unless nobody can go on. -/
theorem pass_progress (halts : List (Status α) → Bool) (h : Budget statuses n)
    (hend : (pass source halts [] statuses w).2.2 = false) :
    (∃ k < n, Budget (pass source halts [] statuses w).1 k) ∨
      (anyCanGoOn w 0 statuses = false ∧ (pass source halts [] statuses w).1 = statuses ∧
        (pass source halts [] statuses w).2.1 = w) := by
  -- So far either the budget got smaller, or nobody could go on and nothing changed.
  let P : Nat → List (Status α) → World σ → Prop := fun i statuses' w' =>
    (∃ k < n, Budget statuses' k) ∨
      (statuses' = statuses ∧ w' = w ∧
        ∀ j s, j < i → statuses[j]? = some s → s.canGoOn j w = false)
  have hpoll : ∀ i statuses' w' s, statuses'[i]? = some s → P i statuses' w' →
      P (i + 1) (statuses'.set i (s.poll source i w').1) (s.poll source i w').2 := by
    intro i statuses' w' s hat hP
    have hsame : ∀ s', s' = s → statuses'.set i s' = statuses' := by
      rintro _ rfl
      obtain ⟨hlt, hget⟩ := List.getElem?_eq_some_iff.1 hat
      rw [← hget, List.set_getElem_self]
    cases hcan : s.canGoOn i w' with
    | true =>
      have hbudget : ∃ k ≤ n, Budget statuses' k := by
        rcases hP with ⟨k, hlt, hk⟩ | ⟨rfl, -, -⟩
        · exact ⟨k, by omega, hk⟩
        · exact ⟨n, Nat.le_refl _, h⟩
      obtain ⟨k, hle, hk⟩ := hbudget
      obtain ⟨k', hlt, hset⟩ := hk.set hat fun m hm => Status.poll_within hm hcan
      exact .inl ⟨k', by omega, hset⟩
    | false =>
      rw [Status.poll_eq hcan, hsame s rfl]
      rcases hP with hless | ⟨rfl, rfl, hnone⟩
      · exact .inl hless
      · refine .inr ⟨rfl, rfl, fun j s' hj hat' => ?_⟩
        rcases Nat.lt_succ_iff_lt_or_eq.1 hj with hlt | rfl
        · exact hnone j s' hlt hat'
        · cases Option.some.inj (hat.symm.trans hat')
          exact hcan
  obtain ⟨i, hP, hi⟩ := pass_induct (P := P) halts hpoll [] statuses w
    (.inr ⟨rfl, rfl, fun j s hj => absurd hj (by simp)⟩)
  rcases hP with hless | ⟨hstatuses, hw, hnone⟩
  · exact .inl hless
  · refine .inr ⟨?_, hstatuses, hw⟩
    refine Bool.eq_false_iff.2 fun hany => ?_
    obtain ⟨j, s, hat, hcan⟩ := (anyCanGoOn_iff 0).1 hany
    obtain ⟨hlt, -⟩ := List.getElem?_eq_some_iff.1 hat
    have hj : j < i := by rw [hi hend]; simpa using hlt
    rw [Nat.zero_add, hnone j s hj hat] at hcan
    exact absurd hcan (by simp)

/-! ### The end of a loop -/

/-- Nobody can go on, now or later. -/
def Stuck (statuses : List (Status α)) (w : World σ) : Prop :=
  anyCanGoOn w 0 statuses = false ∧ nextDue? statuses = none

/-- When time goes on to the end of the first fetch, somebody can go on. -/
theorem anyCanGoOn_of_nextDue? {due : Nat} (h : nextDue? statuses = some due) :
    anyCanGoOn { w with clock := due } 0 statuses = true := by
  obtain ⟨hmem, -⟩ := List.min?_eq_some_iff.1 h
  obtain ⟨s, hs, hdue⟩ := List.mem_filterMap.1 hmem
  obtain ⟨i, hat⟩ := List.mem_iff_getElem?.1 hs
  refine (anyCanGoOn_iff 0).2 ⟨i, s, hat, ?_⟩
  cases s with
  | fetching key due' outcome resume =>
    obtain rfl : due' = due := Option.some.inj hdue
    exact decide_eq_true (Nat.le_refl _)
  | ready | inLine | finished => exact absurd hdue (by simp)

/-- **A loop with enough fuel** stops where it is halted, or where nobody can go on. -/
theorem loop_ends (halts : List (Status α) → Bool) (fuel : Nat) (h : Budget statuses n)
    (hfuel : n < fuel) (hcan : anyCanGoOn w 0 statuses = true ∨ Stuck statuses w) :
    halts (loop source halts fuel statuses w).1 = true ∨
      Stuck (loop source halts fuel statuses w).1 (loop source halts fuel statuses w).2 := by
  induction fuel generalizing statuses w n with
  | zero => exact absurd hfuel (by omega)
  | succ fuel ih =>
    -- Each pass takes from the budget, so the fuel stays above it.
    have hhalts : (pass source halts [] statuses w).2.2 = true → _ :=
      pass_halts halts []
    have hprogress : (pass source halts [] statuses w).2.2 = false → _ := pass_progress halts h
    rw [loop]
    generalize pass source halts [] statuses w = p at hhalts hprogress ⊢
    obtain ⟨statuses', w', halted⟩ := p
    cases halted with
    | true => exact .inl (hhalts rfl)
    | false =>
      rcases hprogress rfl with ⟨k, hlt, hk⟩ | ⟨hnone, rfl, rfl⟩
      · cases hany : anyCanGoOn w' 0 statuses' with
        | true =>
          simp only [hany, if_true]
          exact ih hk (by omega) (.inl hany)
        | false =>
          cases hdue : nextDue? statuses' with
          | none =>
            simp only [hany, hdue]
            exact .inr ⟨hany, hdue⟩
          | some due =>
            simp only [hany, hdue]
            exact ih hk (by omega) (.inl (anyCanGoOn_of_nextDue? hdue))
      · -- Nobody could go on before the pass, so nobody ever can.
        have hstuck : Stuck statuses' w' := hcan.resolve_left (by rw [hnone]; decide)
        simp only [hstuck.1, hstuck.2]
        exact .inr hstuck

/-- On a floor in order, nobody can go on only if all walks are finished. -/
theorem Stuck.finished (h : Stuck statuses w) (ho : (floor statuses w).Orderly) :
    ∃ results : List α, results.map .finished = statuses := by
  refine (Set.ext_iff.1 (Set.range_list_map Status.finished) statuses).2 fun s hs => ?_
  obtain ⟨i, hat⟩ := List.mem_iff_getElem?.1 hs
  -- Nobody can go on, and no fetch is in flight.
  have hcannot : ∀ j (s : Status α), statuses[j]? = some s → s.canGoOn j w = false := by
    refine fun j s hj => Bool.eq_false_iff.2 fun hcan => ?_
    have hany := (anyCanGoOn_iff 0).2 ⟨j, s, hj, by rw [Nat.zero_add]; exact hcan⟩
    rw [h.1] at hany
    exact absurd hany (by decide)
  have hnobody : ∀ key due outcome resume, .fetching key due outcome resume ∉ statuses := by
    intro key due outcome resume hmem
    have hnil := List.filterMap_eq_nil_iff.1 (List.min?_eq_none_iff.1 h.2) _ hmem
    exact absurd hnil (by simp)
  cases s with
  | ready walk => exact absurd (hcannot i _ hat) (by simp [Status.canGoOn])
  | fetching key due outcome resume => exact absurd hs (hnobody _ _ _ _)
  | finished result => exact ⟨result, rfl⟩
  | inLine key resume =>
    -- Somebody has the turn for the key, and can go on or has a fetch in flight.
    obtain ⟨j, hturn⟩ := ho.exists_isTurn (Floor.place?_of_at (stage_floor hat w))
    have hplace := (ho.stands key j).1 (Desk.mem_line_of_isTurn hturn)
    obtain ⟨stage, hj, hstage⟩ := Option.bind_eq_some_iff.1 hplace
    obtain ⟨t, ht, rfl⟩ := exists_status hj
    cases t with
    | inLine k resume' =>
      obtain rfl : k = key := Option.some.inj hstage
      have hno : w.desk.isTurn j k = false := hcannot j _ ht
      exact absurd (hno.symm.trans hturn) (by decide)
    | fetching k due outcome resume' => exact absurd (List.mem_of_getElem? ht) (hnobody _ _ _ _)
    | ready | finished => exact absurd hstage (by simp [Status.stage, Stage.place?])

/-- **A schedule with enough fuel** stops where it is halted, or where all walks are finished. -/
theorem run_ends (halts : List (Status α) → Bool) (asks : Nat) (walks : List (Walk α))
    (s : Session σ) (h : Budget (walks.map .ready) (3 * asks + walks.length)) :
    halts (run source halts asks walks s).1 = true ∨
      ∃ results : List α, results.map .finished = (run source halts asks walks s).1 := by
  have hcan : anyCanGoOn (⟨.idle s.cache, s.store, 0⟩ : World σ) 0 (walks.map Status.ready) = true ∨
      Stuck (walks.map Status.ready) (⟨.idle s.cache, s.store, 0⟩ : World σ) := by
    cases walks with
    | nil => exact .inr ⟨rfl, rfl⟩
    | cons walk rest => exact .inl rfl
  rcases loop_ends halts _ h (Nat.lt_succ_self _) hcan with hhalts | hstuck
  · exact .inl hhalts
  · have hruns : Runs source _ _ := loop_runs halts (3 * asks + walks.length + 1)
      (walks.map .ready) ⟨.idle s.cache, s.store, 0⟩
    rw [floor_ready] at hruns
    have hstart : (Floor.start walks s).Orderly := .start walks s
    exact .inr (hstuck.finished (hstart.of_steps hruns.steps))

end Schedule

end SecretFill
