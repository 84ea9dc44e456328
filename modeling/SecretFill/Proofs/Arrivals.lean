import SecretFill.Proofs.Passes
import SecretFill.Proofs.Queue

namespace SecretFill

open Batch (requestSource)

/-!
# Polls of requests

In the first pass the requests come one after the other, and none of them finds others in line for a
secret that is usable already.  Afterwards they only wait, fetch and get their answers.

* `World.Quiet` — nobody stands in line for a key with a usable secret.
* `Queue.poll_first` — a request that comes in the first pass.
* `Queue.poll` — a request that came before.
-/

variable {requests : List Batch.Request} {cache : Cache} {m i : Nat} {order : List Nat}
  {statuses : List (Status (Except Failure String))} {w : World (List Nat)}

/-! ### Lines without usable secrets -/

/-- Nobody stands in line for a key with a usable secret. -/
def World.Quiet {σ : Type} (w : World σ) : Prop :=
  ∀ key, w.desk.line key ≠ [] → w.desk.cache.usable? key = none

namespace World.Quiet

variable {σ α : Type} {source : Source σ} {w : World σ} {key : Key}

/-- Who finds nothing may stand in line. -/
theorem enter (h : w.Quiet) (hu : w.desk.cache.usable? key = none) (caller : Nat) :
    Quiet { w with desk := w.desk.enter caller key } := by
  intro k hline
  have hk : (w.desk.enter caller key).line k ≠ [] := hline
  rw [Desk.line_enter] at hk
  by_cases hkey : k = key
  · rw [hkey]
    exact hu
  · rw [if_neg hkey] at hk
    exact h k hk

/-- Who stands alone in line leaves nobody behind who would find the secret. -/
theorem turn (h : w.Quiet) {caller : Nat} {resume : Except Failure String → Walk α}
    (hline : w.desk.line key = [caller]) (hu : w.desk.cache.usable? key = none)
    {go : Except Failure String → World σ → Status α × World σ}
    (hgo : ∀ answer w, (go answer w).2 = w) : (w.turn source caller key resume go).2.Quiet := by
  by_cases hdelay : (source caller key w.store).1.delay = 0
  · rw [World.turn_prompt hu hdelay, hgo, Desk.finish_eq]
    intro k hk
    have hleft : ({ w.counted with cache := (w.counted.cache.finish key
        (source caller key w.store).1.outcome).1 }.leave caller key).line k ≠ [] := hk
    rw [Desk.line_leave] at hleft
    -- Nobody is left in the line for this key, and the other keys are as they were.
    have hkey : k ≠ key := by
      rintro rfl
      rw [if_pos rfl] at hleft
      refine hleft ?_
      show (w.desk.line k).erase caller = []
      rw [hline, List.erase_cons_head]
    rw [if_neg hkey] at hleft
    show (w.desk.cache.countFetch.finish key _).1.usable? k = none
    rw [Cache.usable?_finish_of_ne hkey]
    exact h k hleft
  · rw [World.turn_fetch hu hdelay]
    exact h

end World.Quiet

/-! ### Polls -/

namespace Queue

/-- A status belongs to a request. -/
theorem exists_request (h : Queue requests cache m order statuses w)
    {s : Status (Except Failure String)} (at_ : statuses[i]? = some s) :
    ∃ r, requests[i]? = some r := by
  obtain ⟨hlt, -⟩ := List.getElem?_eq_some_iff.1 at_
  exact ⟨_, List.getElem?_eq_getElem (h.length ▸ hlt)⟩

/-- What the source gives to a request. -/
theorem source_eq (h : Queue requests cache m order statuses w)
    {s : Status (Except Failure String)} (at_ : statuses[i]? = some s) (key : Key)
    (fetched : List Nat) : ∃ delay, requestSource requests i key fetched
      = (⟨(Batch.visitOf requests i).outcome, delay, []⟩, i :: fetched) := by
  obtain ⟨r, hr⟩ := h.exists_request at_
  rw [Batch.visitOf_eq hr, requestSource_eq hr]
  exact ⟨r.delay, rfl⟩

/-- Who has the turn is answered, or begins to fetch. -/
theorem turn (h : Queue requests cache m order statuses w)
    (at_ : statuses[i]? = some (.inLine (Batch.visitOf requests i).key .done))
    (hturn : w.desk.isTurn i (Batch.visitOf requests i).key = true) :
    ∃ order, Queue requests cache m order
      (statuses.set i (w.turn (requestSource requests) i (Batch.visitOf requests i).key .done
        fun answer => (Walk.done answer).advance (requestSource requests) i).1)
      (w.turn (requestSource requests) i (Batch.visitOf requests i).key .done
        fun answer => (Walk.done answer).advance (requestSource requests) i).2 := by
  obtain ⟨delay, hsource⟩ := h.source_eq at_ (Batch.visitOf requests i).key w.store
  cases hu : w.desk.cache.usable? (Batch.visitOf requests i).key with
  | some secret =>
    rw [World.turn_hit hu]
    exact ⟨_, h.join at_ hturn hu⟩
  | none =>
    have hbegun := h.begin at_ hturn hu
    by_cases hdelay : delay = 0
    · -- The fetch begins and ends within this poll.
      rw [World.turn_prompt hu (by rw [hsource]; exact hdelay), hsource]
      obtain ⟨hlt, -⟩ := List.getElem?_eq_some_iff.1 at_
      have hended := (hbegun 0).finish (List.getElem?_set_self hlt)
      rw [List.set_set] at hended
      exact ⟨_, hended⟩
    · rw [World.turn_fetch hu (by rw [hsource]; exact hdelay), hsource]
      exact ⟨_, hbegun _⟩

/-- A request that cannot go on stays as it is. -/
theorem stay (h : Queue requests cache m order statuses w) {s : Status (Except Failure String)}
    (at_ : statuses[i]? = some s) (hcan : s.canGoOn i w = false) :
    Queue requests cache m order
      (statuses.set i (s.poll (requestSource requests) i w).1)
      (s.poll (requestSource requests) i w).2 := by
  obtain ⟨hlt, hget⟩ := List.getElem?_eq_some_iff.1 at_
  rw [Status.poll_eq hcan, ← hget, List.set_getElem_self]
  exact h

/-- **A request that came** is polled. -/
theorem poll (h : Queue requests cache m order statuses w) {s : Status (Except Failure String)}
    (at_ : statuses[i]? = some s) (hcame : i < m) :
    ∃ order, Queue requests cache m order
      (statuses.set i (s.poll (requestSource requests) i w).1)
      (s.poll (requestSource requests) i w).2 := by
  -- A request that cannot go on stays where it is.
  cases hcan : s.canGoOn i w with
  | false => exact ⟨order, h.stay at_ hcan⟩
  | true =>
    have hstands := h.stands i s at_
    cases s with
    | ready walk => exact absurd hstands.1 (by omega)
    | inLine key resume =>
      obtain ⟨-, rfl, rfl⟩ := hstands
      rw [Status.poll, if_pos hcan]
      exact h.turn at_ hcan
    | fetching key due outcome resume =>
      obtain ⟨-, rfl, rfl, rfl⟩ := hstands
      have hended := h.finish at_
      rw [Desk.finish_eq] at hended
      rw [Status.poll, if_pos hcan]
      simp only [Desk.finish_eq]
      exact ⟨_, hended⟩
    | finished answer => exact absurd hcan (by simp [Status.canGoOn])

/-- **A request that comes** in the first pass finds no line for a secret that is usable already,
    and leaves none. -/
theorem poll_first (h : Queue requests cache m order statuses w)
    (hquiet : w.Quiet) {s : Status (Except Failure String)} (at_ : statuses[m]? = some s) :
    (∃ order, Queue requests cache (m + 1) order
      (statuses.set m (s.poll (requestSource requests) m w).1)
      (s.poll (requestSource requests) m w).2) ∧
    (s.poll (requestSource requests) m w).2.Quiet := by
  have hstands := h.stands m s at_
  cases s with
  | inLine | fetching | finished => exact absurd hstands.1 (Nat.lt_irrefl m)
  | ready walk =>
    obtain ⟨-, rfl⟩ := hstands
    have hpoll : (Status.ready (credential (Batch.visitOf requests m).key)).poll
        (requestSource requests) m w
        = (credential (Batch.visitOf requests m).key).advance (requestSource requests) m w := rfl
    rw [hpoll, credential, Walk.advance_ask]
    cases hu : w.desk.cache.usable? (Batch.visitOf requests m).key with
    | some secret =>
      -- Whoever is in line waits for a secret that is not usable yet.
      have hline : w.desk.line (Batch.visitOf requests m).key = [] := by
        refine Decidable.byContradiction fun hne => ?_
        rw [hquiet _ hne] at hu
        cases hu
      exact ⟨⟨_, h.hit at_ hu hline⟩, hquiet⟩
    | none =>
      have hentered := h.enter at_
      cases hl : (w.desk.line (Batch.visitOf requests m).key).isEmpty with
      | false => exact ⟨⟨_, hentered⟩, hquiet.enter hu m⟩
      | true =>
        -- Nobody was in line, so it is the turn of this request at once.
        have hline : (w.desk.enter m (Batch.visitOf requests m).key).line
            (Batch.visitOf requests m).key = [m] := by
          rw [Desk.line_enter, if_pos rfl, List.isEmpty_iff.1 hl]
          rfl
        obtain ⟨hlt, -⟩ := List.getElem?_eq_some_iff.1 at_
        obtain ⟨order', hturned⟩ := hentered.turn (List.getElem?_set_self hlt)
          (Desk.isTurn_iff.2 (by rw [hline]; rfl))
        rw [List.set_set] at hturned
        have hleft : (World.turn (requestSource requests) m (Batch.visitOf requests m).key .done
            (fun answer => (Walk.done answer).advance (requestSource requests) m)
            { w with desk := w.desk.enter m (Batch.visitOf requests m).key }).2.Quiet :=
          (hquiet.enter hu m).turn hline hu fun _ _ => rfl
        exact ⟨⟨order', hturned⟩, hleft⟩

end Queue

end SecretFill
