import Mathlib.Data.List.Nodup
import SecretFill.Proofs.Queue

namespace SecretFill

/-!
# Requests one by one

Requests that are made one by one make one visit each, in the order in which they came.

* `Batch.serial` — requests one by one.
* `Batch.serial_congr` — what they get depends only on what can be told of the cache.
* `Batch.serial_visits` — their answers, the ones that fetched, and the cache are those of their
  visits.
-/

variable {requests : List Batch.Request} {cache : Cache} {m i : Nat}

namespace Batch

/-- Makes requests one by one: each gets a usable secret or its own fetch. -/
def serial : List Batch.Request → Cache → List (Option (Except Failure String) × Bool) × Cache
  | [], c => ([], c)
  | r :: rest, c =>
    match c.usable? r.key with
    | some secret => ((some (.ok secret), false) :: (serial rest c).1, (serial rest c).2)
    | none =>
      let fetched := (c.countFetch.finish r.key r.outcome).1
      ((some (trimmed r.outcome), true) :: (serial rest fetched).1, (serial rest fetched).2)

theorem serial_hit {r : Batch.Request} {rest : List Batch.Request} {c : Cache} {secret : String}
    (h : c.usable? r.key = some secret) : serial (r :: rest) c
      = ((some (.ok secret), false) :: (serial rest c).1, (serial rest c).2) := by
  simp only [serial, h]

theorem serial_miss {r : Batch.Request} {rest : List Batch.Request} {c : Cache}
    (h : c.usable? r.key = none) : serial (r :: rest) c
      = ((some (trimmed r.outcome), true)
          :: (serial rest (c.countFetch.finish r.key r.outcome).1).1,
        (serial rest (c.countFetch.finish r.key r.outcome).1).2) := by
  simp only [serial, h]

/-- Caches that cannot be told apart give the same answers one by one. -/
theorem serial_congr {c d : Cache} (h : c.Alike d) (requests : List Batch.Request) :
    (serial requests c).1 = (serial requests d).1 ∧
      (serial requests c).2.Alike (serial requests d).2 := by
  induction requests generalizing c d with
  | nil => exact ⟨rfl, h⟩
  | cons r rest ih =>
    have hsame := h.usable? r.key
    cases hu : d.usable? r.key with
    | some secret =>
      obtain ⟨hresults, hcache⟩ := ih h
      rw [serial_hit hu, serial_hit (hsame.trans hu)]
      exact ⟨congrArg (List.cons _) hresults, hcache⟩
    | none =>
      obtain ⟨hresults, hcache⟩ := ih (h.countFetch.finish r.key r.outcome)
      rw [serial_miss hu, serial_miss (hsame.trans hu)]
      exact ⟨congrArg (List.cons _) hresults, hcache⟩

/-- The first request gets what its visit gets, and the others go on with the cache of the book. -/
theorem serial_visit {r : Batch.Request} {k : Nat} (b : Book Nat) (hr : requests[k]? = some r)
    (hfetched : ∀ i ∈ b.fetched, i < k) (rest : List Batch.Request) :
    ∃ answer flag,
      serial (r :: rest) b.cache
        = ((some answer, flag) :: (serial rest (b.visit (visitOf requests k)).cache).1,
          (serial rest (b.visit (visitOf requests k)).cache).2) ∧
      (k, answer) ∈ (b.visit (visitOf requests k)).answers ∧
      (flag = true ↔ k ∈ (b.visit (visitOf requests k)).fetched) ∧
      ∀ i ∈ (b.visit (visitOf requests k)).fetched, i < k + 1 := by
  rw [visitOf_eq hr]
  -- The request is answered by the cache, or it is the first that fetches its key.
  cases hu : b.cache.usable? r.key with
  | some secret =>
    have hb : b.visit ⟨k, r.key, r.outcome⟩
      = { b with answers := (k, .ok secret) :: b.answers } := Book.visit_hit hu
    rw [hb]
    have hnot : k ∉ b.fetched := fun hk => Nat.lt_irrefl k (hfetched k hk)
    exact ⟨.ok secret, false, serial_hit hu, List.mem_cons_self, by simp [hnot],
      fun i hi => Nat.lt_succ_of_lt (hfetched i hi)⟩
  | none =>
    have hb : b.visit ⟨k, r.key, r.outcome⟩ = ⟨(b.cache.countFetch.finish r.key r.outcome).1,
      k :: b.fetched, (k, trimmed r.outcome) :: b.answers⟩ := Book.visit_miss hu
    rw [hb]
    refine ⟨trimmed r.outcome, true, serial_miss hu, List.mem_cons_self, by simp, ?_⟩
    intro i hi
    rcases List.mem_cons.1 hi with rfl | hi
    · exact Nat.lt_succ_self i
    · exact Nat.lt_succ_of_lt (hfetched i hi)

/-- One by one, the requests from the `k`-th on make the visits from the `k`-th on. -/
theorem serial_visits {rest : List Batch.Request} {k : Nat} (b : Book Nat)
    (h : requests.drop k = rest) (hfetched : ∀ i ∈ b.fetched, i < k) :
    (serial rest b.cache).2
        = (b.visits ((List.range' k rest.length).map (visitOf requests))).cache ∧
      (serial rest b.cache).1.length = rest.length ∧
      ∀ (j : Nat) p, (serial rest b.cache).1[j]? = some p →
        (∃ answer, p.1 = some answer ∧ (k + j, answer)
          ∈ (b.visits ((List.range' k rest.length).map (visitOf requests))).answers) ∧
        (p.2 = true ↔
          k + j ∈ (b.visits ((List.range' k rest.length).map (visitOf requests))).fetched) := by
  induction rest generalizing k b with
  | nil => exact ⟨rfl, rfl, fun j p hp => absurd hp (by simp [serial])⟩
  | cons r rest ih =>
    have hr : requests[k]? = some r := by
      rw [← List.head?_drop, h]
      rfl
    have hrest : requests.drop (k + 1) = rest := by
      rw [← List.tail_drop, h]
      rfl
    -- Later visits have other tags, so they do not add to what this one fetched.
    have hothers : ∀ v ∈ (List.range' (k + 1) rest.length).map (visitOf requests), v.tag ≠ k := by
      intro v hv
      obtain ⟨i, hi, rfl⟩ := List.mem_map.1 hv
      rw [tag_visitOf]
      have hle := (List.mem_range'_1.1 hi).1
      omega
    obtain ⟨answer, flag, hserial, hanswer, hflag, hbefore⟩ := serial_visit b hr hfetched rest
    obtain ⟨hcache, hlength, hresults⟩ := ih (b.visit (visitOf requests k)) hrest hbefore
    rw [List.length_cons, List.range'_succ, List.map_cons, Book.visits_cons, hserial]
    refine ⟨hcache, congrArg (· + 1) hlength, fun j p hp => ?_⟩
    cases j with
    | zero =>
      obtain rfl : (some answer, flag) = p := Option.some.inj hp
      refine ⟨⟨answer, rfl, Book.answers_subset_visits _ hanswer⟩, hflag.trans ?_⟩
      exact (Book.mem_fetched_visits hothers).symm
    | succ j =>
      have hj := hresults j p hp
      rw [Nat.add_right_comm] at hj
      exact hj

/-- The first request comes before the others. -/
theorem serial_cons (r : Batch.Request) (rest : List Batch.Request) (c : Cache) :
    serial (r :: rest) c = ((serial [r] c).1 ++ (serial rest (serial [r] c).2).1,
      (serial rest (serial [r] c).2).2) := by
  cases hu : c.usable? r.key with
  | some secret =>
    rw [serial_hit hu, serial_hit hu]
    rfl
  | none =>
    rw [serial_miss hu, serial_miss hu]
    rfl

/-- One by one there is one answer for each request, -/
theorem length_serial (requests : List Batch.Request) (c : Cache) :
    (serial requests c).1.length = requests.length :=
  (serial_visits (Book.mk c [] []) (List.drop_zero (l := requests))
    fun _ hi => absurd hi List.not_mem_nil).2.1

/-- and none is missing. -/
theorem serial_answered (requests : List Batch.Request) (c : Cache) :
    ∀ p ∈ (serial requests c).1, p.1.isSome = true := by
  induction requests generalizing c with
  | nil => exact fun p hp => absurd hp List.not_mem_nil
  | cons r rest ih =>
    intro p hp
    cases hu : c.usable? r.key with
    | some secret =>
      rw [serial_hit hu] at hp
      rcases List.mem_cons.1 hp with rfl | hp
      · rfl
      · exact ih c p hp
    | none =>
      rw [serial_miss hu] at hp
      rcases List.mem_cons.1 hp with rfl | hp
      · rfl
      · exact ih _ p hp

/-- Each request has one answer. -/
theorem answer_unique {answer answer' : Except Failure String}
    (h : (i, answer) ∈ (served requests cache (List.range m)).answers)
    (h' : (i, answer') ∈ (served requests cache (List.range m)).answers) : answer = answer' := by
  have htags : (served requests cache (List.range m)).answers.map (·.1)
      = (List.range m).reverse := by
    have hvisits := Book.tags_visits (b := Book.mk cache [] [])
      ((List.range m).map (visitOf requests))
    have hmap : ((List.range m).map (visitOf requests)).map (·.tag) = List.range m := by
      rw [List.map_map]
      exact (List.map_congr_left fun j _ => tag_visitOf).trans (List.map_id' _)
    rw [hmap, List.map_nil, List.append_nil] at hvisits
    exact hvisits
  -- Each request made one visit, so its number occurs once.
  have hnodup : ((served requests cache (List.range m)).answers.map (·.1)).Nodup := by
    rw [htags, List.nodup_reverse]
    exact List.nodup_range
  exact congrArg Prod.snd (List.inj_on_of_nodup_map hnodup h h' rfl)

end Batch

end SecretFill
