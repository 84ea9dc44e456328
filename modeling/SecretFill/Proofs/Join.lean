import SecretFill.Proofs.Arrivals
import SecretFill.Proofs.Completion
import SecretFill.Proofs.Serial

namespace SecretFill

/-!
# Requests side by side are requests one by one

However long the fetches take, requests that are made side by side get what they get one by one in
the order in which they came, and leave the same cache.

* `Batch.join_queue` — every join comes to its end, with all requests answered in some order.
* `Batch.served_of_finished` — for each key this is the order in which they came.
* `Batch.join_serial` — so they get what they get one by one.
* `join_eq_serial` — nothing that can be told of the two runs is different; neither is it if the
  requests are joined one at a time.
-/

variable {requests : List Batch.Request} {cache : Cache} {m : Nat} {order : List Nat}
  {w : World (List Nat)}

/-! ### The end of a join -/

namespace Batch

/-- Requests that have not come. -/
theorem queue_start (requests : List Batch.Request) (cache : Cache) :
    Queue requests cache 0 [] ((requests.map fun r => credential r.key).map .ready)
      ⟨.idle cache, [], 0⟩ where
  orderly := by
    rw [Schedule.floor_ready _ (Session.mk cache [])]
    exact .start _ (Session.mk cache [])
  length := by rw [List.length_map, List.length_map]
  stands i s hat := by
    rw [List.map_map, List.getElem?_map] at hat
    obtain ⟨r, hr, rfl⟩ := Option.map_eq_some_iff.1 hat
    refine ⟨Nat.zero_le i, ?_⟩
    rw [visitOf_eq hr]
  lines key := rfl
  secrets := rfl
  keepEmpty := rfl
  fetched i := by
    unfold flightsAt
    rw [List.map_map, List.getElem?_map]
    cases requests[i]? <;> rfl
  fetches := rfl

/-- The fuel for a join covers its requests. -/
theorem budget_requests (requests : List Batch.Request) :
    Schedule.Budget ((requests.map fun r => credential r.key).map .ready)
      (3 * requests.length + (requests.map fun r => credential r.key).length) := by
  induction requests with
  | nil => trivial
  | cons r rest ih =>
    have hwalk : (credential r.key).AsksAtMost 1 := ⟨0, rfl, fun _ => trivial⟩
    have hcons := Schedule.Budget.ready_cons hwalk ih
    rw [Nat.add_comm 1] at hcons
    exact hcons

/-- **Every join comes to its end**, when all requests have come and all are answered. -/
theorem join_queue (requests : List Batch.Request) (cache : Cache) :
    ∃ (answers : List (Except Failure String)) (order : List Nat) (w : World (List Nat)),
      Queue requests cache requests.length order (answers.map .finished) w ∧
      join requests cache
        = ((answers.map Status.finished).mapIdx fun i s => (s.result?, w.store.contains i),
          w.desk.cache) := by
  let walks := requests.map fun r => credential r.key
  let first : World (List Nat) := ⟨.idle cache, [], 0⟩
  let last := Schedule.loop (requestSource requests) (fun _ => false)
    (3 * requests.length + walks.length + 1) (walks.map .ready) first
  have hqueue : ∃ order, Queue requests cache requests.length order last.1 last.2 := by
    -- In the first pass the requests come in order; after it all of them have come.
    refine Schedule.loop_induct_after
      (P := fun m statuses w => (∃ order, Queue requests cache m order statuses w) ∧ w.Quiet)
      (Q := fun statuses w => ∃ order, Queue requests cache requests.length order statuses w)
      ?_ ?_ ?_ _ _ _ ?_ ?_
    · rintro i statuses w s hat ⟨⟨order, hq⟩, hquiet⟩
      exact hq.poll_first hquiet hat
    · rintro i statuses w s hat ⟨order, hq⟩
      obtain ⟨hlt, -⟩ := List.getElem?_eq_some_iff.1 hat
      exact hq.poll hat (hq.length ▸ hlt)
    · rintro statuses w time ⟨order, hq⟩
      exact ⟨order, hq.orderly, hq.length, hq.stands, hq.lines, hq.secrets, hq.keepEmpty,
        hq.fetched, hq.fetches⟩
    · exact ⟨⟨[], queue_start requests cache⟩, fun key hline => absurd rfl hline⟩
    · rintro statuses w ⟨hq, -⟩
      rw [List.length_map, List.length_map] at hq
      exact hq
  obtain ⟨order, hq⟩ := hqueue
  rcases Schedule.run_ends (fun _ => false) requests.length walks (Session.mk cache [])
    (budget_requests requests) with hhalts | ⟨answers, hanswers⟩
  · exact absurd hhalts (by decide)
  · have hlast : answers.map .finished = last.1 := hanswers
    rw [← hlast] at hq
    refine ⟨answers, order, last.2, hq, ?_⟩
    rw [hlast]
    rfl

/-- When all are answered, the requests amount to visits in the order in which they came. -/
theorem served_of_finished {answers : List (Except Failure String)}
    (h : Queue requests cache m order (answers.map .finished) w) :
    w.desk.cache.Alike (served requests cache (List.range m)).cache ∧
      (∀ i, i ∈ w.store ↔ i ∈ (served requests cache (List.range m)).fetched) ∧
      ∀ i answer, answers[i]? = some answer →
        (i, answer) ∈ (served requests cache (List.range m)).answers := by
  have hfinished : ∀ (i : Nat) s, (answers.map Status.finished)[i]? = some s →
      ∃ a, s = Status.finished a := by
    intro i s hat
    rw [List.getElem?_map] at hat
    obtain ⟨a, -, rfl⟩ := Option.map_eq_some_iff.1 hat
    exact ⟨a, rfl⟩
  -- Nobody is left in a line, and no fetch is in flight.
  have hlines : ∀ key, w.desk.line key = [] := by
    refine fun key => List.eq_nil_iff_forall_not_mem.2 fun i hi => ?_
    have hplace := (h.orderly.stands key i).1 hi
    obtain ⟨stage, hstage, hkey⟩ := Option.bind_eq_some_iff.1 hplace
    obtain ⟨s, hs, rfl⟩ := Schedule.exists_status hstage
    obtain ⟨a, rfl⟩ := hfinished i s hs
    exact absurd hkey (by simp [Status.stage, Stage.place?])
  have hcount : ∀ i, w.store.count i = (served requests cache order).fetched.count i := by
    intro i
    have hnone : flightsAt (answers.map Status.finished) i = 0 := by
      unfold flightsAt
      split
      · rename_i s hs
        obtain ⟨a, rfl⟩ := hfinished i s hs
        rfl
      · rfl
    rw [h.fetched i, hnone, Nat.zero_add]
  -- So for each key those that were answered are all that came, in the order in which they came.
  have horder : (served requests cache order).Alike (served requests cache (List.range m)) := by
    refine served_alike fun key => ?_
    rw [← h.lines key, hlines key, List.append_nil]
  have hstore := List.perm_iff_count.2 hcount
  have hcache : w.desk.cache.Alike (served requests cache order).cache := by
    refine ⟨h.keepEmpty.trans (keepEmpty_served order).symm, ?_, fun key => ?_⟩
    · have hvisits := Book.fetches_visits (Book.mk cache [] []) (order.map (visitOf requests))
      rw [h.fetches, hstore.length_eq]
      exact hvisits.symm
    · unfold Cache.entries
      rw [h.secrets]
  refine ⟨hcache.trans horder.cache, fun i => ?_, fun i answer hat => ?_⟩
  · rw [hstore.mem_iff, horder.fetched.mem_iff]
  · rw [← horder.answers.mem_iff]
    have hstatus : (answers.map Status.finished)[i]? = some (.finished answer) := by
      rw [List.getElem?_map, hat]
      rfl
    exact (h.stands i _ hstatus).2

/-- **Side by side** requests get what they get one by one, and leave the same cache. -/
theorem join_serial (requests : List Batch.Request) (cache : Cache) :
    (join requests cache).1 = (serial requests cache).1 ∧
      (join requests cache).2.Alike (serial requests cache).2 := by
  obtain ⟨answers, order, w, hqueue, hjoin⟩ := join_queue requests cache
  obtain ⟨halike, hstore, hanswers⟩ := served_of_finished hqueue
  have hserial := serial_visits (Book.mk cache [] []) (List.drop_zero (l := requests))
    fun i hi => absurd hi List.not_mem_nil
  rw [← List.range_eq_range'] at hserial
  obtain ⟨hcache, -, hresults⟩ := hserial
  have hserved := length_serial requests cache
  have hanswered : answers.length = requests.length := by
    have hstatuses := hqueue.length
    rw [List.length_map] at hstatuses
    exact hstatuses
  rw [hjoin]
  refine ⟨List.ext_getElem? fun i => ?_, ?_⟩
  · rw [List.getElem?_mapIdx, List.getElem?_map]
    cases hat : answers[i]? with
    | none =>
      have hle := List.getElem?_eq_none_iff.1 hat
      exact (List.getElem?_eq_none_iff.2 (by omega)).symm
    | some answer =>
      obtain ⟨hlt, -⟩ := List.getElem?_eq_some_iff.1 hat
      obtain ⟨p, hp⟩ : ∃ p, (serial requests cache).1[i]? = some p :=
        ⟨_, List.getElem?_eq_getElem (by omega)⟩
      obtain ⟨⟨answer', hanswer', hmem⟩, hflag⟩ := hresults i p hp
      rw [Nat.zero_add] at hmem hflag
      -- The visit of a request has one answer, which it gets side by side and one by one.
      have hsame : answer = answer' := answer_unique (hanswers i answer hat) hmem
      have hfetched : w.store.contains i = p.2 := by
        rw [Bool.eq_iff_iff, List.contains_iff_mem, hstore i, hflag]
        rfl
      rw [hp]
      refine congrArg some (Prod.ext ?_ hfetched)
      rw [hanswer', ← hsame]
      rfl
  · rw [hcache]
    exact halike

/-! ### One join at a time -/

/-- Joins requests one at a time: each is made when the one before it has its answer. -/
def each : List Batch.Request → Cache → List (Option (Except Failure String) × Bool) × Cache
  | [], c => ([], c)
  | r :: rest, c =>
    let first := join [r] c
    let others := each rest first.2
    (first.1 ++ others.1, others.2)

/-- One join at a time is one by one. -/
theorem each_serial (requests : List Batch.Request) (cache : Cache) :
    (each requests cache).1 = (serial requests cache).1 ∧
      (each requests cache).2.Alike (serial requests cache).2 := by
  induction requests generalizing cache with
  | nil => exact ⟨rfl, .refl cache⟩
  | cons r rest ih =>
    obtain ⟨hfirst, hcache⟩ := join_serial [r] cache
    obtain ⟨hothers, hlast⟩ := ih (join [r] cache).2
    obtain ⟨hsame, halike⟩ := serial_congr hcache rest
    rw [serial_cons]
    refine ⟨?_, hlast.trans halike⟩
    show (join [r] cache).1 ++ (each rest (join [r] cache).2).1 = _
    rw [hfirst, hothers, hsame]

/-- Two runs of the same requests that cannot be told apart. -/
structure SameRun (run run' : List (Option (Except Failure String) × Bool) × Cache) : Prop where
  /-- The answers, and which requests were fetched. -/
  answers : run.1 = run'.1
  /-- The cached values. -/
  held : ∀ key, run.2.held? key = run'.2.held? key
  /-- What is contained. -/
  contains : ∀ key, run.2.contains key = run'.2.contains key
  /-- The size. -/
  size : run.2.size = run'.2.size
  /-- The count of fetches. -/
  fetches : run.2.fetches = run'.2.fetches

theorem SameRun.of_alike {run run' : List (Option (Except Failure String) × Bool) × Cache}
    (h : run.1 = run'.1 ∧ run.2.Alike run'.2) : SameRun run run' :=
  ⟨h.1, h.2.held?, h.2.contains, h.2.size, h.2.fetches⟩

end Batch

/-- **A join is a sequential run.**  For every list of requests, with any keys, outcomes and delays,
    before any cache: there are as many answers as requests, none is missing, and the answers, which
    of them were fetched, and the cached values, what is contained, the size and the count of
    fetches afterwards are those of the requests one by one in the order of the list.  They are also
    those of as many joins of one request. -/
theorem join_eq_serial (requests : List Batch.Request) (cache : Cache) :
    (Batch.join requests cache).1.length = requests.length ∧
    (∀ p ∈ (Batch.join requests cache).1, p.1.isSome = true) ∧
    Batch.SameRun (Batch.join requests cache) (Batch.serial requests cache) ∧
    Batch.SameRun (Batch.join requests cache) (Batch.each requests cache) := by
  obtain ⟨hjoin, hjoined⟩ := Batch.join_serial requests cache
  obtain ⟨heach, hone⟩ := Batch.each_serial requests cache
  refine ⟨?_, fun p hp => ?_, .of_alike ⟨hjoin, hjoined⟩,
    .of_alike ⟨hjoin.trans heach.symm, hjoined.trans hone.symm⟩⟩
  · rw [hjoin]
    exact Batch.length_serial requests cache
  · rw [hjoin] at hp
    exact Batch.serial_answered requests cache p hp

/-- For one key the first fetch fails and the second one brings an empty secret, which does not
    count as cached: the third request fetches too, and the fourth gets what it brought.  A fetch
    for another key overtakes them. -/
theorem join_eq_serial_refetched :
    let key : Key := ⟨"db", "Password"⟩
    let other : Key := ⟨"db", "URL"⟩
    let requests : List Batch.Request :=
      [⟨key, .error (.storeMissing "lpass"), 30⟩, ⟨key, .ok "  ", 20⟩, ⟨other, .ok "u", 0⟩,
        ⟨key, .ok "pw\n", 10⟩, ⟨key, .ok "late", 0⟩]
    let joined := Batch.join requests (.empty false)
    joined.1 = [(some (.error (.storeMissing "lpass")), true), (some (.ok ""), true),
        (some (.ok "u"), true), (some (.ok "pw"), true), (some (.ok "pw"), false)] ∧
      joined.2.held? key = some "pw" ∧ joined.2.held? other = some "u" ∧
      joined.2.contains other = true ∧ joined.2.size = 2 ∧ joined.2.fetches = 4 := by
  intro key other requests joined
  obtain ⟨-, -, hsame, -⟩ := join_eq_serial requests (.empty false)
  refine ⟨hsame.answers.trans ?_, (hsame.held key).trans ?_, (hsame.held other).trans ?_,
    (hsame.contains other).trans ?_, hsame.size.trans ?_, hsame.fetches.trans ?_⟩
  all_goals decide +kernel

end SecretFill
