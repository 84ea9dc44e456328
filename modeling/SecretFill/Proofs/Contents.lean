import SecretFill.Proofs.SingleFlight
import SecretFill.Proofs.Trimming

namespace SecretFill

open Batch (requestSource)

/-!
# What a cache holds

Requests come to an empty cache in any order, each with an outcome of its own, and each may be
dropped at any moment.  A secret gets into the cache only at the end of a fetch for its key.

* `Text.IsTrimmed.not_isBlank` — the ends of a trimmed text are not blank.
* `Moves` — what may happen to one walk; `Moves.secrets` — what this does to the secrets of the
  cache.
* `Brought` — the fetch of a walk came to its end with a text; `exists_brought` — so every secret
  got into the cache.
* `requests_contents` — what a cache holds, and what the requests leave as it is.
-/

/-! ### The ends of a trimmed text -/

/-- **The ends of a trimmed text** are not blank. -/
theorem Text.IsTrimmed.not_isBlank {s : String} (h : IsTrimmed s) {c : Char}
    (hc : s.toList.head? = some c ∨ s.toList.getLast? = some c) : isBlank c = false := by
  have hchars : (s.toList.dropWhile isBlank).rdropWhile isBlank = s.toList := by
    have hlist := congrArg String.toList h
    rwa [trim, String.toList_ofList] at hlist
  rw [← Bool.not_eq_true]
  rcases hc with hfirst | hlast
  · -- The first character would have been dropped in front.
    have hnone : s.toList.dropWhile isBlank = s.toList := by
      rw [← hchars]
      exact dropWhile_rdropWhile isBlank s.toList
    obtain ⟨cs, hcs⟩ := List.head?_eq_some_iff.1 hfirst
    intro hblank
    rw [hcs, List.dropWhile_cons_of_pos hblank] at hnone
    have hlength := (List.dropWhile_suffix (l := cs) isBlank).length_le
    rw [hnone, List.length_cons] at hlength
    omega
  · -- The last one would have been dropped behind.
    have hne : s.toList ≠ [] := by
      intro hnil
      rw [hnil] at hlast
      exact absurd hlast (by simp)
    have hget : s.toList.getLast hne = c :=
      Option.some.inj ((List.getLast?_eq_some_getLast hne).symm.trans hlast)
    have hkept : s.toList.rdropWhile isBlank = s.toList := by
      rw [← hchars]
      exact List.rdropWhile_idempotent isBlank _
    rw [← hget]
    exact List.rdropWhile_eq_self_iff.1 hkept hne

/-! ### What happens to one walk -/

section Moves

variable {α σ : Type} {source : Source σ} {i : Nat} {f g : Floor α σ}

/-- Walk `i` takes a step, or it is dropped. -/
inductive Moves (source : Source σ) (i : Nat) (f : Floor α σ) : Floor α σ → Prop where
  /-- It goes on. -/
  | go {g : Floor α σ} (h : Go source i f g) : Moves source i f g
  /-- It is dropped, and leaves its line. -/
  | drop {stage : Stage α} (at_ : f.stages[i]? = some stage) (isOpen : stage.IsOpen) :
    Moves source i f ((f.withDesk (f.deskWithout i stage)).put i .dropped)

/-- A step is what happens to some walk. -/
theorem Step.iff_moves : Step source f g ↔ ∃ i, Moves source i f g := by
  constructor
  · intro hstep
    cases hstep with
    | go h => exact ⟨_, .go h⟩
    | drop at_ isOpen => exact ⟨_, .drop at_ isOpen⟩
  · rintro ⟨i, hmoves⟩
    cases hmoves with
    | go h => exact .go h
    | drop at_ isOpen => exact .drop at_ isOpen

/-- **What one step does to the secrets**: they stay, unless a fetch comes to its end with a text,
    which is then held for its key. -/
theorem Go.secrets (hgo : Go source i f g) :
    g.desk.cache.secrets = f.desk.cache.secrets ∨
    ∃ key text resume, f.stages[i]? = some (.fetching key (.ok text) resume) ∧
      g.desk.cache.secrets = (f.desk.cache.insert key (Text.trim text)).secrets := by
  rcases hgo.cache_cases with hsame | hbegun | ⟨key, outcome, resume, at_, hended⟩
  · exact .inl (congrArg Cache.secrets hsame)
  · rw [hbegun]
    exact .inl rfl
  · rw [hended]
    cases outcome with
    | error e => exact .inl rfl
    | ok text => exact .inr ⟨key, text, resume, at_, rfl⟩

/-- A walk that is dropped leaves the secrets as they are; so does every other move, unless a fetch
    comes to its end. -/
theorem Moves.secrets (h : Moves source i f g) :
    g.desk.cache.secrets = f.desk.cache.secrets ∨
    ∃ key text resume, f.stages[i]? = some (.fetching key (.ok text) resume) ∧ Go source i f g ∧
      g.desk.cache.secrets = (f.desk.cache.insert key (Text.trim text)).secrets := by
  cases h with
  | go hgo =>
    rcases hgo.secrets with hsame | ⟨key, text, resume, hat, hinsert⟩
    · exact .inl hsame
    · exact .inr ⟨key, text, resume, hat, hgo, hinsert⟩
  | drop at_ isOpen =>
    refine .inl ?_
    show (f.deskWithout _ _).cache.secrets = _
    rw [f.cache_deskWithout]

/-- Nobody who takes a step is dropped. -/
theorem Go.not_dropped (hgo : Go source i f g) : g.stages[i]? ≠ some .dropped := by
  have hput : ∀ {h : Floor α σ} {old stage : Stage α}, h.stages[i]? = some old →
      stage ≠ .dropped → (h.put i stage).stages[i]? ≠ some .dropped := by
    intro h old stage hat hne hdropped
    rw [Floor.stage_put_self hat] at hdropped
    exact hne (Option.some.inj hdropped)
  cases hgo with
  | note at_ | done at_ | hit at_ | miss at_ => exact hput at_ (by simp)
  | enter at_ | join at_ | finish at_ => exact hput (h := f.withDesk _) at_ (by simp)
  | start at_ => exact hput (h := ⟨_, _, f.stages⟩) at_ (by simp)

end Moves

/-! ### Where a secret comes from -/

section Brought

variable {α σ : Type} {source : Source σ} {f g : Floor α σ} {i : Nat} {key : Key} {text : String}

/-- Between two floors the fetch of walk `i` for a key came to its end with a text. -/
def Brought (source : Source σ) (i : Nat) (key : Key) (text : String) (first last : Floor α σ) :
    Prop :=
  ∃ f g resume, Steps source first f ∧ f.stages[i]? = some (.fetching key (.ok text) resume) ∧
    Go source i f g ∧ Steps source g last

/-- What was brought was brought, whatever happens later. -/
theorem Brought.tail {first : Floor α σ} (h : Brought source i key text first f)
    (hstep : Step source f g) : Brought source i key text first g := by
  obtain ⟨before, after, resume, hbefore, hat, hgo, hafter⟩ := h
  exact ⟨before, after, resume, hbefore, hat, hgo, hafter.tail hstep⟩

/-- What is held for a key is read off the secrets. -/
theorem Cache.held?_congr {c d : Cache} (h : c.secrets = d.secrets) (key : Key) :
    c.held? key = d.held? key := by
  unfold held?
  rw [h]

/-- **Every secret was brought** into a cache that was empty: somebody's fetch for exactly its key
    came to its end, and the secret is what was fetched, trimmed. -/
theorem exists_brought {walks : List (Walk α)} {keepEmpty : Bool} {initial : σ}
    (hsteps : Steps source (.start walks ⟨.empty keepEmpty, initial⟩) f) {secret : String}
    (hheld : f.desk.cache.held? key = some secret) :
    ∃ i text, secret = Text.trim text ∧
      Brought source i key text (.start walks ⟨.empty keepEmpty, initial⟩) f := by
  induction hsteps generalizing secret with
  | refl => exact absurd hheld (by simp [Floor.start, Desk.idle, Cache.held?, Cache.empty])
  | @tail before after hbefore hstep ih =>
    have hearlier : before.desk.cache.held? key = some secret → ∃ i text, secret = Text.trim text ∧
        Brought source i key text (.start walks ⟨.empty keepEmpty, initial⟩) after := by
      intro hheld
      obtain ⟨i, text, hsecret, hbrought⟩ := ih hheld
      exact ⟨i, text, hsecret, hbrought.tail hstep⟩
    -- The secret was there before the last step, or this step ended the fetch that brought it.
    obtain ⟨i, hmoves⟩ := Step.iff_moves.1 hstep
    rcases hmoves.secrets with hsame | ⟨key', text, resume, hat, hgo, hinsert⟩
    · exact hearlier (by rwa [← Cache.held?_congr hsame])
    · rw [Cache.held?_congr hinsert] at hheld
      by_cases hkey : key = key'
      · subst hkey
        rw [Cache.held?_insert_self] at hheld
        exact ⟨i, text, (Option.some.inj hheld).symm,
          before, after, resume, hbefore, hat, hgo, .refl⟩
      · rw [Cache.held?_insert_of_ne hkey] at hheld
        exact hearlier hheld

end Brought

/-! ### Requests -/

section Requests

variable {f g : Floor (Except Failure String) (List Nat)} {requests : List Batch.Request}
  {r : Batch.Request} {i : Nat} {key : Key}

namespace Calls

/-- **What a request does to the secrets**: they stay, unless its own outcome is a text, which is
    then held for its own key. -/
theorem secrets (h : Calls requests f) (hr : requests[i]? = some r)
    (hmoves : Moves (requestSource requests) i f g) :
    g.desk.cache.secrets = f.desk.cache.secrets ∨
    ∃ text, r.outcome = .ok text ∧ g.stages[i]? ≠ some .dropped ∧
      g.desk.cache.secrets = (f.desk.cache.insert r.key (Text.trim text)).secrets := by
  rcases hmoves.secrets with hsame | ⟨key, text, resume, hat, hgo, hinsert⟩
  · exact .inl hsame
  · obtain ⟨hkey, houtcome, -, -⟩ := h.fits i r _ hr hat
    rw [hkey] at hinsert
    exact .inr ⟨text, houtcome.symm, hgo.not_dropped, hinsert⟩

end Calls

/-- **What a cache holds.**  Let requests come to an empty cache, in any order of steps and
    whichever of them are dropped.  Every secret that is held is without white space at its ends,
    and is the trimmed text that the fetch of a request for exactly its key brought.  A secret
    that may be given out stays as it is.  A request that fails, or that is dropped, leaves all
    secrets as they are; and no request makes a difference for another key than its own. -/
theorem requests_contents (requests : List Batch.Request) (keepEmpty : Bool)
    (hf : Steps (requestSource requests) (Batch.floor requests (.empty keepEmpty)) f) :
    (∀ key secret, f.desk.cache.held? key = some secret →
      (∀ c, secret.toList.head? = some c ∨ secret.toList.getLast? = some c →
        Text.isBlank c = false) ∧
      ∃ i r text, requests[i]? = some r ∧ r.key = key ∧ r.outcome = .ok text ∧
        secret = Text.trim text ∧
        Brought (requestSource requests) i key text (Batch.floor requests (.empty keepEmpty)) f) ∧
    (∀ key secret g, f.desk.cache.usable? key = some secret →
      Steps (requestSource requests) f g →
        g.desk.cache.usable? key = some secret ∧ g.desk.cache.held? key = some secret) ∧
    (∀ i r g, requests[i]? = some r → Moves (requestSource requests) i f g →
      ((∃ e, r.outcome = .error e) ∨ g.stages[i]? = some .dropped) →
        g.desk.cache.secrets = f.desk.cache.secrets) ∧
    (∀ i r g key, requests[i]? = some r → Moves (requestSource requests) i f g → key ≠ r.key →
      g.desk.cache.held? key = f.desk.cache.held? key ∧
        g.desk.cache.contains key = f.desk.cache.contains key) := by
  have hstart : (Batch.floor requests (.empty keepEmpty)).Orderly := .start _ _
  have horderly : f.Orderly := hstart.of_steps hf
  have hcalls : Calls requests f := (Calls.start requests _).of_steps hstart hf
  refine ⟨fun key secret hheld => ?_, fun key secret g hu hsteps => ?_,
    fun i r g hr hmoves hfails => ?_, fun i r g key hr hmoves hkey => ?_⟩
  · obtain ⟨i, text, hsecret, hbrought⟩ := exists_brought hf hheld
    have htrimmed : Text.IsTrimmed secret := hsecret ▸ Text.isTrimmed_trim text
    refine ⟨fun c hc => htrimmed.not_isBlank hc, ?_⟩
    -- The walk that brought the secret is a request, and its fetch is for the key of the request.
    obtain ⟨before, -, resume, hbefore, hat, -, -⟩ := id hbrought
    have hbefore' : Calls requests before := (Calls.start requests _).of_steps hstart hbefore
    obtain ⟨r, hr⟩ := hbefore'.exists_request hat
    obtain ⟨hkey, houtcome, -, -⟩ := hbefore'.fits i r _ hr hat
    exact ⟨i, r, text, hr, hkey.symm, houtcome.symm, hsecret, hbrought⟩
  · have hlater := horderly.usable?_of_steps hsteps hu
    exact ⟨hlater, (Cache.usable?_eq_some_iff.1 hlater).1⟩
  · rcases hcalls.secrets hr hmoves with hsame | ⟨text, htext, hgoes, -⟩
    · exact hsame
    · rcases hfails with ⟨e, he⟩ | hdropped
      · rw [he] at htext
        exact absurd htext (by simp)
      · exact absurd hdropped hgoes
  · have hheld : g.desk.cache.held? key = f.desk.cache.held? key := by
      rcases hcalls.secrets hr hmoves with hsame | ⟨text, -, -, hinsert⟩
      · exact Cache.held?_congr hsame key
      · rw [Cache.held?_congr hinsert, Cache.held?_insert_of_ne hkey]
    have hkeep : g.desk.cache.keepEmpty = f.desk.cache.keepEmpty :=
      keepEmpty_of_steps (.single (Step.iff_moves.2 ⟨i, hmoves⟩))
    refine ⟨hheld, ?_⟩
    unfold Cache.contains Cache.usable? Cache.isUsable
    rw [hheld, hkeep]

/-- Two keys that are written alike, and an outcome for each: only the first one was fetched so far,
    and what is held for it is not held for the other. -/
theorem requests_contents_alike :
    let key : Key := ⟨"a/b", "c"⟩
    let other : Key := ⟨"a", "b/c"⟩
    let requests : List Batch.Request := [⟨key, .ok " one\n", 5⟩, ⟨other, .ok "two", 5⟩]
    key.text = other.text ∧
    ∃ f, Steps (requestSource requests) (Batch.floor requests (.empty true)) f ∧
      f.desk.cache.held? key = some "one" ∧ f.desk.cache.held? other = none ∧
      (∃ (i : Nat) (r : Batch.Request) (text : String), requests[i]? = some r ∧ r.key = key ∧
        r.outcome = .ok text ∧ "one" = Text.trim text) ∧
      ∀ g, Moves (requestSource requests) 1 f g → g.desk.cache.held? key = some "one" := by
  intro key other requests
  have hsteps : ∃ f, Steps (requestSource requests) (Batch.floor requests (.empty true)) f ∧
      f.desk.cache.held? key = some "one" ∧ f.desk.cache.held? other = none := by
    refine ⟨_, (((((Relation.ReflTransGen.refl.tail (.go (.miss (i := 0) rfl rfl))).tail
      (.go (.enter (i := 0) rfl))).tail (.go (.start (i := 0) rfl rfl rfl))).tail
      (.go (.miss (i := 1) rfl rfl))).tail (.go (.finish (i := 0) rfl))), rfl, rfl⟩
  obtain ⟨f, hf, hheld, hother⟩ := hsteps
  obtain ⟨hcontents, -, -, hmoves⟩ := requests_contents requests true hf
  obtain ⟨-, i, r, text, hr, hkey, houtcome, hsecret, -⟩ := hcontents key "one" hheld
  refine ⟨rfl, f, hf, hheld, hother, ⟨i, r, text, hr, hkey, houtcome, hsecret⟩, fun g hg => ?_⟩
  rw [(hmoves 1 _ g key rfl hg (by decide)).1]
  exact hheld

end Requests

end SecretFill
