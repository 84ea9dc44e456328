import SecretFill.Proofs.Office
import SecretFill.Proofs.Trimming

namespace SecretFill

/-!
# White space around secrets

Two stores may answer alike but for the white space around a secret.  Whoever asks them through a
cache gets the same answers, because a text is trimmed before it is given out or held.

* `Text.SameBody`, `SameOutcome` — texts and outcomes that differ at most in such white space.
* `Store.AnswersAlike` — stores whose answers differ in nothing else.
* `Cache.finish_alike` — the ends of their fetches cannot be told apart.
* `Walk.run_alike` — a walk on its own comes to the same over both stores.
* `Floor.Alike.of_steps` — so do walks side by side, in any order of steps.
-/

/-! ### Texts -/

namespace Text

variable {s t : String}

/-- Two texts that differ at most in the white space at their ends. -/
def SameBody (s t : String) : Prop :=
  ∃ body before behind before' behind' : List Char,
    s.toList = before ++ (body ++ behind) ∧ t.toList = before' ++ (body ++ behind') ∧
      ∀ part ∈ [before, behind, before', behind'], ∀ c ∈ part, isBlank c = true

theorem trimChars_eq (cs : List Char) :
    trimChars cs = (cs.dropWhile isBlank).rdropWhile isBlank := rfl

/-- White space behind a text is trimmed off. -/
theorem trimChars_append_blank (cs : List Char) {behind : List Char}
    (h : ∀ c ∈ behind, isBlank c = true) : trimChars (cs ++ behind) = trimChars cs := by
  have hbehind : behind.dropWhile isBlank = [] := List.dropWhile_eq_nil_iff.2 h
  have hr : ∀ ds : List Char, (ds ++ behind).rdropWhile isBlank = ds.rdropWhile isBlank := by
    intro ds
    unfold List.rdropWhile
    rw [List.reverse_append, List.dropWhile_append_of_pos fun c hc => h c (List.mem_reverse.1 hc)]
  rw [trimChars_eq, trimChars_eq, List.dropWhile_append]
  split
  · rename_i hempty
    rw [hbehind, List.isEmpty_iff.1 hempty]
  · exact hr _

/-- **The same body** is what is left when the texts are trimmed. -/
theorem sameBody_iff : SameBody s t ↔ trim s = trim t := by
  constructor
  · rintro ⟨body, before, behind, before', behind', hs, ht, hblank⟩
    have hbody : ∀ {before behind : List Char}, (∀ c ∈ before, isBlank c = true) →
        (∀ c ∈ behind, isBlank c = true) →
          trimChars (before ++ (body ++ behind)) = trimChars body := by
      intro before behind hbefore hbehind
      rw [trimChars_eq, List.dropWhile_append_of_pos hbefore, ← trimChars_eq,
        trimChars_append_blank body hbehind]
    rw [trim, trim, hs, ht, hbody (hblank _ (by simp)) (hblank _ (by simp)),
      hbody (hblank _ (by simp)) (hblank _ (by simp))]
  · intro h
    refine ⟨(trim s).toList, lead s, trail s, lead t, trail t, toList_eq s, ?_, ?_⟩
    · rw [h]
      exact toList_eq t
    · simp only [List.mem_cons, List.not_mem_nil, or_false, forall_eq_or_imp, forall_eq]
      exact ⟨fun _ => List.mem_takeWhile_imp, fun _ => List.mem_rtakeWhile_imp,
        fun _ => List.mem_takeWhile_imp, fun _ => List.mem_rtakeWhile_imp⟩

end Text

/-! ### Outcomes and stores -/

/-- Two outcomes of a fetch that differ at most in the white space around a text. -/
inductive SameOutcome : Except Failure String → Except Failure String → Prop where
  /-- Texts with the same body. -/
  | text {s t : String} (h : Text.SameBody s t) : SameOutcome (.ok s) (.ok t)
  /-- The same failure. -/
  | failure (e : Failure) : SameOutcome (.error e) (.error e)

/-- What differs in the white space around a text is the same when it is trimmed. -/
theorem SameOutcome.trimmed_eq {o o' : Except Failure String} (h : SameOutcome o o') :
    trimmed o = trimmed o' := by
  cases h with
  | text h => exact congrArg Except.ok (Text.sameBody_iff.1 h)
  | failure e => rfl

/-- **The end of a fetch** does not show the white space around its text. -/
theorem Cache.finish_alike {o o' : Except Failure String} (h : SameOutcome o o') (c : Cache)
    (key : Key) : c.finish key o = c.finish key o' := by
  cases h with
  | text h => rw [finish_ok, finish_ok, Text.sameBody_iff.1 h]
  | failure e => rfl

theorem Desk.finish_alike {o o' : Except Failure String} (h : SameOutcome o o') (d : Desk)
    (caller : Nat) (key : Key) : d.finish caller key o = d.finish caller key o' := by
  unfold finish
  rw [d.cache.finish_alike h]

variable {α σ σ' : Type}

/-- Two stores that answer every call alike, but for the white space around a secret, as long as
    their states are related by `R`; and so they stay. -/
structure Store.AnswersAlike (R : σ → σ' → Prop) (store : Store σ) (store' : Store σ') : Prop where
  /-- Apart from white space the outcome is the same. -/
  outcome : ∀ {s s'} key, R s s' → SameOutcome (store key s).1.outcome (store' key s').1.outcome
  /-- It takes the same time. -/
  delay : ∀ {s s'} key, R s s' → (store key s).1.delay = (store' key s').1.delay
  /-- Also the next answers are alike. -/
  next : ∀ {s s'} key, R s s' → R (store key s).2 (store' key s').2

/-- Two sessions with the same cache, over related states. -/
structure Session.Alike (R : σ → σ' → Prop) (s : Session σ) (s' : Session σ') : Prop where
  /-- The caches are the same. -/
  cache : s.cache = s'.cache
  /-- The states are related. -/
  store : R s.store s'.store

section Stores

variable {R : σ → σ' → Prop} {store : Store σ} {store' : Store σ'}

/-- States that are related, and the same calls so far. -/
def Noted (R : σ → σ' → Prop) (s : σ × List Key) (s' : σ' × List Key) : Prop :=
  R s.1 s'.1 ∧ s.2 = s'.2

/-- Noting the calls makes no difference. -/
theorem Store.AnswersAlike.recorded (h : store.AnswersAlike R store') :
    store.recorded.AnswersAlike (Noted R) store'.recorded where
  outcome key hs := h.outcome key hs.1
  delay key hs := h.delay key hs.1
  next key hs := ⟨h.next key hs.1, congrArg (key :: ·) hs.2⟩

/-- **A walk on its own** comes to the same over both stores, and leaves the same cache. -/
theorem Walk.run_alike (h : store.AnswersAlike R store') (w : Walk α) {s : Session σ}
    {s' : Session σ'} (hs : s.Alike R s') :
    (w.run store s).result = (w.run store' s').result ∧
      (w.run store s).session.Alike R (w.run store' s').session := by
  induction w generalizing s s' with
  | done result => exact ⟨rfl, hs⟩
  | note notice next ih => exact ih hs
  | ask key resume ih =>
    cases hu : s'.cache.usable? key with
    | some secret =>
      simp only [run, hs.cache, hu]
      exact ih (.ok secret) hs
    | none =>
      have hfinish := s'.cache.countFetch.finish_alike (h.outcome key hs.store) key
      simp only [run, hs.cache, hu, hfinish]
      exact ih _ ⟨rfl, h.next key hs.store⟩

end Stores

/-! ### Walks side by side -/

/-- Two stages that differ at most in the white space around the text of a fetch in flight. -/
inductive Stage.Alike : Stage α → Stage α → Prop where
  /-- The same stage. -/
  | same (stage : Stage α) : Alike stage stage
  /-- A fetch in flight. -/
  | fetching {key : Key} {o o' : Except Failure String} {resume : Except Failure String → Walk α}
    (h : SameOutcome o o') : Alike (.fetching key o resume) (.fetching key o' resume)

/-- Two floors with the same desk, over related states, with walks at such stages. -/
structure Floor.Alike (R : σ → σ' → Prop) (f : Floor α σ) (f' : Floor α σ') : Prop where
  /-- The desks are the same. -/
  desk : f.desk = f'.desk
  /-- The states are related. -/
  store : R f.store f'.store
  /-- The walks are equally far. -/
  stages : List.Forall₂ Stage.Alike f.stages f'.stages

namespace Stage.Alike

variable {stage stage' : Stage α}

/-- A walk has its result in both stages. -/
theorem result_iff (h : stage.Alike stage') {result : α} :
    stage = .finished result ↔ stage' = .finished result := by
  cases h with
  | same => exact Iff.rfl
  | fetching h => simp

theorem isOpen (h : stage.Alike stage') (hopen : stage.IsOpen) : stage'.IsOpen := by
  cases h with
  | same => exact hopen
  | fetching h => exact hopen

theorem place?_eq (h : stage.Alike stage') : stage.place? = stage'.place? := by
  cases h with
  | same => rfl
  | fetching h => rfl

end Stage.Alike

/-- What is related one by one is so when one pair is replaced. -/
theorem forall₂_set {β γ : Type} {r : β → γ → Prop} {l : List β} {l' : List γ}
    (h : List.Forall₂ r l l') {b : β} {c : γ} (hnew : r b c) (i : Nat) :
    List.Forall₂ r (l.set i b) (l'.set i c) := by
  induction h generalizing i with
  | nil => exact .nil
  | cons hfirst hrest ih =>
    cases i with
    | zero => exact .cons hnew hrest
    | succ i => exact .cons hfirst (ih i)

/-- Each has its counterpart. -/
theorem exists_of_forall₂ {β γ : Type} {r : β → γ → Prop} {l : List β} {l' : List γ}
    (h : List.Forall₂ r l l') {i : Nat} {b : β} (at_ : l[i]? = some b) :
    ∃ c, l'[i]? = some c ∧ r b c := by
  induction h generalizing i with
  | nil => exact absurd at_ (by simp)
  | cons hfirst hrest ih =>
    cases i with
    | zero =>
      obtain rfl := Option.some.inj at_
      exact ⟨_, rfl, hfirst⟩
    | succ i => exact ih at_

namespace Floor.Alike

variable {R : σ → σ' → Prop} {store : Store σ} {store' : Store σ'} {f g : Floor α σ}
  {f' : Floor α σ'} {i : Nat}

/-- Walks that have not begun. -/
theorem start (walks : List (Walk α)) {s : Session σ} {s' : Session σ'} (hs : s.Alike R s') :
    (Floor.start walks s).Alike R (Floor.start walks s') where
  desk := congrArg Desk.idle hs.cache
  store := hs.store
  stages := List.forall₂_same.2 fun stage _ => .same stage

/-- One walk gets to another stage, before the same desk. -/
theorem put {desk : Desk} {state : σ} {state' : σ'} {stages stages' : List (Stage α)}
    (hstages : List.Forall₂ Stage.Alike stages stages') (hstate : R state state')
    {new new' : Stage α} (hnew : new.Alike new') :
    (Floor.put ⟨desk, state, stages⟩ i new).Alike R (Floor.put ⟨desk, state', stages'⟩ i new') :=
  ⟨rfl, hstate, forall₂_set hstages hnew i⟩

/-- A walk that does not fetch is at the same stage. -/
theorem at_eq {stages stages' : List (Stage α)} {stage : Stage α}
    (hstages : List.Forall₂ Stage.Alike stages stages') (at_ : stages[i]? = some stage)
    (hidle : ∀ key o resume, stage ≠ .fetching key o resume) : stages'[i]? = some stage := by
  obtain ⟨stage', hat, hsame⟩ := exists_of_forall₂ hstages at_
  cases hsame with
  | same => exact hat
  | fetching => exact absurd rfl (hidle _ _ _)

/-- **One step** over the one store is a step over the other one, and leads to floors that are
    alike. -/
theorem of_go (h : store.AnswersAlike R store') (hf : f.Alike R f')
    (hgo : Go (fun _ => store) i f g) : ∃ g', Go (fun _ => store') i f' g' ∧ g.Alike R g' := by
  obtain ⟨desk, state, stages⟩ := f
  obtain ⟨desk', state', stages'⟩ := f'
  obtain ⟨hdesk, hstate, hstages⟩ := hf
  obtain rfl : desk = desk' := hdesk
  cases hgo with
  | note at_ => exact ⟨_, .note (at_eq hstages at_ nofun), put hstages hstate (.same _)⟩
  | done at_ => exact ⟨_, .done (at_eq hstages at_ nofun), put hstages hstate (.same _)⟩
  | hit at_ found => exact ⟨_, .hit (at_eq hstages at_ nofun) found, put hstages hstate (.same _)⟩
  | miss at_ found =>
    exact ⟨_, .miss (at_eq hstages at_ nofun) found, put hstages hstate (.same _)⟩
  | enter at_ => exact ⟨_, .enter (at_eq hstages at_ nofun), put hstages hstate (.same _)⟩
  | join at_ turn found =>
    exact ⟨_, .join (at_eq hstages at_ nofun) turn found, put hstages hstate (.same _)⟩
  | @start key _ at_ turn found =>
    have houtcome := h.outcome key hstate
    exact ⟨_, .start (at_eq hstages at_ nofun) turn found,
      put hstages (h.next key hstate) (.fetching houtcome)⟩
  | @finish key outcome resume at_ =>
    obtain ⟨_, hat, hsame⟩ := exists_of_forall₂ hstages at_
    cases hsame with
    | same => exact ⟨_, .finish hat, put hstages hstate (.same _)⟩
    | fetching houtcome =>
      -- The text is trimmed here, so the two floors do not show any longer what it was.
      have hfinish := desk.finish_alike houtcome i key
      refine ⟨_, .finish hat, ?_⟩
      show Floor.Alike R (Floor.put ⟨_, state, stages⟩ i _) (Floor.put ⟨_, state', stages'⟩ i _)
      rw [hfinish]
      exact put hstages hstate (.same _)

/-- **Any number of steps**, with walks that are dropped, lead to floors that are alike. -/
theorem of_steps (h : store.AnswersAlike R store') (hf : f.Alike R f')
    (hsteps : Steps (fun _ => store) f g) :
    ∃ g', Steps (fun _ => store') f' g' ∧ g.Alike R g' := by
  induction hsteps with
  | refl => exact ⟨f', .refl, hf⟩
  | @tail before after _ hstep ih =>
    obtain ⟨before', hsteps', halike⟩ := ih
    cases hstep with
    | go hgo =>
      obtain ⟨after', hgo', hafter⟩ := halike.of_go h hgo
      exact ⟨after', hsteps'.tail (.go hgo'), hafter⟩
    | @drop i stage at_ isOpen =>
      obtain ⟨stage', hat, hsame⟩ := exists_of_forall₂ halike.stages at_
      refine ⟨_, hsteps'.tail (.drop hat (hsame.isOpen isOpen)), ?_⟩
      -- Both stand in the same line, or in none, and leave it.
      have hleave : before.deskWithout i stage = before'.deskWithout i stage' := by
        unfold deskWithout
        rw [hsame.place?_eq, halike.desk]
      show Floor.Alike R (Floor.put ⟨_, before.store, before.stages⟩ i _)
        (Floor.put ⟨_, before'.store, before'.stages⟩ i _)
      rw [hleave]
      exact put halike.stages halike.store (.same _)

/-- The walks that have results have the same ones. -/
theorem finished_iff (hf : f.Alike R f') (result : α) :
    f.stages[i]? = some (.finished result) ↔ f'.stages[i]? = some (.finished result) := by
  constructor
  · intro hat
    obtain ⟨stage, hat', hsame⟩ := exists_of_forall₂ hf.stages hat
    rw [hat', hsame.result_iff.1 rfl]
  · intro hat
    obtain ⟨stage, hat', hsame⟩ := exists_of_forall₂ hf.stages.flip hat
    have hflip : stage.Alike (.finished result) := hsame
    rw [hat', hflip.result_iff.2 rfl]

end Floor.Alike

end SecretFill
