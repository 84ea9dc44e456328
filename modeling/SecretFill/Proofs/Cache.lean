import Mathlib.Data.List.Perm.Basic
import SecretFill.Cache

namespace SecretFill

/-!
# What the operations of a cache do to its entries

A cache is looked at one key at a time: everything that can be asked of it follows from the entries
of each key, so two caches that agree on these (`Cache.Alike`) cannot be told apart.

* `trimmed` — what a caller gets of the outcome of a fetch.
* `Cache.held?_finish_self`, `Cache.held?_finish_of_ne` — the end of a fetch changes at most the
  secret of its own key.
* `Cache.Alike` — the same settings, the same count of fetches, the same entries for each key;
  `Cache.Alike.usable?`, `Cache.Alike.size` — hence the same answers.
* `Cache.insert_comm` — secrets of different keys may be inserted in either order.
-/

/-- What a caller gets of the outcome of a fetch: a secret is trimmed. -/
def trimmed (outcome : Except Failure String) : Except Failure String := outcome.map Text.trim

@[simp] theorem trimmed_ok (text : String) : trimmed (.ok text) = .ok (Text.trim text) := rfl
@[simp] theorem trimmed_error (e : Failure) : trimmed (.error e) = .error e := rfl

/-- Only the trimmed text of a secret that was fetched is given to a caller. -/
theorem trimmed_eq_ok {outcome : Except Failure String} {secret : String}
    (h : trimmed outcome = .ok secret) : ∃ text, outcome = .ok text ∧ secret = Text.trim text := by
  cases outcome with
  | error e => exact absurd h (by simp)
  | ok text => exact ⟨text, rfl, (Except.ok.inj h).symm⟩

/-- Dropping the entries of one key leaves the lookups of the others as they are. -/
theorem lookup_filter_of_ne {κ α : Type} [DecidableEq κ] {key other : κ} (h : other ≠ key)
    (entries : List (κ × α)) :
    (entries.filter (·.1 ≠ key)).lookup other = entries.lookup other := by
  induction entries with
  | nil => rfl
  | cons entry rest ih =>
    by_cases hk : entry.1 = key
    · have hne : (other == entry.1) = false := by rw [hk]; exact beq_false_of_ne h
      rw [List.filter_cons_of_neg (by simpa using hk), ih, List.lookup_cons, hne]
    · rw [List.filter_cons_of_pos (by simpa using hk), List.lookup_cons, List.lookup_cons, ih]

namespace Cache

variable {c d : Cache} {key other : Key} {secret text : String} {outcome : Except Failure String}

/-! ### Lookups -/

/-- A secret is usable iff it is held and may be given out. -/
theorem usable?_eq_some_iff :
    c.usable? key = some secret ↔ c.held? key = some secret ∧ c.isUsable secret = true := by
  simp [usable?, Option.filter_eq_some_iff]

/-- Lookups see the secrets of the cache and whether empty ones count, nothing else. -/
theorem usable?_congr (hsecrets : c.secrets = d.secrets) (hkeep : c.keepEmpty = d.keepEmpty) :
    c.usable? key = d.usable? key := by
  unfold usable? held? isUsable
  rw [hsecrets, hkeep]

@[simp] theorem keepEmpty_countFetch : c.countFetch.keepEmpty = c.keepEmpty := rfl
@[simp] theorem fetches_countFetch : c.countFetch.fetches = c.fetches + 1 := rfl
@[simp] theorem usable?_countFetch : c.countFetch.usable? key = c.usable? key := rfl

/-! ### The end of a fetch -/

@[simp] theorem finish_ok : c.finish key (.ok text)
    = (c.insert key (Text.trim text), .ok (Text.trim text)) := rfl

@[simp] theorem finish_error (e : Failure) : c.finish key (.error e) = (c, .error e) := rfl

/-- The caller gets the trimmed outcome, whatever the cache holds. -/
@[simp] theorem finish_snd : (c.finish key outcome).2 = trimmed outcome := by
  cases outcome <;> rfl

@[simp] theorem keepEmpty_finish : (c.finish key outcome).1.keepEmpty = c.keepEmpty := by
  cases outcome <;> rfl

@[simp] theorem fetches_finish : (c.finish key outcome).1.fetches = c.fetches := by
  cases outcome <;> rfl

/-- What is held after a fetch does not depend on how many fetches were counted. -/
theorem secrets_finish_congr (hsecrets : c.secrets = d.secrets) :
    (c.finish key outcome).1.secrets = (d.finish key outcome).1.secrets := by
  cases outcome with
  | error e => exact hsecrets
  | ok text => simp only [finish_ok, insert, hsecrets]

@[simp] theorem held?_insert_self : (c.insert key secret).held? key = some secret := by
  simp [held?, insert]

theorem held?_insert_of_ne (h : other ≠ key) :
    (c.insert key secret).held? other = c.held? other := by
  have hne : (other == key) = false := beq_false_of_ne h
  show List.lookup other ((key, secret) :: c.secrets.filter (·.1 ≠ key)) = _
  rw [List.lookup_cons, hne]
  exact lookup_filter_of_ne h c.secrets

/-- The end of a fetch leaves the secrets of the other keys as they are. -/
theorem held?_finish_of_ne (h : other ≠ key) :
    (c.finish key outcome).1.held? other = c.held? other := by
  cases outcome with
  | error e => rfl
  | ok text => exact held?_insert_of_ne h

theorem usable?_finish_of_ne (h : other ≠ key) :
    (c.finish key outcome).1.usable? other = c.usable? other := by
  unfold usable? isUsable
  rw [held?_finish_of_ne h, keepEmpty_finish]

/-- A usable secret that is there after a fetch of its key was there before, or was fetched. -/
theorem usable?_finish_self (h : (c.finish key outcome).1.usable? key = some secret) :
    trimmed outcome = .ok secret ∨ c.usable? key = some secret := by
  cases outcome with
  | error e => exact .inr h
  | ok text =>
    rw [finish_ok, usable?_eq_some_iff, held?_insert_self] at h
    exact .inl (congrArg Except.ok (Option.some.inj h.1))

/-- A fetch that gave a usable secret leaves it usable. -/
theorem usable?_finish_ok (h : c.isUsable (Text.trim text) = true) :
    (c.finish key (.ok text)).1.usable? key = some (Text.trim text) :=
  usable?_eq_some_iff.2 ⟨held?_insert_self, h⟩

/-! ### The entries of one key -/

/-- The entries of one key. -/
def entries (c : Cache) (key : Key) : List (Key × String) := c.secrets.filter (·.1 = key)

/-- What is held for a key is read off the entries of the key. -/
theorem held?_eq_entries : c.held? key = (c.entries key).head?.map (·.2) := by
  unfold held? entries
  induction c.secrets with
  | nil => rfl
  | cons entry rest ih =>
    by_cases hk : entry.1 = key
    · rw [List.filter_cons_of_pos (by simpa using hk), List.lookup_cons, hk]
      simp
    · have hne : (key == entry.1) = false := beq_false_of_ne (Ne.symm hk)
      rw [List.filter_cons_of_neg (by simpa using hk), List.lookup_cons, hne]
      exact ih

theorem entries_insert_self : (c.insert key secret).entries key = [(key, secret)] := by
  simp only [entries, insert]
  rw [List.filter_cons_of_pos (by simp), List.filter_filter]
  simp

theorem entries_insert_of_ne (h : other ≠ key) :
    (c.insert key secret).entries other = c.entries other := by
  simp only [entries, insert]
  rw [List.filter_cons_of_neg (by simpa using Ne.symm h), List.filter_filter]
  -- What is for the other key is not for this one, so nothing of it was dropped.
  refine List.filter_congr fun entry _ => ?_
  by_cases he : entry.1 = other
  · simp [he, h]
  · simp [he]

/-! ### Caches that cannot be told apart -/

/-- Two caches with the same entries for every key, and the same settings and count. -/
structure Alike (c d : Cache) : Prop where
  /-- The same secrets count as cached. -/
  keepEmpty : c.keepEmpty = d.keepEmpty
  /-- The same number of fetches was started. -/
  fetches : c.fetches = d.fetches
  /-- Each key has the same entries. -/
  entries : ∀ key, c.entries key = d.entries key

namespace Alike

theorem refl (c : Cache) : c.Alike c := ⟨rfl, rfl, fun _ => rfl⟩

theorem symm (h : c.Alike d) : d.Alike c :=
  ⟨h.keepEmpty.symm, h.fetches.symm, fun key => (h.entries key).symm⟩

theorem trans {e : Cache} (h : c.Alike d) (h' : d.Alike e) : c.Alike e :=
  ⟨h.keepEmpty.trans h'.keepEmpty, h.fetches.trans h'.fetches,
    fun key => (h.entries key).trans (h'.entries key)⟩

theorem held? (h : c.Alike d) (key : Key) : c.held? key = d.held? key := by
  rw [held?_eq_entries, held?_eq_entries, h.entries key]

theorem usable? (h : c.Alike d) (key : Key) : c.usable? key = d.usable? key := by
  unfold Cache.usable? isUsable
  rw [h.held? key, h.keepEmpty]

theorem contains (h : c.Alike d) (key : Key) : c.contains key = d.contains key := by
  unfold Cache.contains
  rw [h.usable? key]

/-- Caches that agree on every key hold the same entries, so as many of them. -/
theorem perm (h : c.Alike d) : c.secrets.Perm d.secrets := by
  rw [List.perm_iff_count]
  intro entry
  -- An entry stands among the entries of its own key only.
  have hcount : ∀ e : Cache, e.secrets.count entry = (e.entries entry.1).count entry :=
    fun e => (List.count_filter (by simp)).symm
  rw [hcount c, hcount d, h.entries]

theorem size (h : c.Alike d) : c.size = d.size := h.perm.length_eq

theorem countFetch (h : c.Alike d) : c.countFetch.Alike d.countFetch :=
  ⟨h.keepEmpty, congrArg (· + 1) h.fetches, h.entries⟩

theorem insert (h : c.Alike d) (key : Key) (secret : String) :
    (c.insert key secret).Alike (d.insert key secret) := by
  refine ⟨h.keepEmpty, h.fetches, fun other => ?_⟩
  by_cases hk : other = key
  · rw [hk, entries_insert_self, entries_insert_self]
  · rw [entries_insert_of_ne hk, entries_insert_of_ne hk, h.entries]

theorem finish (h : c.Alike d) (key : Key) (outcome : Except Failure String) :
    (c.finish key outcome).1.Alike (d.finish key outcome).1 := by
  cases outcome with
  | error e => exact h
  | ok text => exact h.insert key _

end Alike

/-- Secrets of different keys may be inserted in either order. -/
theorem insert_comm (h : key ≠ other) (secret text : String) :
    ((c.insert key secret).insert other text).Alike
      ((c.insert other text).insert key secret) := by
  refine ⟨rfl, rfl, fun k => ?_⟩
  by_cases hk : k = key
  · subst hk
    rw [entries_insert_of_ne h, entries_insert_self, entries_insert_self]
  · by_cases ho : k = other
    · subst ho
      rw [entries_insert_self, entries_insert_of_ne hk, entries_insert_self]
    · rw [entries_insert_of_ne ho, entries_insert_of_ne hk, entries_insert_of_ne hk,
        entries_insert_of_ne ho]

/-- Fetches of different keys may end in either order. -/
theorem finish_comm (h : key ≠ other) (first second : Except Failure String) :
    (((c.countFetch.finish key first).1.countFetch).finish other second).1.Alike
      (((c.countFetch.finish other second).1.countFetch).finish key first).1 := by
  -- A failure leaves the cache as it is, so only two secrets change places.
  cases first with
  | error e => cases second <;> exact Alike.refl _
  | ok text =>
    cases second with
    | error e => exact Alike.refl _
    | ok text' => exact ⟨rfl, rfl, (insert_comm h _ _).entries⟩

end Cache

end SecretFill
