import Mathlib.Data.List.DropRight
import SecretFill.Proofs.Fetches

namespace SecretFill

/-!
# What is cached is trimmed

A text has no white space at its ends after it was trimmed, and a cache takes in trimmed texts only.
So whatever was done with a cache that was empty, what it holds and what it gives out is trimmed.

* `Text.IsTrimmed`, `Text.trim_trim` — texts without white space at their ends.
* `Cache.IsTrimmed` — all secrets of a cache are such texts.
* `Cache.Reached` — the caches to which operations lead from an empty one.
* `Cache.Reached.induct` — what the end of every fetch keeps of a cache holds of these.
* `Cache.Reached.isTrimmed` — so they are trimmed.
-/

/-! ### Trimmed texts -/

namespace Text

/-- The first character that is not dropped is not to be dropped, whatever is dropped at the end. -/
theorem dropWhile_rdropWhile (p : Char → Bool) (cs : List Char) :
    ((cs.dropWhile p).rdropWhile p).dropWhile p = (cs.dropWhile p).rdropWhile p := by
  rw [List.dropWhile_eq_self_iff]
  intro hl hfirst
  have hkept : (cs.dropWhile p).rdropWhile p <+: cs.dropWhile p :=
    List.rdropWhile_prefix p _
  rw [hkept.getElem hl] at hfirst
  exact List.dropWhile_get_zero_not p cs (hl.trans_le hkept.length_le) hfirst

/-- To trim a text twice is to trim it once. -/
@[simp] theorem trim_trim (s : String) : trim (trim s) = trim s := by
  have hchars : ∀ cs, trimChars (trimChars cs) = trimChars cs := by
    intro cs
    show ((trimChars cs).dropWhile isBlank).rdropWhile isBlank
      = (cs.dropWhile isBlank).rdropWhile isBlank
    rw [show (trimChars cs).dropWhile isBlank = trimChars cs from dropWhile_rdropWhile isBlank cs]
    exact List.rdropWhile_idempotent isBlank _
  simp only [trim, String.toList_ofList, hchars]

/-- A text without white space at its ends. -/
def IsTrimmed (s : String) : Prop := trim s = s

theorem isTrimmed_trim (s : String) : IsTrimmed (trim s) := trim_trim s

/-- The white space before a text. -/
def lead (s : String) : List Char := s.toList.takeWhile isBlank

/-- The white space behind a text; a text of white space alone has none. -/
def trail (s : String) : List Char := (s.toList.dropWhile isBlank).rtakeWhile isBlank

theorem toList_trim (s : String) :
    (trim s).toList = (s.toList.dropWhile isBlank).rdropWhile isBlank := by
  rw [trim, String.toList_ofList]
  rfl

theorem toList_eq (s : String) : s.toList = lead s ++ ((trim s).toList ++ trail s) := by
  rw [toList_trim, trail, List.rdropWhile_append_rtakeWhile, lead,
    List.takeWhile_append_dropWhile]

end Text

/-! ### Trimmed caches -/

namespace Cache

variable {c : Cache} {key : Key} {secret : String}

/-- All secrets of a cache are trimmed. -/
def IsTrimmed (c : Cache) : Prop := ∀ entry ∈ c.secrets, Text.IsTrimmed entry.2

theorem isTrimmed_empty (keepEmpty : Bool) : (Cache.empty keepEmpty).IsTrimmed := by
  simp [IsTrimmed, empty]

namespace IsTrimmed

/-- What is given out of a trimmed cache is trimmed. -/
theorem usable (h : c.IsTrimmed) (hsecret : c.usable? key = some secret) :
    Text.IsTrimmed secret := by
  have hheld : c.held? key = some secret := (usable?_eq_some_iff.1 hsecret).1
  rw [held?_eq_entries, Option.map_eq_some_iff] at hheld
  obtain ⟨entry, hentry, rfl⟩ := hheld
  exact h entry (List.mem_filter.1 (List.mem_of_head? hentry)).1

/-- The end of a fetch puts at most a trimmed secret into the cache. -/
theorem finish (h : c.IsTrimmed) (key : Key) (outcome : Except Failure String) :
    (c.finish key outcome).1.IsTrimmed := by
  cases outcome with
  | error e => exact h
  | ok text =>
    intro entry hentry
    rcases List.mem_cons.1 hentry with rfl | hbefore
    · exact Text.isTrimmed_trim text
    · exact h entry (List.mem_filter.1 hbefore).1

end IsTrimmed

end Cache

/-! ### What the end of every fetch keeps -/

section Induction

variable {α σ : Type} {store : Store σ} {P : Cache → Prop}

/-- A walk on its own changes the cache by fetches alone. -/
theorem Walk.cache_induct (hcount : ∀ c, P c → P c.countFetch)
    (hfinish : ∀ c key outcome, P c → P (c.finish key outcome).1) (w : Walk α) (s : Session σ)
    (h : P s.cache) : P (w.run store s).session.cache :=
  w.run_induct (P := fun t => P t.cache)
    (fun t key _ ht => hfinish t.cache.countFetch key _ (hcount t.cache ht)) s h

/-- So do operations, whose walks may stand side by side and be dropped. -/
theorem Operates.cache_induct (hcount : ∀ c, P c → P c.countFetch)
    (hfinish : ∀ c key outcome, P c → P (c.finish key outcome).1) {s t : Session σ}
    (hop : Operates store s t) (h : P s.cache) : P t.cache := by
  cases hop with
  | document | handle | credential => exact Walk.cache_induct hcount hfinish _ _ h
  | documents policy documents =>
    -- A schedule is one order of steps, wherever a failure stops it.
    obtain ⟨f, hruns, hsession, -⟩ := Schedule.run_runs (fun _ => store) Batch.halts
      (Batch.asks documents) (documents.map (report policy)) s
    have hend : P f.session.cache := hruns.steps.cache_induct hcount hfinish h
    rw [hsession] at hend
    exact hend
  | dropped walks f hsteps => exact hsteps.cache_induct hcount hfinish h

end Induction

/-! ### Caches that are reached -/

namespace Cache

/-- A cache is reached from an empty one by operations, each over any store. -/
inductive Reached : Cache → Prop where
  /-- It is empty. -/
  | empty (keepEmpty : Bool) : Reached (.empty keepEmpty)
  /-- An operation leaves it. -/
  | operates {σ : Type} {store : Store σ} {s t : Session σ} (before : Reached s.cache)
    (h : Operates store s t) : Reached t.cache

namespace Reached

/-- **What the end of every fetch keeps** of a cache holds of every cache that is reached. -/
theorem induct {P : Cache → Prop} (hempty : ∀ keepEmpty, P (.empty keepEmpty))
    (hcount : ∀ c, P c → P c.countFetch)
    (hfinish : ∀ c key outcome, P c → P (c.finish key outcome).1) {c : Cache} (h : c.Reached) :
    P c := by
  induction h with
  | empty keepEmpty => exact hempty keepEmpty
  | operates _ hop ih => exact hop.cache_induct hcount hfinish ih

/-- **Every cache that is reached is trimmed.** -/
theorem isTrimmed {c : Cache} (h : c.Reached) : c.IsTrimmed :=
  h.induct isTrimmed_empty (fun _ h => h) fun _ key outcome h => h.finish key outcome

end Reached

end Cache

end SecretFill
