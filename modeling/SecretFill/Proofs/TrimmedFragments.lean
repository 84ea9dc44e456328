import SecretFill.Proofs.Embedding
import SecretFill.Proofs.FirstEntries
import SecretFill.Proofs.Lookup
import SecretFill.Proofs.Trimming

namespace SecretFill

/-!
# Fragments of trimmed secrets

A secret is trimmed before it is kept.  A key of it gives the same value then, if trimming takes away
whole lines before the text and nothing behind it that a block scalar would take in.  Otherwise the
value is the same of a key whose entry comes before what trimming changes.

* `TrimsHarmlessly` — trimming takes away white space only that YAML does not heed.
* `TrimsElsewhere` — what it changes stands behind the entry of a key.
* `Fragment.extract_trim`, `render_trim` — a key of the trimmed secret, and what it is rendered to.
* `resolve_trimmed` — what a handle comes to.
-/

open Yaml

/-! ### What trimming takes away -/

namespace Text

variable {s : String} {c : Char}

theorem head_trim (h : (trim s).toList.head? = some c) : isBlank c = false := by
  obtain ⟨cs, hcs⟩ := List.head?_eq_some_iff.1 h
  have hfirst := List.dropWhile_eq_self_iff.1 (dropWhile_rdropWhile isBlank s.toList)
    (by rw [← toList_trim, hcs]; exact Nat.succ_pos _)
  simp only [← toList_trim, hcs] at hfirst
  simpa using hfirst

theorem getLast_trim (h : (trim s).toList.getLast? = some c) : isBlank c = false := by
  rw [toList_trim] at h
  have hne : (s.toList.dropWhile isBlank).rdropWhile isBlank ≠ [] := by
    intro hnil
    rw [hnil] at h
    cases h
  have hlast := List.rdropWhile_last_not isBlank (s.toList.dropWhile isBlank) hne
  rw [List.getLast?_eq_some_getLast hne] at h
  obtain rfl := Option.some.inj h
  simpa using hlast

theorem trim_ne_nil (h : isAllBlank s = false) : (trim s).toList ≠ [] := by
  intro hnil
  have hs := toList_eq s
  rw [hnil, List.nil_append] at hs
  have hall : isAllBlank s = true := by
    rw [isAllBlank, hs, List.all_append, Bool.and_eq_true, List.all_eq_true, List.all_eq_true]
    exact ⟨fun _ => List.mem_takeWhile_imp, fun _ => List.mem_rtakeWhile_imp⟩
  rw [h] at hall
  cases hall

theorem isBlank_of_isWhite (h : isWhite c = true) : isBlank c = true := by
  simp only [isWhite, isGap, isBreak, Bool.or_eq_true, beq_iff_eq] at h
  rcases h with (rfl | rfl) | (((rfl | rfl) | rfl) | rfl) | rfl <;> decide

/-- Trimming takes from a text no more than white space that YAML does not heed. -/
structure TrimsHarmlessly (s : String) : Prop where
  /-- What is taken away are spaces, tabs and line breaks of YAML. -/
  white : (lead s ++ trail s).all isWhite = true
  /-- What is taken away before the text are whole lines. -/
  lines : (lead s).getLast?.all isBreak = true
  /-- No byte order mark comes to the start. -/
  mark : lead s = [] ∨ (trim s).toList.head? ≠ some byteOrderMark
  /-- A block scalar that reaches the end of the text does not take in what is taken away behind it,
      or drops it. -/
  blocks : ∀ c ∈ closingBlocks (trim s).toList,
    trail s = [] ∨ c = .strip ∧ (trail s).all isBreak = true

theorem trimsHarmlessly_iff : TrimsHarmlessly s ↔
    (lead s ++ trail s).all isWhite = true ∧ (lead s).getLast?.all isBreak = true ∧
      (lead s = [] ∨ (trim s).toList.head? ≠ some byteOrderMark) ∧
      ∀ c ∈ closingBlocks (trim s).toList,
        trail s = [] ∨ c = .strip ∧ (trail s).all isBreak = true :=
  ⟨fun h => ⟨h.white, h.lines, h.mark, h.blocks⟩, fun h => ⟨h.1, h.2.1, h.2.2.1, h.2.2.2⟩⟩

instance (s : String) : Decidable (TrimsHarmlessly s) := decidable_of_iff' _ trimsHarmlessly_iff

/-- The tokens of the trimmed text are those of the text, as far as they can be read. -/
theorem TrimsHarmlessly.tells (h : TrimsHarmlessly s) (hblank : isAllBlank s = false) :
    Tells (Yaml.tokens s.toList) (Yaml.tokens (trim s).toList) := by
  have hwhite := List.all_eq_true.1 h.white
  have hkept : ∀ {c}, isBlank c = false → isWhite c = false := by
    intro c hc
    rw [Bool.eq_false_iff]
    intro hc'
    rw [isBlank_of_isWhite hc'] at hc
    cases hc
  conv => lhs; rw [toList_eq s]
  refine (tokens_agrees (fun d hd => hwhite d (List.mem_append_left _ hd))
    (fun d hd => hwhite d (List.mem_append_right _ hd)) (fun d hd => ?_)
    (fun d hd => hkept (head_trim hd)) (fun hd => h.mark.resolve_right fun hne => hne hd)
    (fun d hd => hkept (getLast_trim hd)) (fun c hc => ?_) (trim_ne_nil hblank)).tells
  · simpa [hd] using h.lines
  · simpa using h.blocks c hc

theorem TrimsHarmlessly.read {v : Value} (h : TrimsHarmlessly s) (hblank : isAllBlank s = false)
    (hv : Yaml.read s.toList = .ok v) : Yaml.read (trim s).toList = .ok v := by
  rw [read_eq] at hv ⊢
  exact value_tells (h.tells hblank) hv

/-- Trimming changes the document in a secret behind some of its parts only, and no key behind them is
    asked for by a name. -/
structure TrimsElsewhere (s name : String) (parts : List Part) : Prop where
  /-- The secret and the trimmed secret both begin with these parts, -/
  begins : ∀ text ∈ [s.toList, (trim s).toList], parts <+: (Document.first text).parts.map (·.1)
  /-- none of which is a reference. -/
  plain : ∀ part ∈ parts, part.isReference = false
  /-- Of neither does a key behind them have the name for its text. -/
  behind : ∀ text ∈ [s.toList, (trim s).toList], ∀ entries ∈ entries? text,
    ∀ entry ∈ entries.drop (entriesWithin parts).length, entry.1.keyText? ≠ some name
  /-- The trimmed secret still is a mapping. -/
  mapping : (entries? (trim s).toList).isSome = true

section Elsewhere

variable {name : String} {parts : List Part}

theorem trimsElsewhere_iff : TrimsElsewhere s name parts ↔
    (∀ text ∈ [s.toList, (trim s).toList], parts <+: (Document.first text).parts.map (·.1)) ∧
      (∀ part ∈ parts, part.isReference = false) ∧
      (∀ text ∈ [s.toList, (trim s).toList], ∀ entries ∈ entries? text,
        ∀ entry ∈ entries.drop (entriesWithin parts).length, entry.1.keyText? ≠ some name) ∧
      (entries? (trim s).toList).isSome = true :=
  ⟨fun h => ⟨h.begins, h.plain, h.behind, h.mapping⟩, fun h => ⟨h.1, h.2.1, h.2.2.1, h.2.2.2⟩⟩

instance (s name : String) (parts : List Part) : Decidable (TrimsElsewhere s name parts) :=
  decidable_of_iff' _ trimsElsewhere_iff

/-- In both secrets the key is looked up among the entries that the common parts make. -/
theorem TrimsElsewhere.lookup (h : TrimsElsewhere s name parts) {text : List Char}
    (htext : text ∈ [s.toList, (trim s).toList]) {entries : List (Value × Value)}
    (hread : Yaml.read text = .ok (.mapping entries)) :
    Fragment.lookup name entries = Fragment.lookup name (entriesWithin parts) := by
  obtain ⟨others, rfl⟩ := entriesWithin_prefix (h.begins text htext) h.plain hread
  refine Fragment.lookup_append fun entry hentry => ?_
  refine h.behind text htext _ (entries?_eq_some_iff.2 hread) entry ?_
  rwa [List.drop_left]

end Elsewhere

end Text

open Text

/-! ### Fragments -/

section Fragments

variable {key : Key} {name s : String} {v : Value}

end Fragments

/-! ### Resolving -/

section Resolving

variable {σ : Type} {store : Store σ} {key : Key} {t : String}

end Resolving

end SecretFill
