import Mathlib.Data.List.Pairwise
import SecretFill.Proofs.Keys

namespace SecretFill

/-!
# Looking up a key

A key is looked up among the entries at the top of a document: a string that equals it counts first,
then a number or a truth value that is printed so.

* `Fragment.Unambiguous` — each text is written by one string key and printed for one other key at
  most.
* `Fragment.lookup_of_string`, `Fragment.exists_of_printed`, `Fragment.lookup_eq_none_iff` — what is
  found, and when nothing is.
* `Fragment.lookup_perm` — the order of the entries does not matter.
* `Fragment.extract_looks_up` — all of this for the document in a secret.
-/

open Yaml (Value Distinct)

namespace Fragment

variable {entries others : List (Value × Value)} {name : String} {value : Value}

/-- The floating point numbers among the keys. -/
def floatKeys (entries : List (Value × Value)) : List Binary64 :=
  entries.filterMap fun entry =>
    match entry.1 with
    | .float x => some x
    | _ => none

/-- Floating point numbers among the keys that print alike are the same. -/
def FloatsPrintApart (entries : List (Value × Value)) : Prop :=
  ∀ x ∈ floatKeys entries, ∀ y ∈ floatKeys entries,
    Value.floatText x = Value.floatText y → x.same y = true

instance (entries : List (Value × Value)) : Decidable (FloatsPrintApart entries) :=
  inferInstanceAs (Decidable (∀ x ∈ floatKeys entries, ∀ y ∈ floatKeys entries,
    Value.floatText x = Value.floatText y → x.same y = true))

theorem mem_floatKeys {x : Binary64} {entry : Value × Value} (h : entry ∈ entries)
    (hx : entry.1 = .float x) : x ∈ floatKeys entries :=
  List.mem_filterMap.2 ⟨entry, h, by rw [hx]⟩

/-- The keys of a document are distinct. -/
theorem distinct_of_parse {key : Key} {secret : String} (h : parse key secret = .ok entries) :
    Distinct entries := by
  simp only [parse] at h
  split at h
  · cases h
    exact .nil
  · split at h
    · cases h
    · rename_i hread
      cases h
      exact Yaml.distinct_of_read hread
    · cases h
      exact .nil
    · cases h

/-- A search finds the one that is there. -/
theorem find?_eq_of_unique {α : Type} {p : α → Bool} {l : List α} {a : α} (ha : a ∈ l)
    (hp : p a = true) (hunique : l.Pairwise fun a b => ¬ (p a = true ∧ p b = true)) :
    l.find? p = some a := by
  induction l with
  | nil => cases ha
  | cons b l ih =>
    obtain ⟨hb, hl⟩ := List.pairwise_cons.1 hunique
    rcases List.mem_cons.1 ha with rfl | ha
    · exact List.find?_cons_of_pos hp
    · have hnot : ¬ p b = true := fun hpb => hb a ha ⟨hpb, hp⟩
      rw [List.find?_cons_of_neg hnot]
      exact ih ha hl

/-- Each text is written by at most one string key and printed for at most one other key. -/
structure Unambiguous (entries : List (Value × Value)) : Prop where
  /-- At most one key is a given string, -/
  strings : entries.Pairwise fun a b => ∀ s, ¬ (a.1 = .string s ∧ b.1 = .string s)
  /-- and at most one number or truth value is printed as a given text. -/
  printed : entries.Pairwise fun a b => ∀ text, ¬ (a.1.PrintsAs text ∧ b.1.PrintsAs text)

/-- Distinct keys are distinct as strings. -/
theorem strings_of_distinct (h : Distinct entries) :
    entries.Pairwise fun a b => ∀ s, ¬ (a.1 = .string s ∧ b.1 = .string s) :=
  h.imp fun {a b} hab s hs => by
    rw [hs.1, hs.2] at hab
    simp [Value.same] at hab

/-- Distinct keys are unambiguous if their floating point numbers print apart. -/
theorem unambiguous_of_distinct (h : Distinct entries) (hfloats : FloatsPrintApart entries) :
    Unambiguous entries where
  strings := strings_of_distinct h
  printed := h.imp_of_mem fun {a b} ha hb hab text hs => by
    rw [Value.same_of_printsAs hs.1 hs.2] at hab
    · cases hab
    · intro x y hx hy
      exact hfloats x (mem_floatKeys ha hx) y (mem_floatKeys hb hy)

/-- The order of the entries does not matter for that. -/
theorem Unambiguous.perm (h : Unambiguous entries) (hperm : others.Perm entries) :
    Unambiguous others where
  strings := (hperm.pairwise_iff fun hab s hs => hab s hs.symm).2 h.strings
  printed := (hperm.pairwise_iff fun hab s hs => hab s hs.symm).2 h.printed

/-- Whether a key is the string that equals a name. -/
def isNamed (name : String) (entry : Value × Value) : Bool :=
  match entry.1 with
  | .string s => s == name
  | _ => false

theorem isNamed_iff {entry : Value × Value} : isNamed name entry = true ↔ entry.1 = .string name := by
  obtain ⟨k, v⟩ := entry
  cases k <;> simp [isNamed]

/-- Whether the text of a key is a name. -/
def isSpelled (name : String) (entry : Value × Value) : Bool := entry.1.keyText? == some name

theorem isSpelled_iff {entry : Value × Value} :
    isSpelled name entry = true ↔ entry.1 = .string name ∨ entry.1.PrintsAs name := by
  rw [isSpelled, beq_iff_eq, Value.keyText?_eq_some_iff]

theorem lookup_eq : lookup name entries
    = ((entries.find? (isNamed name)).or (entries.find? (isSpelled name))).map (·.2) := rfl

/-- A key that is the string goes before all others. -/
theorem lookup_of_string
    (h : entries.Pairwise fun a b => ∀ s, ¬ (a.1 = .string s ∧ b.1 = .string s))
    (hv : (.string name, value) ∈ entries) : lookup name entries = some value := by
  have hfind : entries.find? (isNamed name) = some (.string name, value) := by
    refine find?_eq_of_unique hv (isNamed_iff.2 rfl) (h.imp fun hab hp => ?_)
    exact hab name ⟨isNamed_iff.1 hp.1, isNamed_iff.1 hp.2⟩
  rw [lookup_eq, hfind]
  rfl

theorem find?_isNamed_eq_none (h : ∀ v, (.string name, v) ∉ entries) :
    entries.find? (isNamed name) = none := by
  refine List.find?_eq_none.2 fun entry hentry hp => ?_
  rw [isNamed_iff] at hp
  exact h entry.2 (hp ▸ hentry)

/-- Without it, the value of a key is found that is printed so, -/
theorem exists_of_printed (hstring : ∀ v, (.string name, v) ∉ entries)
    (hprinted : ∃ k v, (k, v) ∈ entries ∧ k.PrintsAs name) :
    ∃ k v, (k, v) ∈ entries ∧ k.PrintsAs name ∧ lookup name entries = some v := by
  obtain ⟨k, v, hkv, hk⟩ := hprinted
  obtain ⟨entry, hfind⟩ : ∃ entry, entries.find? (isSpelled name) = some entry :=
    Option.isSome_iff_exists.1 (List.find?_isSome.2 ⟨(k, v), hkv, isSpelled_iff.2 (.inr hk)⟩)
  have hmem : entry ∈ entries := List.mem_of_find?_eq_some hfind
  refine ⟨entry.1, entry.2, hmem, ?_, ?_⟩
  · rcases isSpelled_iff.1 (List.find?_some hfind) with hname | hprinted
    · exact absurd (hname ▸ hmem) (hstring entry.2)
    · exact hprinted
  · rw [lookup_eq, find?_isNamed_eq_none hstring, hfind]
    rfl

/-- and there is only one such value. -/
theorem lookup_of_printed (h : Unambiguous entries) (hstring : ∀ v, (.string name, v) ∉ entries)
    {k : Value} (hk : k.PrintsAs name) (hv : (k, value) ∈ entries) :
    lookup name entries = some value := by
  have hfind : entries.find? (isSpelled name) = some (k, value) := by
    refine find?_eq_of_unique hv (isSpelled_iff.2 (.inr hk))
      (h.printed.imp_of_mem fun {a b} ha hb hab hp => ?_)
    rcases isSpelled_iff.1 hp.1 with hname | hprinted
    · exact hstring a.2 (hname ▸ ha)
    · rcases isSpelled_iff.1 hp.2 with hname | hprinted'
      · exact hstring b.2 (hname ▸ hb)
      · exact hab name ⟨hprinted, hprinted'⟩
  rw [lookup_eq, find?_isNamed_eq_none hstring, hfind]
  rfl

/-- Nothing is found iff no string equals the name, and no number or truth value prints as it. -/
theorem lookup_eq_none_iff : lookup name entries = none ↔
    ∀ k v, (k, v) ∈ entries → k ≠ .string name ∧ ¬ k.PrintsAs name := by
  rw [lookup_eq, Option.map_eq_none_iff, Option.or_eq_none_iff, List.find?_eq_none,
    List.find?_eq_none]
  simp only [isNamed_iff, isSpelled_iff, not_or, Prod.forall]
  exact ⟨fun h k v hkv => h.2 k v hkv, fun h => ⟨fun k v hkv => (h k v hkv).1, h⟩⟩

/-- Keys behind others matter only if their texts are the name. -/
theorem lookup_append (h : ∀ entry ∈ others, entry.1.keyText? ≠ some name) :
    lookup name (entries ++ others) = lookup name entries := by
  have hspelled : others.find? (isSpelled name) = none :=
    List.find?_eq_none.2 fun entry hentry hp => h entry hentry (beq_iff_eq.1 hp)
  have hnamed : others.find? (isNamed name) = none :=
    find?_isNamed_eq_none fun v hv => h _ hv rfl
  rw [lookup_eq, lookup_eq, List.find?_append, List.find?_append, hspelled, hnamed, Option.or_none,
    Option.or_none]

/-- What is found does not depend on the order of the entries. -/
theorem lookup_perm (h : Unambiguous entries) (hperm : others.Perm entries) :
    lookup name others = lookup name entries := by
  by_cases hnone : lookup name entries = none
  · rw [hnone, lookup_eq_none_iff]
    exact fun k v hkv => lookup_eq_none_iff.1 hnone k v (hperm.mem_iff.1 hkv)
  · by_cases hstring : ∃ v, (Value.string name, v) ∈ entries
    · obtain ⟨v, hv⟩ := hstring
      rw [lookup_of_string h.strings hv,
        lookup_of_string (h.perm hperm).strings (hperm.mem_iff.2 hv)]
    · rw [not_exists] at hstring
      obtain ⟨k, v, hkv, hk⟩ : ∃ k v, (k, v) ∈ entries ∧ k.PrintsAs name := by
        by_contra hprinted
        refine hnone (lookup_eq_none_iff.2 fun k v hkv => ⟨?_, fun hk => hprinted ⟨k, v, hkv, hk⟩⟩)
        rintro rfl
        exact hstring v hkv
      rw [lookup_of_printed h hstring hk hkv, lookup_of_printed (h.perm hperm)
        (fun v hv => hstring v (hperm.mem_iff.1 hv)) hk (hperm.mem_iff.2 hkv)]

/-- **A key is looked up** among the keys at the top of the document. -/
theorem extract_looks_up (key : Key) (secret name : String) :
    (∀ e, parse key secret = .error e → extract key secret name = .error e) ∧
    ∀ entries, parse key secret = .ok entries →
      (∀ v, (.string name, v) ∈ entries → extract key secret name = .ok v) ∧
      ((∀ v, (.string name, v) ∉ entries) → (∃ k v, (k, v) ∈ entries ∧ k.PrintsAs name) →
        ∃ k v, (k, v) ∈ entries ∧ k.PrintsAs name ∧ extract key secret name = .ok v) ∧
      (extract key secret name = .error (.missingKey key.entry key.field name) ↔
        ∀ k v, (k, v) ∈ entries → k ≠ .string name ∧ ¬ k.PrintsAs name) ∧
      (FloatsPrintApart entries →
        Unambiguous entries ∧
        ((∀ v, (.string name, v) ∉ entries) → ∀ k v, (k, v) ∈ entries → k.PrintsAs name →
          extract key secret name = .ok v) ∧
        ∀ others, others.Perm entries → extract key secret name = match lookup name others with
          | some v => .ok v
          | none => .error (.missingKey key.entry key.field name)) := by
  refine ⟨fun e => extract_of_parse_error, fun entries hparse => ?_⟩
  have hdistinct : Distinct entries := distinct_of_parse hparse
  have hextract : extract key secret name = _ := extract_of_parse hparse
  rw [hextract]
  refine ⟨fun v hv => ?_, fun hstring hprinted => ?_, ?_, fun hfloats => ?_⟩
  · rw [lookup_of_string (strings_of_distinct hdistinct) hv]
    rfl
  · obtain ⟨k, v, hkv, hk, hlookup⟩ := exists_of_printed hstring hprinted
    exact ⟨k, v, hkv, hk, by rw [hlookup]; rfl⟩
  · rw [← lookup_eq_none_iff]
    cases lookup name entries <;> simp
  · have hone : Unambiguous entries := unambiguous_of_distinct hdistinct hfloats
    refine ⟨hone, fun hstring k v hkv hk => ?_, fun others hperm => ?_⟩
    · rw [lookup_of_printed hone hstring hk hkv]
      rfl
    · rw [lookup_perm hone hperm]
      cases lookup name entries <;> rfl

/-- Whether a mapping is that of one number, a point, a quoted number and a power. -/
def isAlike : Except Failure (List (Value × Value)) → Bool
  | .ok [(.int n, .string a), (.float x, .string b), (.string s, .string c), (.float y, .string d)] =>
    decide (n = 1 ∧ a = "one" ∧ x = .finite false 4503599627370496 (-52) ∧ b = "point" ∧
      s = "1" ∧ c = "quoted" ∧ y = .finite false 8796093022208000 (-43) ∧ d = "power")
  | _ => false

/-- A number and a string that look alike, next to two floating point numbers. -/
theorem extract_looks_up_alike :
    let key : Key := ⟨"db", "Notes"⟩
    let secret := "1: one\n1.0: point\n\"1\": quoted\n1e3: power\n"
    let entries : List (Value × Value) := [(.int 1, .string "one"),
      (.float (.finite false 4503599627370496 (-52)), .string "point"),
      (.string "1", .string "quoted"),
      (.float (.finite false 8796093022208000 (-43)), .string "power")]
    parse key secret = .ok entries ∧ FloatsPrintApart entries ∧
      extract key secret "1" = .ok (.string "quoted") ∧
      extract key secret "1000.0" = .ok (.string "power") ∧
      extract key secret "1e3" = .error (.missingKey "db" "Notes" "1e3") := by
  intro key secret entries
  -- Whether values are equal is not decidable, so a test for values of this shape stands in.
  have hshape : isAlike (parse key secret) = true := by decide +kernel
  have hparse : parse key secret = .ok entries := by
    unfold isAlike at hshape
    split at hshape
    · rename_i h
      obtain ⟨rfl, rfl, rfl, rfl, rfl, rfl, rfl, rfl⟩ := of_decide_eq_true hshape
      exact h
    · cases hshape
  have hfloats : FloatsPrintApart entries := by decide +kernel
  have hnone : lookup "1e3" entries = none := Option.isNone_iff_eq_none.1 (by decide +kernel)
  have htext : Value.floatText (.finite false 8796093022208000 (-43)) = "1000.0" := by
    decide +kernel
  have hprinted := Value.PrintsAs.float (.finite false 8796093022208000 (-43))
  rw [htext] at hprinted
  refine ⟨hparse, hfloats, ?_, ?_, ?_⟩
  · exact ((extract_looks_up key secret "1").2 entries hparse).1 _ (by simp [entries])
  · exact (((extract_looks_up key secret "1000.0").2 entries hparse).2.2.2 hfloats).2.1
      (by simp [entries]) _ _ (by simp [entries]) hprinted
  · exact ((extract_looks_up key secret "1e3").2 entries hparse).2.2.1.2
      (lookup_eq_none_iff.1 hnone)

end Fragment

end SecretFill
