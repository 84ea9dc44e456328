import SecretFill.Proofs.Notes
import SecretFill.Proofs.Spellings

namespace SecretFill

/-!
# Keys as they are written

A key without quotes is a scalar with a type, and it is asked for by the text that its value prints
as.  So a key answers to its own spelling if it is a string, or if it spells a truth value or a number
as this is printed; in another spelling it answers to the printed text alone, and a key that spells
nothing answers to no text at all.

* `PrintsBack` — what a key spells, if anything, is printed as the key.
* `printsBack_iff` — the keys that do.
* `Fragment.extract_written` — which texts a key answers to.
-/

open Yaml (Value IsWord Spells IsRefused WritesInteger Typed Distinct)

/-! ### Words that print back -/

/-- What a word spells, if anything, is printed as the word. -/
def PrintsBack (k : String) : Prop := ∀ w, Spells k.toList w → w.PrintsAs k

section PrintsBack

variable {k text : String} {w : Value} {n : Nat}

/-- A word spells one value at most. -/
theorem Yaml.Spells.unique {cs : List Char} {w' : Value} (hword : IsWord cs) (h : Spells cs w)
    (h' : Spells cs w') : w = w' := by
  have hvalue := Yaml.plainValue?_of_spells hword h
  rw [Yaml.plainValue?_of_spells hword h'] at hvalue
  exact (Option.some.inj hvalue).symm

/-- No word spells a string. -/
theorem Yaml.Spells.ne_string {cs : List Char} (h : Spells cs w) : w ≠ .string text := by
  cases h <;> simp

/-- What is spelled is asked for by the text that it is printed as. -/
theorem Yaml.Spells.keyText?_eq_some_iff {cs : List Char} (h : Spells cs w) :
    w.keyText? = some text ↔ w.PrintsAs text := by
  rw [Value.keyText?_eq_some_iff]
  exact or_iff_right h.ne_string

theorem toList_toString_natCast (n : Nat) : (toString (n : Int)).toList = decimalDigits n := by
  rw [Json.toString_int, String.toList_ofList, Json.intChars, if_neg (by omega), Int.natAbs_natCast]
  rfl

/-- An integer is printed as it is written iff it is written with digits only. -/
theorem Yaml.WritesInteger.printsAs_iff (h : WritesInteger k.toList n) :
    (Value.int n).PrintsAs k ↔ ∀ d ∈ k.toList, d.isDigit = true := by
  constructor
  · intro hprints
    generalize htext : k = text at hprints
    cases hprints
    rw [toList_toString_natCast]
    exact fun d hd => isDigit_of_mem_decimalDigits hd
  · intro hdigits
    obtain ⟨row, whole⟩ := h.decimal_of_digits hdigits
    obtain ⟨-, -, hn⟩ := writesIn_ten_iff.1 row
    have htext : k = toString (n : Int) := by
      rw [← String.toList_inj, toList_toString_natCast, hn, decimalDigits_digitsValue hdigits whole]
    have hprinted := Value.PrintsAs.int n
    rwa [← htext] at hprinted

/-- A numeral spells the number that its digits write. -/
theorem IsNumeral.writesInteger (h : IsNumeral k) :
    WritesInteger k.toList (digitsValue k.toList) := by
  have hne : k.toList ≠ [] := by
    intro hnil
    have hwhole := h.whole
    rw [hnil] at hwhole
    cases hwhole
  exact .decimal (writesIn_ten_iff.2 ⟨hne, h.digits, rfl⟩) h.whole

theorem Yaml.lt_wordBound_iff : n < Yaml.wordBound ↔ n ≤ 18446744073709551615 :=
  Nat.lt_succ_iff

/-- **The words that print back** spell nothing with a type, or a truth value in lower case, or an
    integer in decimal digits, or a floating point number as it is printed. -/
theorem printsBack_iff (hk : IsWord k.toList) : PrintsBack k ↔ (∀ w, ¬ Spells k.toList w) ∨
    k = "true" ∨ k = "false" ∨ IsNumeral k ∨
      ∃ x, Spells k.toList (.float x) ∧ k = Value.floatText x := by
  constructor
  · intro hback
    -- What is spelled has one printed form, which is compared with the word.
    by_cases hspells : ∃ w, Spells k.toList w
    · obtain ⟨w, hw⟩ := hspells
      have hprints := hback w hw
      have htext : w.keyText? = some k := hw.keyText?_eq_some_iff.2 hprints
      cases hw with
      | null => cases hprints
      | isTrue => exact .inr (.inl (Option.some.inj htext).symm)
      | isFalse => exact .inr (.inr (.inl (Option.some.inj htext).symm))
      | integer hwrites hlt =>
        have hdigits := hwrites.printsAs_iff.1 hprints
        obtain ⟨row, whole⟩ := hwrites.decimal_of_digits hdigits
        obtain ⟨-, -, rfl⟩ := writesIn_ten_iff.1 row
        exact .inr (.inr (.inr (.inl ⟨hdigits, whole, Yaml.lt_wordBound_iff.1 hlt⟩)))
      | numeral hnumeral finite row =>
        exact .inr (.inr (.inr (.inr ⟨_, .numeral hnumeral finite row, (Option.some.inj htext).symm⟩)))
    · exact .inl (not_exists.1 hspells)
  · rintro (hnone | rfl | rfl | hnumeral | ⟨x, hx, hk⟩)
    · exact fun w hw => absurd hw (hnone w)
    · intro w hw
      obtain rfl := hw.unique hk (.isTrue (by simp))
      exact .bool true
    · intro w hw
      obtain rfl := hw.unique hk (.isFalse (by simp))
      exact .bool false
    · intro w hw
      obtain rfl := hw.unique hk
        (.integer hnumeral.writesInteger (Yaml.lt_wordBound_iff.2 hnumeral.le))
      exact hnumeral.writesInteger.printsAs_iff.2 hnumeral.digits
    · intro w hw
      obtain rfl := hw.unique ‹_› hx
      exact hk ▸ .float x

end PrintsBack

namespace Fragment

variable {k v : String}

/-- The only entry of a document is found under the text of its key. -/
theorem extract_of_parse_singleton {place : Key} {secret name : String} {key value : Value}
    (h : parse place secret = .ok [(key, value)]) :
    extract place secret name = if key.keyText? = some name then .ok value
      else .error (.missingKey place.entry place.field name) := by
  rw [extract_of_parse h]
  split_ifs with hname
  · have hsome : lookup name [(key, value)] = some value := by
      -- The key is this string, or it is printed like it.
      rcases Value.keyText?_eq_some_iff.1 hname with rfl | hprints
      · exact lookup_of_string (List.pairwise_singleton _ _) List.mem_cons_self
      · by_cases hstring : key = .string name
        · exact lookup_of_string (List.pairwise_singleton _ _) (hstring ▸ List.mem_cons_self)
        · refine lookup_of_printed ⟨List.pairwise_singleton _ _, List.pairwise_singleton _ _⟩ ?_
            hprints List.mem_cons_self
          simpa [eq_comm] using hstring
    rw [hsome]
    rfl
  · have hnone : lookup name [(key, value)] = none := by
      rw [lookup_eq_none_iff]
      simpa [Value.keyText?_eq_some_iff, not_or] using hname
    rw [hnone]
    rfl

/-- The only entry of a line with a word and a name. -/
theorem parse_line (place : Key) (hk : IsWord k.toList) (hlength : k.length ≤ 1000) (hv : IsName v)
    {key : Value} (hkey : Yaml.plainValue? k.toList = some key) :
    parse place (k ++ ": " ++ v) = .ok [(key, .string v)] := by
  have hline : Yaml.IsLine (fieldChars (k, v)) :=
    ⟨hk, hv.isWord, Nat.le_trans (show k.toList.length ≤ 1000 from hlength) (by decide)⟩
  exact parse_of_typed place (List.cons_ne_nil (k, v) []) (by simpa using hline)
    (.cons ⟨hkey, hv.plainValue?⟩ .nil) (List.pairwise_singleton _ _)

/-- **A key answers to the text that its value prints as.** -/
theorem extract_written (entry field : String) (hk : IsWord k.toList) (hlength : k.length ≤ 1000)
    (hv : IsName v) (hrefused : ¬ IsRefused k.toList) :
    (PrintsBack k → extract ⟨entry, field⟩ (k ++ ": " ++ v) k = .ok (.string v)) ∧
    (¬ PrintsBack k →
      extract ⟨entry, field⟩ (k ++ ": " ++ v) k = .error (.missingKey entry field k)) ∧
    ∀ w name, Spells k.toList w → w.PrintsAs name →
      extract ⟨entry, field⟩ (k ++ ": " ++ v) name = .ok (.string v) := by
  -- The type of the word is the key of the only entry, and decides all that is looked up.
  have hextract : ∀ key name, Yaml.plainValue? k.toList = some key →
      extract ⟨entry, field⟩ (k ++ ": " ++ v) name = if key.keyText? = some name then .ok (.string v)
        else .error (.missingKey entry field name) := fun key name hkey =>
    extract_of_parse_singleton (parse_line ⟨entry, field⟩ hk hlength hv hkey)
  refine ⟨fun hback => ?_, fun hback => ?_, fun w name hw hname => ?_⟩
  · by_cases hspells : ∃ w, Spells k.toList w
    · obtain ⟨w, hw⟩ := hspells
      rw [hextract w k (Yaml.plainValue?_of_spells hk hw),
        if_pos (hw.keyText?_eq_some_iff.2 (hback w hw))]
    · have hstring := Yaml.plainValue?_of_not_spells hk hrefused (not_exists.1 hspells)
      rw [String.ofList_toList] at hstring
      rw [hextract (.string k) k hstring]
      exact if_pos rfl
  · obtain ⟨w, hnot⟩ := not_forall.1 hback
    obtain ⟨hw, hprints⟩ := Classical.not_imp.1 hnot
    rw [hextract w k (Yaml.plainValue?_of_spells hk hw),
      if_neg (hprints ∘ hw.keyText?_eq_some_iff.1)]
  · rw [hextract w name (Yaml.plainValue?_of_spells hk hw), if_pos (hw.keyText?_eq_some_iff.2 hname)]

/-- A number in base sixteen is asked for in base ten. -/
theorem extract_written_hexadecimal :
    IsWord "0x10".toList ∧ "0x10".length ≤ 1000 ∧ IsName "v" ∧ ¬ IsRefused "0x10".toList ∧
      ¬ PrintsBack "0x10" ∧
      extract ⟨"db", "Notes"⟩ "0x10: v" "0x10" = .error (.missingKey "db" "Notes" "0x10") ∧
      extract ⟨"db", "Notes"⟩ "0x10: v" "16" = .ok (.string "v") := by
  have hk : IsWord "0x10".toList := Yaml.isWord_of_isAlphanum (by decide) (by decide)
  have hv : IsName "v" := ⟨⟨'v', [], rfl, by decide, by simp⟩, by decide⟩
  have hwrites : WritesInteger "0x10".toList 16 :=
    .based .hexadecimal (readNat?_eq_some_iff.1 (by decide))
  have hspells : Spells "0x10".toList (.int 16) := .integer hwrites (by decide)
  have hrefused : ¬ IsRefused "0x10".toList := by
    intro hrefused
    have hvalue := Yaml.plainValue?_of_spells hk hspells
    rw [Yaml.plainValue?_of_isRefused hk hrefused] at hvalue
    cases hvalue
  have hback : ¬ PrintsBack "0x10" := fun hback =>
    absurd (hwrites.printsAs_iff.1 (hback _ hspells) 'x' (by simp)) (by decide)
  have hwritten := extract_written "db" "Notes" hk (by decide) hv hrefused
  exact ⟨hk, by decide, hv, hrefused, hback, hwritten.2.1 hback, hwritten.2.2 _ _ hspells (.int 16)⟩

/-- A key in another spelling than the printed one is not found as it is written. -/
theorem extract_capitalized :
    IsWord "True".toList ∧ "True".length ≤ 1000 ∧ IsName "v" ∧
      extract ⟨"db", "Notes"⟩ ("True" ++ ": " ++ "v") "True"
        = .error (.missingKey "db" "Notes" "True") := by
  have hk : IsWord "True".toList := Yaml.isWord_of_isAlphanum (by decide) (by decide)
  have hv : IsName "v" := ⟨⟨'v', [], rfl, by decide, by simp⟩, by decide⟩
  have hparse := parse_line ⟨"db", "Notes"⟩ hk (by decide) hv
    (show Yaml.plainValue? "True".toList = some (.bool true) from rfl)
  refine ⟨hk, by decide, hv, ?_⟩
  rw [extract_of_parse_singleton hparse]
  rfl

end Fragment

end SecretFill
