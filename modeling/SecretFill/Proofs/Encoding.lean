import SecretFill.Fragment
import SecretFill.Proofs.Grammar
import SecretFill.Proofs.ShortestDecimals

namespace SecretFill

/-!
# What is encoded can be decoded

A value has a JSON text iff all its keys have names, and from this text the value is read back as
far as JSON has a form for it.

* `Value.HasNamelessKey` — at some depth there is a key that no name stands for.
* `Json.Depicts` — a JSON document has the form of a value.
* `Json.image_isOk`, `Json.depicts_of_image` — a value has an image iff no key is nameless, and its
  image has its form.
* `encodeValue_decodes` — so a text is written iff no key is nameless, it is JSON, and decoding it
  gives a document of the form of the value.
-/

open Yaml (Value)

/-! ### Keys without names -/

namespace Yaml.Value

/-- A value holds another one: it is this value, or one of its parts holds it. -/
inductive Holds : Value → Value → Prop where
  /-- It is the value itself. -/
  | self (v : Value) : Holds v v
  /-- An item holds it. -/
  | item {items : List Value} {item v : Value} (hmem : item ∈ items) (h : Holds item v) :
    Holds (sequence items) v
  /-- A key holds it. -/
  | key {entries : List (Value × Value)} {entry : Value × Value} {v : Value}
    (hmem : entry ∈ entries) (h : Holds entry.1 v) : Holds (mapping entries) v
  /-- The value of a key holds it. -/
  | entry {entries : List (Value × Value)} {entry : Value × Value} {v : Value}
    (hmem : entry ∈ entries) (h : Holds entry.2 v) : Holds (mapping entries) v
  /-- What is tagged holds it. -/
  | tagged {tag : String} {value v : Value} (h : Holds value v) : Holds (tagged tag value) v

/-- No name stands for a key that is nothing, a collection, tagged, or a number that is not
    finite. -/
def IsNameless : Value → Prop
  | null | sequence _ | mapping _ | tagged .. => True
  | float x => x.isFinite = false
  | bool _ | int _ | string _ => False

/-- At some depth a mapping has a key without a name. -/
def HasNamelessKey (v : Value) : Prop :=
  ∃ entries, Holds v (mapping entries) ∧ ∃ entry ∈ entries, IsNameless entry.1

/-- What holds a mapping is no name. -/
theorem Holds.isNameless {v : Value} {entries : List (Value × Value)}
    (h : Holds v (mapping entries)) : IsNameless v := by
  cases h <;> trivial

theorem hasNamelessKey_sequence {items : List Value} :
    HasNamelessKey (sequence items) ↔ ∃ item ∈ items, HasNamelessKey item := by
  constructor
  · rintro ⟨entries, hholds, hkey⟩
    cases hholds with
    | item hmem h => exact ⟨_, hmem, entries, h, hkey⟩
  · rintro ⟨item, hmem, entries, h, hkey⟩
    exact ⟨entries, .item hmem h, hkey⟩

/-- The keys of a mapping need no look inside: a key that holds a mapping has no name itself. -/
theorem hasNamelessKey_mapping {entries : List (Value × Value)} :
    HasNamelessKey (mapping entries)
      ↔ ∃ entry ∈ entries, IsNameless entry.1 ∨ HasNamelessKey entry.2 := by
  constructor
  · rintro ⟨entries', hholds, hkey⟩
    cases hholds with
    | self =>
      obtain ⟨entry, hmem, hnameless⟩ := hkey
      exact ⟨entry, hmem, .inl hnameless⟩
    | key hmem h => exact ⟨_, hmem, .inl h.isNameless⟩
    | entry hmem h => exact ⟨_, hmem, .inr ⟨entries', h, hkey⟩⟩
  · rintro ⟨entry, hmem, hnameless | ⟨entries', h, hkey⟩⟩
    · exact ⟨entries, .self _, entry, hmem, hnameless⟩
    · exact ⟨entries', .entry hmem h, hkey⟩

theorem hasNamelessKey_tagged {tag : String} {value : Value} :
    HasNamelessKey (tagged tag value) ↔ HasNamelessKey value := by
  constructor
  · rintro ⟨entries, hholds, hkey⟩
    cases hholds with
    | tagged h => exact ⟨entries, h, hkey⟩
  · rintro ⟨entries, h, hkey⟩
    exact ⟨entries, .tagged h, hkey⟩

end Yaml.Value

namespace Json

open Yaml.Value (IsNameless HasNamelessKey hasNamelessKey_sequence hasNamelessKey_mapping
  hasNamelessKey_tagged)

/-! ### Documents of the form of a value -/

/-- A name stands for a key: a string for itself, a number or a truth value is printed. -/
inductive Names : Value → String → Prop where
  /-- A string. -/
  | string (s : String) : Names (.string s) s
  /-- An integer. -/
  | int (n : Int) : Names (.int n) (toString n)
  /-- A truth value. -/
  | bool (b : Bool) : Names (.bool b) (toString b)
  /-- A finite number. -/
  | float (negative : Bool) (significand : Nat) (exponent : Int) :
    Names (.float (.finite negative significand exponent))
      (String.ofList (Binary64.numeral numeralStyle negative significand exponent))

mutual

/-- A document has the form of a value. -/
inductive Depicts : Value → Datum → Prop where
  /-- Nothing. -/
  | null : Depicts .null .null
  /-- A truth value. -/
  | bool (b : Bool) : Depicts (.bool b) (.bool b)
  /-- An integer is the same number. -/
  | int (n : Int) : Depicts (.int n) (.number (.int n))
  /-- A finite number is the one that its numeral writes, and it is read from this numeral again. -/
  | finite {negative : Bool} {significand : Nat} {exponent : Int} {x : Number}
    (h : x.chars = Binary64.numeral numeralStyle negative significand exponent)
    (hread : Binary64.IsCanonical significand exponent →
      readDecimal? x.chars = some (.finite negative significand exponent)) :
    Depicts (.float (.finite negative significand exponent)) (.number x)
  /-- Any other floating point number is nothing. -/
  | notFinite {x : Binary64} (h : x.isFinite = false) : Depicts (.float x) .null
  /-- A text has the same characters. -/
  | string (s : String) : Depicts (.string s) (.string s)
  /-- A sequence keeps its order. -/
  | sequence {items : List Value} {ds : List Datum} (h : DepictsItems items ds) :
    Depicts (.sequence items) (.array ds)
  /-- So does a mapping. -/
  | mapping {entries : List (Value × Value)} {members : List (String × Datum)}
    (h : DepictsEntries entries members) : Depicts (.mapping entries) (.object members)
  /-- What is tagged has the tag for its name. -/
  | tagged {tag : String} {value : Value} {d : Datum} (h : Depicts value d) :
    Depicts (.tagged tag value) (.object [("!" ++ tag, d)])

/-- Documents have the forms of the items of a sequence, one by one. -/
inductive DepictsItems : List Value → List Datum → Prop where
  /-- There is none. -/
  | nil : DepictsItems [] []
  /-- One before others. -/
  | cons {item : Value} {d : Datum} {items : List Value} {ds : List Datum} (h : Depicts item d)
    (hs : DepictsItems items ds) : DepictsItems (item :: items) (d :: ds)

/-- Members have the names and the forms of the entries of a mapping, one by one. -/
inductive DepictsEntries : List (Value × Value) → List (String × Datum) → Prop where
  /-- There is none. -/
  | nil : DepictsEntries [] []
  /-- One before others. -/
  | cons {key value : Value} {name : String} {d : Datum} {entries : List (Value × Value)}
    {members : List (String × Datum)} (hname : Names key name) (h : Depicts value d)
    (hs : DepictsEntries entries members) :
    DepictsEntries ((key, value) :: entries) ((name, d) :: members)

end

/-- An integer is printed with its digits. -/
theorem toString_int (n : Int) : toString n = String.ofList (intChars n) := by
  cases n with
  | ofNat n => rfl
  | negSucc n =>
    apply String.ext
    show ("-" ++ Nat.repr (n + 1)).toList = _
    simp [intChars, decimalDigits, Nat.repr, Int.negSucc_lt_zero, Int.natAbs_negSucc]

/-! ### The image of a value -/

theorem nameOf_isOk (key : Value) : (nameOf key).isOk = true ↔ ¬ IsNameless key := by
  cases key with
  | float x => cases x <;> simp [nameOf, IsNameless, Except.isOk, Except.toBool, Binary64.isFinite]
  | _ => simp [nameOf, IsNameless, Except.isOk, Except.toBool]

theorem names_of_nameOf {key : Value} {name : String} (h : nameOf key = .ok name) :
    Names key name := by
  cases key with
  | string s =>
    obtain rfl := Except.ok.inj h
    exact .string s
  | int n =>
    obtain rfl := Except.ok.inj h
    have hname := Names.int n
    rwa [toString_int] at hname
  | bool b =>
    obtain rfl := Except.ok.inj h
    cases b
    · exact .bool false
    · exact .bool true
  | float x =>
    cases x with
    | finite negative significand exponent =>
      obtain rfl := Except.ok.inj h
      rw [chars_shortestDecimal]
      exact .float negative significand exponent
    | nan | infinite => exact absurd h (by simp [nameOf])
  | null | sequence | mapping | tagged => exact absurd h (by simp [nameOf])

mutual

/-- **A value has an image** iff it has no nameless key at any depth, -/
theorem image_isOk : (value : Value) → ((image value).isOk = true ↔ ¬ HasNamelessKey value)
  | .null | .bool _ | .int _ | .float _ | .string _ => by
    -- What holds a mapping is a collection or tagged.
    refine iff_of_true (by simp [image, Except.isOk, Except.toBool]) ?_
    rintro ⟨entries, hholds, -⟩
    cases hholds
  | .sequence items => by
    have himage : (image (.sequence items)).isOk = (itemImages items).isOk := by
      rw [image]
      cases itemImages items <;> rfl
    rw [himage, itemImages_isOk items, hasNamelessKey_sequence]
    simp
  | .mapping entries => by
    have himage : (image (.mapping entries)).isOk = (entryImages entries).isOk := by
      rw [image]
      cases entryImages entries <;> rfl
    rw [himage, entryImages_isOk entries, hasNamelessKey_mapping]
    simp
  | .tagged tag value => by
    have himage : (image (.tagged tag value)).isOk = (image value).isOk := by
      rw [image]
      cases image value <;> rfl
    rw [himage, image_isOk value, hasNamelessKey_tagged]

theorem itemImages_isOk : (items : List Value) →
    ((itemImages items).isOk = true ↔ ∀ item ∈ items, ¬ HasNamelessKey item)
  | [] => by simp [itemImages, Except.isOk, Except.toBool]
  | item :: items => by
    have himages : (itemImages (item :: items)).isOk
        = ((image item).isOk && (itemImages items).isOk) := by
      rw [itemImages]
      cases image item with
      | error e => rfl
      | ok d => cases itemImages items <;> rfl
    rw [himages, Bool.and_eq_true, image_isOk item, itemImages_isOk items, List.forall_mem_cons]

theorem entryImages_isOk : (entries : List (Value × Value)) →
    ((entryImages entries).isOk = true
      ↔ ∀ entry ∈ entries, ¬ (IsNameless entry.1 ∨ HasNamelessKey entry.2))
  | [] => by simp [entryImages, Except.isOk, Except.toBool]
  | (key, value) :: entries => by
    have himages : (entryImages ((key, value) :: entries)).isOk
        = ((nameOf key).isOk && ((image value).isOk && (entryImages entries).isOk)) := by
      rw [entryImages]
      cases nameOf key with
      | error e => rfl
      | ok name =>
        cases image value with
        | error e => rfl
        | ok d => cases entryImages entries <;> rfl
    rw [himages, Bool.and_eq_true, Bool.and_eq_true, nameOf_isOk key, image_isOk value,
      entryImages_isOk entries, List.forall_mem_cons, not_or, and_assoc]

end

/-- A computation of two steps succeeds only if both do. -/
theorem exists_of_bind {ε α β : Type} {x : Except ε α} {f : α → Except ε β} {b : β}
    (h : x >>= f = .ok b) : ∃ a, x = .ok a ∧ f a = .ok b := by
  cases x with
  | error e => cases h
  | ok a => exact ⟨a, rfl, h⟩

mutual

/-- and the image has the form of the value. -/
theorem depicts_of_image : (value : Value) → ∀ d, image value = .ok d → Depicts value d
  | .null, _, h => Except.ok.inj h ▸ .null
  | .bool b, _, h => Except.ok.inj h ▸ .bool b
  | .int n, _, h => Except.ok.inj h ▸ .int n
  | .string s, _, h => Except.ok.inj h ▸ .string s
  | .float (.finite negative significand exponent), _, h => by
    obtain rfl := Except.ok.inj h
    have hchars := chars_shortestDecimal negative significand exponent
    refine .finite hchars fun hcanonical => ?_
    show readDecimal? (shortestDecimal negative significand exponent).chars = _
    rw [hchars]
    exact readDecimal?_numeral numeralStyle negative hcanonical
  | .float .nan, _, h | .float (.infinite _), _, h => Except.ok.inj h ▸ .notFinite rfl
  -- Collections are imaged part by part.
  | .sequence items, d, h => by
    rw [image] at h
    obtain ⟨ds, hitems, hd⟩ := exists_of_bind h
    obtain rfl := Except.ok.inj hd
    exact .sequence (depictsItems_of_images items ds hitems)
  | .mapping entries, d, h => by
    rw [image] at h
    obtain ⟨members, hentries, hd⟩ := exists_of_bind h
    obtain rfl := Except.ok.inj hd
    exact .mapping (depictsEntries_of_images entries members hentries)
  | .tagged tag value, d, h => by
    rw [image] at h
    obtain ⟨d', hvalue, hd⟩ := exists_of_bind h
    obtain rfl := Except.ok.inj hd
    have hname : "!" ++ tag = String.ofList ('!' :: tag.toList) := by
      apply String.ext
      simp
    rw [← hname]
    exact .tagged (depicts_of_image value d' hvalue)

theorem depictsItems_of_images : (items : List Value) → ∀ ds, itemImages items = .ok ds →
    DepictsItems items ds
  | [], _, h => Except.ok.inj h ▸ .nil
  | item :: items, ds, h => by
    rw [itemImages] at h
    obtain ⟨d, hitem, h⟩ := exists_of_bind h
    obtain ⟨rest, hitems, h⟩ := exists_of_bind h
    obtain rfl := Except.ok.inj h
    exact .cons (depicts_of_image item d hitem) (depictsItems_of_images items rest hitems)

theorem depictsEntries_of_images : (entries : List (Value × Value)) → ∀ members,
    entryImages entries = .ok members → DepictsEntries entries members
  | [], _, h => Except.ok.inj h ▸ .nil
  | (key, value) :: entries, members, h => by
    rw [entryImages] at h
    obtain ⟨name, hkey, h⟩ := exists_of_bind h
    obtain ⟨d, hvalue, h⟩ := exists_of_bind h
    obtain ⟨rest, hentries, h⟩ := exists_of_bind h
    obtain rfl := Except.ok.inj h
    exact .cons (names_of_nameOf hkey) (depicts_of_image value d hvalue)
      (depictsEntries_of_images entries rest hentries)

end

end Json

/-! ### Encoding -/

open Json (Datum Depicts IsJson IsUncontrolled decode?)

/-- **What is encoded can be decoded.**  A value has no JSON text iff at some depth a mapping has a
    key that is nothing, a collection, tagged, or a number that is not finite; the failure names the
    handle.  Otherwise its text belongs to the grammar of JSON and has no control character in it,
    and what is read from it is a document of the form of the value, where the numeral of a finite
    number is read as this number.  Every text whatsoever is encoded, and is read back as it was. -/
theorem encodeValue_decodes (handle : Handle) (value : Value) :
    ((∃ e, encodeValue handle value = .error e) ↔ value.HasNamelessKey) ∧
    (∀ e, encodeValue handle value = .error e → ∃ reason, e = .unencodable handle.text reason) ∧
    (∀ text, encodeValue handle value = .ok text → IsJson text ∧ IsUncontrolled text.toList ∧
      ∃ d, Depicts value d ∧ decode? text = some d) ∧
    ∀ s, encodeValue handle (.string s) = .ok (Json.quote s) ∧
      decode? (Json.quote s) = some (.string s) := by
  have hencode : encodeValue handle value = ((Json.image value).map Datum.text).mapError
      fun fault => .unencodable handle.text fault.message := by
    rw [encodeValue, Json.encode_eq_image]
  have hnameless := Json.image_isOk value
  rw [hencode]
  refine ⟨?_, ?_, ?_, fun s => ⟨rfl, Json.decode?_text (.string s)⟩⟩
  · -- A value has an image iff no key in it is nameless.
    cases himage : Json.image value with
    | error fault =>
      rw [himage] at hnameless
      simpa [Except.isOk, Except.toBool, Except.map, Except.mapError] using hnameless
    | ok d =>
      rw [himage] at hnameless
      simpa [Except.isOk, Except.toBool, Except.map, Except.mapError] using hnameless
  · cases Json.image value with
    | error fault =>
      intro e he
      exact ⟨fault.message, (Except.error.inj he).symm⟩
    | ok d => exact fun e he => by cases he
  · intro text htext
    cases himage : Json.image value with
    | error fault =>
      rw [himage] at htext
      cases htext
    | ok d =>
      rw [himage] at htext
      obtain rfl := Except.ok.inj htext
      refine ⟨d.isJson, ?_, d, Json.depicts_of_image value d himage, Json.decode?_text d⟩
      rw [Datum.text, String.toList_ofList]
      exact d.isUncontrolled

/-- A number is a name, a tag too, and not a number is nothing. -/
example (handle : Handle) :
    encodeValue handle
        (.mapping [(.int 1, .tagged "t" (.sequence [.float .nan, .string "a\n"]))])
      = .ok "\x7b\"1\":\x7b\"!t\":[null,\"a\\n\"]\x7d\x7d" := rfl

end SecretFill
