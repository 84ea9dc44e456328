import SecretFill.Proofs.PlainDocuments
import SecretFill.Settings.Load

namespace SecretFill.Settings

/-!
# What a settings file sets

A settings file is read if each of its keys is one of the four and has a value of its type.  Then a
setting whose key stands there is the value of the key, and another one is the standard one.

* `text?`, `seconds?`, `flag?`, `policy?` — the values of the right type.
* `FitsKey`, `Fits` — the entries, and the tables, that set something.
* `overlay` — settings with those of a table in their place.
* `set_eq_ok_iff` — one entry; `ofEntries_eq_ok_iff` — a whole table; `parse_eq_ok_iff` — a text.
* `parse_source_iff` — the settings that some plain lines say.
* `parse_written_ne_ok` — what some lines cannot say, whatever follows them.
-/

open Toml (Value Entries Literal Line)

variable {β : Type}

/-! ### Values of the right type -/

/-- The text that a value is. -/
def text? : Value → Option String
  | .string _ text => some text
  | _ => none

/-- The word of 64 bits that a value is. -/
def seconds? : Value → Option Nat
  | .integer _ n => if 0 ≤ n ∧ n < Nat.pow 2 64 then some n.toNat else none
  | _ => none

/-- The truth value that a value is. -/
def flag? : Value → Option Bool
  | .boolean _ b => some b
  | _ => none

/-- Whether a value is an empty array or table. -/
def isVoid : Value → Bool
  | .array _ _ items => items.isEmpty
  | .table _ _ entries => entries.isEmpty
  | _ => false

/-- The policy that a value names, as a text or as the only key of a table with nothing beside it. -/
def policy? : Value → Option Policy
  | .string _ name => Policy.ofName? name
  | .table _ _ [(key, value)] => if isVoid value then Policy.ofName? key.text else none
  | _ => none

section Types

variable (value : Value)

theorem toOption_textOf : (textOf value).toOption = text? value := by
  cases value <;> rfl

theorem toOption_flagOf : (flagOf value).toOption = flag? value := by
  cases value <;> rfl

theorem toOption_secondsOf : (secondsOf value).toOption = seconds? value := by
  cases value with
  | integer span n =>
    show (if 0 ≤ n ∧ n < Nat.pow 2 64 then _ else _ : Except SettingsFault Nat).toOption
      = if 0 ≤ n ∧ n < Nat.pow 2 64 then _ else _
    split
    · rfl
    · split <;> rfl
  | string | float | boolean | moment | array | table => rfl

theorem toOption_policyNamed (span : Toml.Span) (name : String) :
    (policyNamed span name).toOption = Policy.ofName? name := by
  unfold policyNamed
  cases Policy.ofName? name <;> rfl

theorem isOk_checkEmpty : (checkEmpty value).isOk = isVoid value := by
  cases value with
  | array span grows items =>
    show (if items.isEmpty then _ else _ : Except SettingsFault Unit).isOk = items.isEmpty
    cases items.isEmpty <;> rfl
  | table span origin entries =>
    show (if entries.isEmpty then _ else _ : Except SettingsFault Unit).isOk = entries.isEmpty
    cases entries.isEmpty <;> rfl
  | string | integer | float | boolean | moment => rfl

theorem toOption_policyOf : (policyOf value).toOption = policy? value := by
  cases value with
  | string span name => exact toOption_policyNamed span name
  | table span origin entries =>
    match entries with
    | [] => rfl
    | _ :: _ :: _ => rfl
    | [(key, inner)] =>
      have hname := toOption_policyNamed key.span key.text
      have hempty := isOk_checkEmpty inner
      show (do let policy ← policyNamed key.span key.text; checkEmpty inner; return policy :
        Except SettingsFault Policy).toOption = if isVoid inner then _ else none
      rw [← hname, ← hempty]
      cases policyNamed key.span key.text with
      | error fault => cases checkEmpty inner <;> rfl
      | ok policy => cases checkEmpty inner <;> rfl
  | integer | float | boolean | moment | array => rfl

end Types

/-! ### One entry -/

/-- An entry that sets something: its key is one of the four, and its value of the type of the key. -/
def FitsKey (name : String) (value : Value) : Prop :=
  (name = "lpass_command" ∧ (text? value).isSome) ∨
  (name = "timeout_secs" ∧ (seconds? value).isSome) ∨
  (name = "cache_empty_values" ∧ (flag? value).isSome) ∨
  (name = "on_error" ∧ (policy? value).isSome)

instance (name : String) (value : Value) : Decidable (FitsKey name value) :=
  inferInstanceAs (Decidable (_ ∨ _))

/-- What a table gives for a key. -/
def given? (read : Value → Option β) (entries : Entries) (name : String) : Option β :=
  (entries.find? name).bind read

/-- Settings with those of a table in their place. -/
def overlay (s : Settings) (entries : Entries) : Settings where
  command := (given? text? entries "lpass_command").getD s.command
  timeoutSeconds := (given? seconds? entries "timeout_secs").getD s.timeoutSeconds
  cachesEmpty := (given? flag? entries "cache_empty_values").getD s.cachesEmpty
  policy := (given? policy? entries "on_error").getD s.policy

theorem given?_cons (read : Value → Option β) (key : Toml.Key) (value : Value) (rest : Entries)
    (name : String) :
    given? read ((key, value) :: rest) name
      = if key.text = name then read value else given? read rest name := by
  unfold given?
  rw [Entries.find?_cons]
  split <;> rfl

/-- A value of the right type is taken for its setting. -/
theorem map_eq_ok_iff {x : Except SettingsFault β} {value? : Option β} (hx : x.toOption = value?)
    (f : β → Settings) (standard : β) {s : Settings} :
    x.map f = .ok s ↔ value?.isSome ∧ s = f (value?.getD standard) := by
  subst hx
  cases x with
  | error fault =>
    show Except.error fault = .ok s ↔ false = true ∧ _
    simp
  | ok b =>
    show Except.ok (f b) = .ok s ↔ true = true ∧ s = f b
    rw [Except.ok.injEq, eq_comm]
    exact (and_iff_right rfl).symm

/-- **One entry** is taken iff it fits, and sets what its key says. -/
theorem set_eq_ok_iff {s s' : Settings} {key : Toml.Key} {value : Value} :
    s.set key value = .ok s' ↔ FitsKey key.text value ∧ s' = s.overlay [(key, value)] := by
  have hgiven : ∀ {β : Type} (read : Value → Option β) (name : String),
      given? read [(key, value)] name = if key.text = name then read value else none :=
    fun read name => given?_cons read key value [] name
  unfold set overlay
  simp only [hgiven]
  -- One of the four keys that a file may have, or none of them.
  split
  · rename_i hname
    rw [map_eq_ok_iff (toOption_textOf value) _ s.command]
    simp [FitsKey, hname]
  · rename_i hname
    rw [map_eq_ok_iff (toOption_secondsOf value) _ s.timeoutSeconds]
    simp [FitsKey, hname]
  · rename_i hname
    rw [map_eq_ok_iff (toOption_flagOf value) _ s.cachesEmpty]
    simp [FitsKey, hname]
  · rename_i hname
    rw [map_eq_ok_iff (toOption_policyOf value) _ s.policy]
    simp [FitsKey, hname]
  · rename_i hcommand htimeout hcaches hpolicy
    have hnone : ¬ FitsKey key.text value := by
      rintro (⟨hname, -⟩ | ⟨hname, -⟩ | ⟨hname, -⟩ | ⟨hname, -⟩)
      · exact hcommand hname
      · exact htimeout hname
      · exact hcaches hname
      · exact hpolicy hname
    exact ⟨nofun, fun h => absurd h.1 hnone⟩

/-! ### Whole tables -/

/-- A table all of whose entries set something. -/
def Fits (entries : Entries) : Prop := ∀ entry ∈ entries, FitsKey entry.1.text entry.2

instance (entries : Entries) : Decidable (Fits entries) :=
  inferInstanceAs (Decidable (∀ entry ∈ entries, FitsKey entry.1.text entry.2))

/-- The entries behind the first one leave what it sets, if its key does not stand there again. -/
theorem overlay_cons {key : Toml.Key} {rest : Entries} (h : key.text ∉ rest.names) (s : Settings)
    (value : Value) :
    (s.overlay [(key, value)]).overlay rest = s.overlay ((key, value) :: rest) := by
  have hgiven : ∀ {β : Type} (read : Value → Option β) (name : String) (standard : β),
      (given? read rest name).getD ((given? read [(key, value)] name).getD standard)
        = (given? read ((key, value) :: rest) name).getD standard := by
    intro β read name standard
    rw [given?_cons, given?_cons]
    split
    · rename_i hname
      have hmissing : given? read rest name = none := by
        unfold given?
        rw [Entries.find?_eq_none_iff.2 (hname ▸ h)]
        rfl
      rw [hmissing]
      rfl
    · rfl
  simp only [overlay, hgiven]

/-- **Entries that are taken** one after the other set what the table says, if no key stands
    twice. -/
theorem foldlM_set_eq_ok_iff {entries : Entries} (h : entries.Distinct) {s s' : Settings} :
    entries.foldlM (fun s entry => s.set entry.1 entry.2) s = .ok s' ↔
      Fits entries ∧ s' = s.overlay entries := by
  induction entries generalizing s with
  | nil =>
    show Except.ok s = .ok s' ↔ _
    rw [Except.ok.injEq, eq_comm]
    exact (and_iff_right (List.forall_mem_nil _)).symm
  | cons entry rest ih =>
    obtain ⟨key, value⟩ := entry
    obtain ⟨hkey, hrest⟩ := List.nodup_cons.1 h
    rw [List.foldlM_cons, ← overlay_cons hkey]
    have hfits : Fits ((key, value) :: rest) ↔ FitsKey key.text value ∧ Fits rest :=
      List.forall_mem_cons
    rw [hfits]
    -- The first entry that does not fit ends the reading.
    cases hset : s.set key value with
    | error fault =>
      have hfirst : ¬ FitsKey key.text value := by
        intro hfit
        rw [set_eq_ok_iff.2 ⟨hfit, rfl⟩] at hset
        cases hset
      exact ⟨nofun, fun h => absurd h.1.1 hfirst⟩
    | ok next =>
      obtain ⟨hfit, rfl⟩ := set_eq_ok_iff.1 hset
      show rest.foldlM _ _ = _ ↔ _
      rw [ih hrest, and_iff_right hfit]

/-- **The settings of a table** are the standard ones, with those of the table in their place. -/
theorem ofEntries_eq_ok_iff {entries : Entries} (h : entries.Distinct) {s : Settings} :
    ofEntries entries = .ok s ↔ Fits entries ∧ s = standard.overlay entries := by
  let sorted := entries.mergeSort fun a b => a.1.text ≤ b.1.text
  have hperm : sorted.Perm entries := List.mergeSort_perm entries _
  have hsorted : Entries.Distinct sorted := (hperm.map _).nodup_iff.2 h
  have hfits : Fits sorted ↔ Fits entries := by
    unfold Fits
    simp only [hperm.mem_iff]
  -- To be looked at in another order changes no value.
  have hoverlay : standard.overlay sorted = standard.overlay entries := by
    unfold overlay given?
    simp only [hsorted.find?_perm hperm]
  rw [← hfits, ← hoverlay]
  exact foldlM_set_eq_ok_iff hsorted

/-- **A text has settings** iff it is TOML and its entries fit. -/
theorem parse_eq_ok_iff {s : Settings} {text : String} :
    parse text = .ok s ↔
      ∃ entries, Toml.read? text = some entries ∧ Fits entries ∧ s = standard.overlay entries := by
  unfold parse
  cases hread : Toml.read? text with
  | none => simp
  | some entries =>
    have hentries := ofEntries_eq_ok_iff (Toml.distinct_of_read? hread) (s := s)
    constructor
    · intro h
      cases hof : ofEntries entries with
      | error fault =>
        simp only [hof] at h
        cases h
      | ok s' =>
        simp only [hof] at h
        cases h
        exact ⟨entries, rfl, hentries.1 hof⟩
    · rintro ⟨_, ⟨⟩, hfits⟩
      simp only [hentries.2 hfits]
      rfl

/-! ### Plain texts -/

/-- The entries for what some lines give to keys, wherever they stand. -/
def entriesFor (given : List (String × Literal)) : Entries :=
  given.map fun g => (⟨default, g.1⟩, g.2.value default)

/-- Where a plain value stands makes no difference for what it sets, -/
theorem fitsKey_value {name : String} {l : Literal} {span span' : Toml.Span} :
    FitsKey name (l.value span) ↔ FitsKey name (l.value span') := by
  cases l <;> exact Iff.rfl

section Given

variable {given : List (String × Literal)} {entries : Entries}

/-- so the entries of a document give what its lines say, -/
theorem given?_entriesFor (h : Toml.Gives given entries) {read : Value → Option β}
    (hread : ∀ (l : Literal) span span', read (l.value span) = read (l.value span')) (name : String) :
    given? read entries name = given? read (entriesFor given) name := by
  induction h with
  | nil => rfl
  | @cons g entry _ _ hentry _ ih =>
    obtain ⟨key, value⟩ := entry
    obtain ⟨hname, span, hvalue⟩ : key.text = g.1 ∧ ∃ span, value = g.2.value span := hentry
    rw [given?_cons, entriesFor, List.map_cons, given?_cons, ih, hname, hvalue,
      hread g.2 span default]
    rfl

/-- set what these say, -/
theorem overlay_entriesFor (h : Toml.Gives given entries) (s : Settings) :
    s.overlay entries = s.overlay (entriesFor given) := by
  have hgiven : ∀ {β : Type} (read : Value → Option β) name,
      (∀ (l : Literal) span span', read (l.value span) = read (l.value span')) →
      given? read entries name = given? read (entriesFor given) name :=
    fun read name hread => given?_entriesFor h hread name
  unfold overlay
  rw [hgiven text? _ fun l _ _ => by cases l <;> rfl, hgiven seconds? _ fun l _ _ => by cases l <;> rfl,
    hgiven flag? _ fun l _ _ => by cases l <;> rfl, hgiven policy? _ fun l _ _ => by cases l <;> rfl]

/-- and fit iff these do. -/
theorem fits_entriesFor (h : Toml.Gives given entries) : Fits entries ↔ Fits (entriesFor given) := by
  induction h with
  | nil => exact Iff.rfl
  | @cons g entry _ _ hentry _ ih =>
    obtain ⟨hname, span, hvalue⟩ := hentry
    have hfirst : FitsKey entry.1.text entry.2 ↔ FitsKey g.1 (g.2.value default) := by
      rw [hname, hvalue]
      exact fitsKey_value
    unfold Fits entriesFor at ih ⊢
    rw [List.map_cons, List.forall_mem_cons, List.forall_mem_cons]
    exact and_congr hfirst ih

end Given

/-- **The settings of plain lines** are those that they give to the four keys, if no key stands
    twice. -/
theorem parse_source_iff {s : Settings} (lines : List Line) (last : Line) :
    parse (String.ofList (Toml.source lines last)) = .ok s ↔
      (Toml.namesOf (Toml.givenBy (lines ++ [last]))).Nodup ∧
        Fits (entriesFor (Toml.givenBy (lines ++ [last]))) ∧
        s = standard.overlay (entriesFor (Toml.givenBy (lines ++ [last]))) := by
  obtain ⟨hnew, htwice⟩ := Toml.read?_source lines last
  rw [parse_eq_ok_iff]
  by_cases hnodup : (Toml.namesOf (Toml.givenBy (lines ++ [last]))).Nodup
  · obtain ⟨entries, hgives, hread⟩ := hnew hnodup
    rw [hread, ← overlay_entriesFor hgives, ← fits_entriesFor hgives]
    constructor
    · rintro ⟨_, ⟨⟩, hfits, hs⟩
      exact ⟨hnodup, hfits, hs⟩
    · rintro ⟨-, hfits, hs⟩
      exact ⟨entries, rfl, hfits, hs⟩
  · rw [htwice hnodup]
    exact ⟨fun ⟨_, h, _⟩ => absurd h (by simp), fun h => absurd h.1 hnodup⟩

/-- **Some lines spoil a text**, whatever follows them: a key stands twice, or has a value that does
    not fit, or is none of the four; or a line is broken. -/
theorem parse_written_ne_ok {lines : List Line} {rest : List Char}
    (h : ¬ (Toml.namesOf (Toml.givenBy lines)).Nodup ∨ ¬ Fits (entriesFor (Toml.givenBy lines)) ∨
      ∃ (indent : Toml.Gap) (broken : List Char),
        rest = indent.chars ++ broken ∧ Toml.IsBroken broken) (s : Settings) :
    parse (String.ofList (Toml.written lines ++ rest)) ≠ .ok s := by
  intro hparse
  obtain ⟨entries, hread, hfits, -⟩ := parse_eq_ok_iff.1 hparse
  by_cases hbroken : ∃ (indent : Toml.Gap) (broken : List Char),
      rest = indent.chars ++ broken ∧ Toml.IsBroken broken
  · obtain ⟨indent, broken, rfl, hbroken⟩ := hbroken
    rw [Toml.read?_of_broken lines indent hbroken] at hread
    cases hread
  · -- Without lines there would be nothing wrong with them.
    have hne : lines ≠ [] := by
      rintro rfl
      rcases h with htwice | hunfit | hline
      · exact htwice List.nodup_nil
      · exact hunfit (List.forall_mem_nil _)
      · exact hbroken hline
    obtain ⟨hnodup, hstays⟩ := Toml.exists_of_read?_written (fun hnil => absurd hnil hne) hread
    rcases h with htwice | hunfit | hline
    · exact htwice hnodup
    · refine hunfit fun entry hentry => ?_
      obtain ⟨given, hgiven, rfl⟩ := List.mem_map.1 hentry
      obtain ⟨kept, hkept, hname, span, hvalue⟩ := hstays given hgiven
      have hfit := hfits kept hkept
      rw [hname, hvalue] at hfit
      exact fitsKey_value.1 hfit
    · exact hbroken hline

end SecretFill.Settings
