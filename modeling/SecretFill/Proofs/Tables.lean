import Mathlib.Data.List.Nodup
import SecretFill.Toml.Document

namespace SecretFill.Toml

/-!
# No key stands twice

Whatever is done to a table while a document is read, no key of it comes to stand twice.  So the
value of a key does not depend on the order of the entries.

* `Entries.names`, `Entries.Distinct` — the keys of a table, none of which stands twice.
* `Entries.Distinct.find?_eq_some_iff`, `find?_perm` — what this means for the value of a key.
* `Stable` — what holds of a table whatever is done to it while a document is read;
  `Stable.of_readLines` — so it holds behind every row of lines.
* `Entries.Distinct.change?`, `insert?` — what is done to a table keeps its keys distinct.
* `Entries.Keeps` — what is done to a table leaves an entry whose value is neither a table nor an
  array; `Stable.mem` — so such an entry stays whatever is read.
* `distinct_of_read?` — no key stands twice in any document.
-/

namespace Entries

variable {entries entries' : Entries} {key : Key} {name : String} {value : Value}

/-- The keys of a table. -/
def names (entries : Entries) : List String := entries.map fun entry => entry.1.text

/-- No key stands twice. -/
def Distinct (entries : Entries) : Prop := entries.names.Nodup

@[simp] theorem find?_nil : find? [] name = none := rfl

theorem find?_cons (key : Key) (value : Value) (rest : Entries) (name : String) :
    find? ((key, value) :: rest) name = if key.text = name then some value else rest.find? name := by
  unfold find?
  rw [List.find?_cons]
  by_cases h : key.text = name
  · rw [if_pos h, beq_iff_eq.2 h]
    rfl
  · rw [if_neg h, beq_eq_false_iff_ne.2 h]

/-- A key that does not stand there has no value. -/
theorem find?_eq_none_iff : entries.find? name = none ↔ name ∉ entries.names := by
  unfold find? names
  rw [Option.map_eq_none_iff, List.find?_eq_none]
  simp

/-- In the place of a value stands another one, so the keys are the same. -/
@[simp] theorem names_replace : (entries.replace name value).names = entries.names := by
  unfold names replace
  rw [List.map_map]
  refine List.map_congr_left fun entry _ => ?_
  show (if entry.1.text = name then (entry.1, value) else entry).1.text = entry.1.text
  split <;> rfl

/-- A change keeps what holds of a table. -/
def Preserves (P : Entries → Prop) (change : Origin → Entries → Option Entries) : Prop :=
  ∀ origin entries entries', P entries → change origin entries = some entries' → P entries'

namespace Distinct

theorem nil : Distinct [] := List.nodup_nil

theorem cons (h : entries.Distinct) (hkey : key.text ∉ entries.names) :
    Distinct ((key, value) :: entries) := List.nodup_cons.2 ⟨hkey, h⟩

/-- A new key may be added at the end. -/
theorem append (h : entries.Distinct) (hkey : entries.find? key.text = none) :
    Distinct (entries ++ [(key, value)]) := by
  unfold Distinct names
  rw [List.map_append, List.nodup_append]
  refine ⟨h, List.nodup_singleton _, fun name hname other hother => ?_⟩
  rw [List.map_singleton, List.mem_singleton] at hother
  rintro rfl
  exact find?_eq_none_iff.1 hkey (hother ▸ hname)

theorem replace (h : entries.Distinct) : (entries.replace name value).Distinct := by
  unfold Distinct
  rw [names_replace]
  exact h

/-- The value of a key is that of the entry with this key. -/
theorem find?_eq_some_iff (h : entries.Distinct) :
    entries.find? name = some value ↔ ∃ key, (key, value) ∈ entries ∧ key.text = name := by
  induction entries with
  | nil => simp
  | cons entry rest ih =>
    obtain ⟨first, v⟩ := entry
    obtain ⟨hfirst, hrest⟩ := List.nodup_cons.1 h
    rw [find?_cons]
    split
    · rename_i hname
      constructor
      · rintro ⟨⟩
        exact ⟨first, List.mem_cons_self, hname⟩
      · rintro ⟨key, hmem, hkey⟩
        rcases List.mem_cons.1 hmem with heq | hlater
        · rw [(Prod.mk.inj heq).2]
        · -- The key would stand a second time.
          have htwice : first.text ∈ rest.map fun entry => entry.1.text := by
            rw [hname, ← hkey]
            exact List.mem_map_of_mem hlater
          exact absurd htwice hfirst
    · rename_i hname
      rw [ih hrest]
      constructor
      · rintro ⟨key, hmem, hkey⟩
        exact ⟨key, List.mem_cons_of_mem _ hmem, hkey⟩
      · rintro ⟨key, hmem, hkey⟩
        rcases List.mem_cons.1 hmem with heq | hlater
        · rw [(Prod.mk.inj heq).1] at hkey
          exact absurd hkey hname
        · exact ⟨key, hlater, hkey⟩

/-- **The order of the entries** does not count for the value of a key. -/
theorem find?_perm (h : entries.Distinct) (hperm : entries.Perm entries') (name : String) :
    entries.find? name = entries'.find? name := by
  have h' : entries'.Distinct := (hperm.map _).nodup_iff.1 h
  refine Option.ext fun value => ?_
  rw [h.find?_eq_some_iff, h'.find?_eq_some_iff]
  exact exists_congr fun key => and_congr_left fun _ => hperm.mem_iff

/-! ### What is done to a table -/

/-- A change keeps the keys of a table distinct. -/
def KeptBy (change : Origin → Entries → Option Entries) : Prop := Preserves Distinct change

/-- **A change further down** leaves the keys of the table as they are, or adds a new one. -/
theorem change? {change : Origin → Entries → Option Entries} (h : KeptBy change) (dotted : Bool)
    (path : List Key) : KeptBy (Entries.change? dotted change path) := by
  intro origin entries entries' hdistinct hchange
  cases path with
  | nil => exact h origin entries entries' hdistinct hchange
  | cons key path =>
    rw [Entries.change?] at hchange
    split at hchange
    · rename_i hnew
      obtain ⟨inner, -, rfl⟩ := Option.map_eq_some_iff.1 hchange
      exact hdistinct.append hnew
    · split at hchange
      · obtain ⟨inner, -, rfl⟩ := Option.map_eq_some_iff.1 hchange
        exact hdistinct.replace
      · cases hchange
    · obtain ⟨items, -, rfl⟩ := Option.map_eq_some_iff.1 hchange
      exact hdistinct.replace
    · cases hchange

theorem openTable? (span : Span) (key : Key) : KeptBy (Entries.openTable? span key) := by
  intro origin entries entries' hdistinct hopen
  unfold Entries.openTable? at hopen
  split at hopen
  · rename_i hnew
    cases hopen
    exact hdistinct.append hnew
  · cases hopen
    exact hdistinct.replace
  · cases hopen

theorem openItem? (span : Span) (key : Key) : KeptBy (Entries.openItem? span key) := by
  intro origin entries entries' hdistinct hopen
  unfold Entries.openItem? at hopen
  split at hopen
  · rename_i hnew
    cases hopen
    exact hdistinct.append hnew
  · cases hopen
    exact hdistinct.replace
  · cases hopen

theorem place? (dotted : Bool) (key : Key) (value : Value) :
    KeptBy (Entries.place? dotted key value) := by
  intro origin entries entries' hdistinct hplace
  unfold Entries.place? at hplace
  split at hplace
  · cases hplace
  · rename_i hfree
    cases hplace
    rw [Bool.or_eq_true, not_or] at hfree
    exact hdistinct.append (Option.not_isSome_iff_eq_none.1 hfree.2)

theorem insert? (path : List Key) (key : Key) (value : Value) :
    KeptBy (Entries.insert? path key value) := change? (place? _ key value) true path

end Distinct

/-! ### What stays in a table -/

/-- A value is neither a table nor an array, so no path leads into it. -/
def IsLeaf : Value → Prop
  | .table .. | .array .. => False
  | _ => True

/-- A change leaves an entry. -/
def Keeps (entry : Key × Value) (change : Origin → Entries → Option Entries) : Prop :=
  ∀ origin entries entries', Distinct entries → entry ∈ entries →
    change origin entries = some entries' → entry ∈ entries'

section Keeps

variable {entry : Key × Value}

/-- The value of another key may be replaced. -/
theorem mem_replace (h : entry ∈ entries) (hname : entry.1.text ≠ name) :
    entry ∈ entries.replace name value := by
  refine List.mem_map.2 ⟨entry, h, ?_⟩
  rw [if_neg hname]

/-- A key that leads on is not that of a value into which no path leads. -/
theorem ne_of_find? (hdistinct : entries.Distinct) (h : entry ∈ entries) (hleaf : IsLeaf entry.2)
    (hfind : entries.find? name = some value) (hvalue : ¬ IsLeaf value) : entry.1.text ≠ name := by
  intro hname
  have hsame : entries.find? name = some entry.2 :=
    hdistinct.find?_eq_some_iff.2 ⟨entry.1, h, hname⟩
  obtain rfl := Option.some.inj (hfind.symm.trans hsame)
  exact hvalue hleaf

namespace Keeps

/-- **A change further down** leaves the entries into which no path leads. -/
theorem change? (hleaf : IsLeaf entry.2) {change : Origin → Entries → Option Entries}
    (h : Keeps entry change) (dotted : Bool) (path : List Key) :
    Keeps entry (Entries.change? dotted change path) := by
  intro origin entries entries' hdistinct hmem hchange
  cases path with
  | nil => exact h origin entries entries' hdistinct hmem hchange
  | cons key path =>
    rw [Entries.change?] at hchange
    split at hchange
    · obtain ⟨inner, -, rfl⟩ := Option.map_eq_some_iff.1 hchange
      exact List.mem_append_left _ hmem
    · rename_i hfind
      split at hchange
      · obtain ⟨inner, -, rfl⟩ := Option.map_eq_some_iff.1 hchange
        exact mem_replace hmem (ne_of_find? hdistinct hmem hleaf hfind id)
      · cases hchange
    · rename_i hfind
      obtain ⟨items, -, rfl⟩ := Option.map_eq_some_iff.1 hchange
      exact mem_replace hmem (ne_of_find? hdistinct hmem hleaf hfind id)
    · cases hchange

theorem openTable? (hleaf : IsLeaf entry.2) (span : Span) (key : Key) :
    Keeps entry (Entries.openTable? span key) := by
  intro origin entries entries' hdistinct hmem hopen
  unfold Entries.openTable? at hopen
  split at hopen
  · cases hopen
    exact List.mem_append_left _ hmem
  · rename_i hfind
    cases hopen
    exact mem_replace hmem (ne_of_find? hdistinct hmem hleaf hfind id)
  · cases hopen

theorem openItem? (hleaf : IsLeaf entry.2) (span : Span) (key : Key) :
    Keeps entry (Entries.openItem? span key) := by
  intro origin entries entries' hdistinct hmem hopen
  unfold Entries.openItem? at hopen
  split at hopen
  · cases hopen
    exact List.mem_append_left _ hmem
  · rename_i hfind
    cases hopen
    exact mem_replace hmem (ne_of_find? hdistinct hmem hleaf hfind id)
  · cases hopen

theorem insert? (hleaf : IsLeaf entry.2) (path : List Key) (key : Key) (value : Value) :
    Keeps entry (Entries.insert? path key value) := by
  refine change? hleaf (fun origin entries entries' hdistinct hmem hplace => ?_) true path
  unfold Entries.place? at hplace
  split at hplace
  · cases hplace
  · cases hplace
    exact List.mem_append_left _ hmem

end Keeps

end Keeps

end Entries

/-! ### Documents -/

/-- What holds of a table whatever is done to it while a document is read. -/
structure Stable (P : Entries → Prop) : Prop where
  /-- The header of a table keeps it, -/
  table : ∀ span key path,
    Entries.Preserves P (Entries.change? false (Entries.openTable? span key) path)
  /-- the header of an item, -/
  item : ∀ span key path,
    Entries.Preserves P (Entries.change? false (Entries.openItem? span key) path)
  /-- and an entry. -/
  entry : ∀ inner key value path,
    Entries.Preserves P (Entries.change? false (Entries.insert? inner key value) path)

namespace Stable

variable {P : Entries → Prop} {d d' : Draft}

/-- A header keeps what is stable, -/
theorem of_readHeader (h : Stable P) {start rest rest' : List Char} (hd : P d.root)
    (hread : readHeader d start rest = some (d', rest')) : P d'.root := by
  unfold readHeader at hread
  split at hread
  · obtain ⟨⟨⟨path, key⟩, behind⟩, -, hread⟩ := Option.bind_eq_some_iff.1 hread
    split at hread
    · rename_i heq
      obtain ⟨root, hroot, hread⟩ := Option.bind_eq_some_iff.1 hread
      cases hread
      exact h.item _ _ _ _ _ _ hd hroot
    · cases hread
  · obtain ⟨⟨⟨path, key⟩, behind⟩, -, hread⟩ := Option.bind_eq_some_iff.1 hread
    split at hread
    · obtain ⟨root, hroot, hread⟩ := Option.bind_eq_some_iff.1 hread
      cases hread
      exact h.table _ _ _ _ _ _ hd hroot
    · cases hread

/-- and so does an entry. -/
theorem of_readLineEntry (h : Stable P) {cs rest : List Char} (hd : P d.root)
    (hread : readLineEntry d cs = some (d', rest)) : P d'.root := by
  unfold readLineEntry at hread
  obtain ⟨⟨⟨path, key, value⟩, behind⟩, -, hread⟩ := Option.bind_eq_some_iff.1 hread
  obtain ⟨root, hroot, hread⟩ := Option.bind_eq_some_iff.1 hread
  cases hread
  exact h.entry _ _ _ _ _ _ _ hd hroot

/-- **What is stable** holds behind every row of lines. -/
theorem of_readLines (h : Stable P) {fuel : Nat} {cs : List Char} (hd : P d.root)
    (hread : readLines fuel d cs = some d') : P d'.root := by
  induction fuel generalizing d cs with
  | zero => cases hread
  | succ fuel ih =>
    rw [readLines] at hread
    obtain ⟨filled, -, hread⟩ := Option.bind_eq_some_iff.1 hread
    split at hread
    · cases hread
      exact hd
    · obtain ⟨⟨next, behind⟩, hnext, hread⟩ := Option.bind_eq_some_iff.1 hread
      obtain ⟨line, -, hread⟩ := Option.bind_eq_some_iff.1 hread
      exact ih (h.of_readHeader hd hnext) hread
    · obtain ⟨⟨next, behind⟩, hnext, hread⟩ := Option.bind_eq_some_iff.1 hread
      obtain ⟨line, -, hread⟩ := Option.bind_eq_some_iff.1 hread
      exact ih (h.of_readLineEntry hd hnext) hread

/-- That no key stands twice is stable. -/
theorem distinct : Stable Entries.Distinct where
  table _ _ path := Entries.Distinct.change? (.openTable? _ _) _ path
  item _ _ path := Entries.Distinct.change? (.openItem? _ _) _ path
  entry _ _ _ path := Entries.Distinct.change? (.insert? _ _ _) _ path

/-- That an entry stands there into which no path leads is stable. -/
theorem mem {entry : Key × Value} (hleaf : Entries.IsLeaf entry.2) :
    Stable fun entries => entries.Distinct ∧ entry ∈ entries where
  table span key path _ _ _ h hread :=
    ⟨distinct.table span key path _ _ _ h.1 hread,
      Entries.Keeps.change? hleaf (.openTable? hleaf span key) _ path _ _ _ h.1 h.2 hread⟩
  item span key path _ _ _ h hread :=
    ⟨distinct.item span key path _ _ _ h.1 hread,
      Entries.Keeps.change? hleaf (.openItem? hleaf span key) _ path _ _ _ h.1 h.2 hread⟩
  entry inner key value path _ _ _ h hread :=
    ⟨distinct.entry inner key value path _ _ _ h.1 hread,
      Entries.Keeps.change? hleaf (.insert? hleaf inner key value) _ path _ _ _ h.1 h.2 hread⟩

end Stable

/-- **No key of a document** stands twice in its table. -/
theorem distinct_of_read? {text : String} {entries : Entries} (h : read? text = some entries) :
    entries.Distinct := by
  unfold read? at h
  obtain ⟨d, hd, rfl⟩ := Option.map_eq_some_iff.1 h
  exact Stable.distinct.of_readLines Entries.Distinct.nil hd

end SecretFill.Toml
