import SecretFill.Proofs.Keys

namespace SecretFill.Yaml

/-!
# The first entries of a mapping

A mapping is read entry by entry, so the entries that its first parts make are its first entries,
whatever stands behind these parts.

* `entriesWithin` — the entries that the first parts of a mapping make.
* `Rest.Shares`, `Concur` — what is left of a mapping that ends there, and of one that goes on; what is
  read from both.
* `entriesWithin_prefix` — they are the first entries of a text that begins with these parts.
-/

/-- The entries of the mapping that a text is. -/
def entries? (text : List Char) : Option (List (Value × Value)) :=
  match read text with
  | .ok (.mapping entries) => some entries
  | _ => none

theorem entries?_eq_some_iff {text : List Char} {entries : List (Value × Value)} :
    entries? text = some entries ↔ read text = .ok (.mapping entries) := by
  unfold entries?
  split
  · rename_i h
    simp [h]
  · rename_i h
    exact iff_of_false (by simp) (h entries)

/-- The document of a mapping that ends behind some parts. -/
def Document.ending (parts : List Part) : Document :=
  ⟨(parts ++ [Part.mappingEnd]).map fun part => (part, .origin), [], none⟩

/-- The entries that the first parts of a mapping make. -/
def entriesWithin (parts : List Part) : List (Value × Value) :=
  match (Document.ending parts).value with
  | .ok (.mapping entries) => entries
  | _ => []

/-- Whether a part is a reference. -/
def Part.isReference : Part → Bool
  | .reference _ => true
  | _ => false

/-! ### Reading on behind the parts -/

/-- The same parts are left, without a reference; then the one mapping ends, and the other may go on. -/
def Rest.Shares (s s' : Rest) : Prop :=
  ∃ parts behind : List Part, s.parts.map (·.1) = parts ++ [.mappingEnd] ∧
    s'.parts.map (·.1) = parts ++ behind ∧ ∀ part ∈ parts, part.isReference = false

/-- The first of the parts that are left is the same, or the one mapping ends. -/
theorem Rest.Shares.cases {s s' : Rest} (h : s.Shares s') :
    (∃ mark, s.parts = [(.mappingEnd, mark)]) ∨
    ∃ part mark mark' rest rest', s.parts = (part, mark) :: rest ∧ s'.parts = (part, mark') :: rest' ∧
      part.isReference = false ∧ ∀ jumps jumps', Rest.Shares ⟨rest, jumps⟩ ⟨rest', jumps'⟩ := by
  obtain ⟨parts, behind, hs, hs', hplain⟩ := h
  cases parts with
  | nil =>
    obtain ⟨⟨part, mark⟩, hparts, rfl⟩ := List.map_eq_singleton_iff.1 hs
    exact .inl ⟨mark, hparts⟩
  | cons part parts =>
    obtain ⟨⟨_, mark⟩, rest, hparts, rfl, hrest⟩ := List.map_eq_cons_iff.1 hs
    obtain ⟨⟨_, mark'⟩, rest', hparts', rfl, hrest'⟩ := List.map_eq_cons_iff.1 hs'
    obtain ⟨hpart, hplain⟩ := List.forall_mem_cons.1 hplain
    exact .inr ⟨_, mark, mark', rest, rest', hparts, hparts', hpart, fun _ _ =>
      ⟨parts, behind, hrest, hrest', hplain⟩⟩

/-- What is read of both is the same, unless the one mapping ended. -/
def Concur {α : Type} (r r' : Except Fault (α × Rest)) : Prop :=
  ∀ a s a' s', r = .ok (a, s) → r' = .ok (a', s') → s.parts = [] ∨ a = a' ∧ s.Shares s'

section Concur

variable {α β : Type} {r r' : Except Fault (α × Rest)}

theorem Concur.error {fault : Fault} : Concur (.error fault) r' := by
  rintro _ _ _ _ ⟨⟩

theorem Concur.ok {a : α} {s s' : Rest} (h : s.Shares s') : Concur (.ok (a, s)) (.ok (a, s')) := by
  rintro _ _ _ _ ⟨⟩ ⟨⟩
  exact .inr ⟨rfl, h⟩

/-- Reading on is reading the same, if nothing can be read where nothing is left. -/
theorem Concur.bind {f f' : α × Rest → Except Fault (β × Rest)} (h : Concur r r')
    (hend : ∀ a s, s.parts = [] → ∀ b t, f (a, s) = .ok (b, t) → t.parts = [])
    (hf : ∀ a s s', s.Shares s' → Concur (f (a, s)) (f' (a, s'))) : Concur (r >>= f) (r' >>= f') := by
  intro b t b' t' hb hb'
  obtain ⟨⟨a, s⟩, hr, hb⟩ := Json.exists_of_bind hb
  obtain ⟨⟨a', s'⟩, hr', hb'⟩ := Json.exists_of_bind hb'
  rcases h a s a' s' hr hr' with hs | ⟨rfl, hs⟩
  · exact .inl (hend a s hs b t hb)
  · exact hf a s s' hs b t b' t' hb hb'

end Concur

namespace Document

variable {d d' : Document} {s s' : Rest}

theorem items_nil {fuel depth : Nat} (h : s.parts = []) (items : List Value) (t : Rest) :
    d.items fuel depth s ≠ .ok (items, t) := by
  cases fuel <;> simp [Document.items, h]

theorem entries_nil {fuel depth : Nat} {mark : Mark} {before : List (Value × Value)}
    (h : s.parts = []) (entries : List (Value × Value)) (t : Rest) :
    d.entries fuel depth mark before s ≠ .ok (entries, t) := by
  cases fuel <;> simp [Document.entries, h]

theorem node_nil {fuel depth : Nat} {tagged : Bool} (h : s.parts = []) (value : Value) (t : Rest) :
    d.node fuel depth tagged s ≠ .ok (value, t) := by
  cases fuel <;> simp [Document.node, h]

/-- No node ends a mapping. -/
theorem node_mappingEnd {fuel depth : Nat} {tagged : Bool} {mark : Mark} {rest : List (Part × Mark)}
    (h : s.parts = (.mappingEnd, mark) :: rest) (value : Value) (t : Rest) :
    d.node fuel depth tagged s ≠ .ok (value, t) := by
  cases fuel <;> simp [Document.node, h]

/-- With so much fuel for the first document, and any for the other, both are read alike. -/
structure ReadsOn (d d' : Document) (fuel : Nat) : Prop where
  /-- A node. -/
  node : ∀ fuel' depth tagged s s', s.Shares s' →
    Concur (d.node fuel depth tagged s) (d'.node fuel' depth tagged s')
  /-- The items of a sequence. -/
  items : ∀ fuel' depth s s', s.Shares s' → Concur (d.items fuel depth s) (d'.items fuel' depth s')
  /-- The entries of a mapping. -/
  entries : ∀ fuel' depth mark mark' before s s', s.Shares s' →
    Concur (d.entries fuel depth mark before s) (d'.entries fuel' depth mark' before s')

namespace ReadsOn

variable {fuel : Nat}

theorem node_succ (h : ReadsOn d d' fuel) (fuel' depth : Nat) (tagged : Bool) (hs : s.Shares s') :
    Concur (d.node (fuel + 1) depth tagged s) (d'.node (fuel' + 1) depth tagged s') := by
  obtain ⟨parts, jumps⟩ := s
  obtain ⟨parts', jumps'⟩ := s'
  rcases hs.cases with ⟨mark, rfl⟩ | ⟨part, mark, mark', rest, rest', rfl, rfl, hpart, hleft⟩
  · exact .error
  · -- A node with a tag is read once more, without the tag.
    have htagged : ∀ name, Concur
        (d.node fuel depth true ⟨(part, mark) :: rest, jumps⟩ >>= fun out =>
          pure (Value.tagged name out.1, out.2))
        (d'.node fuel' depth true ⟨(part, mark') :: rest', jumps'⟩ >>= fun out =>
          pure (Value.tagged name out.1, out.2)) := by
      intro name
      refine (h.node _ _ _ _ _ hs).bind ?_ fun value s s' hs => .ok hs
      rintro value s hs _ _ ⟨⟩
      exact hs
    cases part with
    | reference number => cases hpart
    | scalar tag text plain =>
      simp only [Document.node]
      split
      · exact htagged _
      · split
        · exact .ok (hleft _ _)
        · exact .error
    | sequenceStart tag =>
      simp only [Document.node]
      split
      · exact htagged _
      · exact .error
      · refine (h.items _ _ _ _ (hleft _ _)).bind ?_ fun items s s' hs => .ok hs
        rintro items s hs _ _ ⟨⟩
        exact hs
    | mappingStart tag =>
      simp only [Document.node]
      split
      · exact htagged _
      · exact .error
      · refine (h.entries _ _ _ _ _ _ _ (hleft _ _)).bind ?_ fun entries s s' hs => .ok hs
        rintro entries s hs _ _ ⟨⟩
        exact hs
    | sequenceEnd | mappingEnd => exact .error

theorem items_succ (h : ReadsOn d d' fuel) (fuel' depth : Nat) (hs : s.Shares s') :
    Concur (d.items (fuel + 1) depth s) (d'.items (fuel' + 1) depth s') := by
  have hitem : Concur
      (d.node fuel depth false s >>= fun out =>
        d.items fuel depth out.2 >>= fun items => pure (out.1 :: items.1, items.2))
      (d'.node fuel' depth false s' >>= fun out =>
        d'.items fuel' depth out.2 >>= fun items => pure (out.1 :: items.1, items.2)) := by
    refine (h.node _ _ _ _ _ hs).bind (fun item s hs items t hitems => ?_) fun item s s' hs =>
      (h.items _ _ _ _ hs).bind ?_ fun items s s' hs => .ok hs
    · obtain ⟨⟨items', t'⟩, hread, -⟩ := Json.exists_of_bind hitems
      exact absurd hread (items_nil hs _ _)
    · rintro items s hs _ _ ⟨⟩
      exact hs
  rcases hs.cases with ⟨mark, hparts⟩ | ⟨part, mark, mark', rest, rest', hparts, hparts', -, hleft⟩
  · intro items t _ _ hread _
    rw [Document.items, hparts] at hread
    obtain ⟨out, hnode, -⟩ := Json.exists_of_bind hread
    exact absurd hnode (node_mappingEnd hparts _ _)
  · cases part with
    | sequenceEnd =>
      simp only [Document.items, hparts, hparts']
      exact .ok (hleft _ _)
    | _ =>
      simp only [Document.items, hparts, hparts']
      exact hitem

/-- Entries are read on behind the next one. -/
theorem entry (h : ReadsOn d d' fuel) (fuel' depth : Nat) (mark mark' : Mark)
    (before : List (Value × Value)) (hs : s.Shares s') :
    Concur
      (d.node fuel depth false s >>= fun key =>
        if before.any fun entry => entry.1.same key.1 then throw (.here mark)
        else d.node fuel depth false key.2 >>= fun value =>
          d.entries fuel depth mark (before ++ [(key.1, value.1)]) value.2)
      (d'.node fuel' depth false s' >>= fun key =>
        if before.any fun entry => entry.1.same key.1 then throw (.here mark')
        else d'.node fuel' depth false key.2 >>= fun value =>
          d'.entries fuel' depth mark' (before ++ [(key.1, value.1)]) value.2) := by
  refine (h.node _ _ _ _ _ hs).bind (fun key s hs entries t hread => ?_) fun key s s' hs => ?_
  · simp only at hread
    split at hread
    · cases hread
    · obtain ⟨⟨value, t'⟩, hvalue, -⟩ := Json.exists_of_bind hread
      exact absurd hvalue (node_nil hs _ _)
  · simp only
    split
    · exact .error
    · exact (h.node _ _ _ _ _ hs).bind
        (fun value s hs entries t hread => absurd hread (entries_nil hs _ _))
        fun value s s' hs => h.entries _ _ _ _ _ _ _ hs

theorem entries_succ (h : ReadsOn d d' fuel) (fuel' depth : Nat) (mark mark' : Mark)
    (before : List (Value × Value)) (hs : s.Shares s') :
    Concur (d.entries (fuel + 1) depth mark before s)
      (d'.entries (fuel' + 1) depth mark' before s') := by
  have hentry := h.entry fuel' depth mark mark' before hs
  rcases hs.cases with ⟨_, hparts⟩ | ⟨part, _, _, rest, rest', hparts, hparts', -, hleft⟩
  · -- The one mapping ends here.
    rintro entries t _ _ hread -
    rw [Document.entries, hparts] at hread
    cases hread
    exact .inl rfl
  · cases part with
    | mappingEnd =>
      simp only [Document.entries, hparts, hparts']
      exact .ok (hleft _ _)
    | _ =>
      simp only [Document.entries, hparts, hparts']
      exact hentry

end ReadsOn

/-- Both documents are read alike as far as their parts are the same. -/
theorem reads_on (fuel : Nat) : ReadsOn d d' fuel := by
  induction fuel with
  | zero =>
    refine ⟨?_, ?_, ?_⟩
    · intro fuel' depth tagged s s' _
      rw [Document.node]
      exact .error
    · intro fuel' depth s s' _
      rw [Document.items]
      exact .error
    · intro fuel' depth mark mark' before s s' _
      rw [Document.entries]
      exact .error
  | succ fuel ih =>
    refine ⟨?_, ?_, ?_⟩
    · rintro (_ | fuel') depth tagged s s' hs
      · rintro _ _ _ _ - h
        simp [Document.node] at h
      · exact ih.node_succ fuel' depth tagged hs
    · rintro (_ | fuel') depth s s' hs
      · rintro _ _ _ _ - h
        simp [Document.items] at h
      · exact ih.items_succ fuel' depth hs
    · rintro (_ | fuel') depth mark mark' before s s' hs
      · rintro _ _ _ _ - h
        simp [Document.entries] at h
      · exact ih.entries_succ fuel' depth mark mark' before hs

/-! ### The first entries -/

/-- Entries are put behind those that were read before. -/
theorem before_prefix {fuel depth : Nat} {mark : Mark} {before entries : List (Value × Value)} {t : Rest}
    (h : d.entries fuel depth mark before s = .ok (entries, t)) : before <+: entries := by
  induction fuel generalizing before s with
  | zero => simp [Document.entries] at h
  | succ fuel ih =>
    rcases entries_cases h with ⟨-, -, -, rfl⟩ | ⟨key, value, s₁, s₂, -, -, -, hrest⟩
    · exact List.prefix_refl _
    · exact (List.prefix_append _ _).trans (ih hrest)

/-- The entries of a mapping that ends are the first ones of a mapping that goes on. -/
theorem entries_prefix {fuel fuel' depth : Nat} {mark mark' : Mark}
    {before first entries : List (Value × Value)} {t t' : Rest} (hs : s.Shares s')
    (h : d.entries fuel depth mark before s = .ok (first, t))
    (h' : d'.entries fuel' depth mark' before s' = .ok (entries, t')) : first <+: entries := by
  induction fuel generalizing fuel' before s s' with
  | zero => simp [Document.entries] at h
  | succ fuel ih =>
    rcases entries_cases h with ⟨-, -, -, rfl⟩ | ⟨key, value, s₁, s₂, hkey, -, hvalue, hrest⟩
    · exact before_prefix h'
    · -- A key and a value were read, so the same ones were read of the other mapping.
      cases fuel' with
      | zero => simp [Document.entries] at h'
      | succ fuel' =>
        rcases entries_cases h' with
          ⟨mark', rest, hparts', -⟩ | ⟨key', value', s₁', s₂', hkey', -, hvalue', hrest'⟩
        · rcases hs.cases with ⟨_, hparts⟩ | ⟨part, _, _, _, _, hparts, hsame, -, -⟩
          · exact absurd hkey (node_mappingEnd hparts _ _)
          · obtain ⟨⟨rfl, -⟩, -⟩ := by simpa using hsame.symm.trans hparts'
            exact absurd hkey (node_mappingEnd hparts _ _)
        · have hread : ReadsOn d d' fuel := reads_on fuel
          rcases hread.node _ _ _ _ _ hs _ _ _ _ hkey hkey' with hnil | ⟨rfl, hs₁⟩
          · exact absurd hvalue (node_nil hnil _ _)
          · rcases hread.node _ _ _ _ _ hs₁ _ _ _ _ hvalue hvalue' with hnil | ⟨rfl, hs₂⟩
            · exact absurd hrest (entries_nil hnil _ _)
            · exact ih hs₂ hrest hrest'

/-- **The first entries** of a mapping that goes on are those of the mapping that ends. -/
theorem mapping_prefix {first entries : List (Value × Value)}
    (hs : Rest.Shares ⟨d.parts, 0⟩ ⟨d'.parts, 0⟩) (h : d.value = .ok (.mapping first))
    (h' : d'.value = .ok (.mapping entries)) : first <+: entries := by
  obtain ⟨fuel, t, hnode⟩ := node_of_value h
  obtain ⟨fuel', t', hnode'⟩ := node_of_value h'
  rcases hs.cases with ⟨mark, hparts⟩ | ⟨part, mark, mark', rest, rest', hparts, hparts', hpart, hleft⟩
  · exact absurd hnode (node_mappingEnd hparts _ _)
  · -- Both mappings begin with the same part, which is no reference.
    rcases mapping_cases hnode with
      ⟨number, _, _, _, _, hstart, -⟩ | ⟨tag, _, _, inner, _, hstart, hdepth, hentries⟩
    · obtain ⟨⟨rfl, -⟩, -⟩ := by simpa using hparts.symm.trans hstart
      cases hpart
    · rcases mapping_cases hnode' with
        ⟨number, _, _, _, _, hstart', -⟩ | ⟨tag', _, _, inner', _, hstart', hdepth', hentries'⟩
      · obtain ⟨⟨rfl, -⟩, -⟩ := by simpa using hparts'.symm.trans hstart'
        cases hpart
      · obtain rfl : inner = inner' := Nat.succ.inj (hdepth.symm.trans hdepth')
        obtain ⟨-, rfl⟩ := List.cons.inj (hparts.symm.trans hstart)
        obtain ⟨-, rfl⟩ := List.cons.inj (hparts'.symm.trans hstart')
        exact entries_prefix (hleft _ _) hentries hentries'

end Document

/-- The entries of a text begin with those that its first parts make. -/
theorem entriesWithin_prefix {text : List Char} {parts : List Part} {entries : List (Value × Value)}
    (hparts : parts <+: (Document.first text).parts.map (·.1))
    (hplain : ∀ part ∈ parts, part.isReference = false) (hread : read text = .ok (.mapping entries)) :
    entriesWithin parts <+: entries := by
  unfold entriesWithin
  split
  · rename_i first hfirst
    obtain ⟨behind, hbehind⟩ := hparts
    refine Document.mapping_prefix ⟨parts, behind, ?_, hbehind.symm, hplain⟩ hfirst hread
    simp [Document.ending, Function.comp_def]
  · exact List.nil_prefix

end SecretFill.Yaml
