import Mathlib.Data.List.TakeWhile
import SecretFill.Proofs.Moves

namespace SecretFill.Yaml

/-!
# Text around a text

A text stands in a frame: lines before it, and a text behind it.  A reader of a part of a line finds in
the frame what it finds in the text alone; one that comes to the end of the text may go on over what
stands behind it.

* `Frame`, `Frame.Fits` — a frame, and that the text behind it does not go on with the last word.
* `Frame.Reads` — a reader finds the same in the frame; `Frame.Trails` — it does up to the end.
* `reads_tag`, `trails_directive`, `trails_blockHeader` — the readers that do.
-/

/-- A space, a tab or a line break. -/
def isWhite (c : Char) : Bool := isGap c || isBreak c

/-- What stands around a text. -/
structure Frame where
  /-- The characters before it. -/
  index : Nat
  /-- The line breaks before it. -/
  line : Nat
  /-- The text behind it. -/
  behind : List Char

namespace Frame

variable (F : Frame)

/-- A position of the text, seen in the frame: the text starts at the start of a line. -/
def mark (m : Mark) : Mark := ⟨m.index + F.index, m.line + F.line, m.column⟩

/-- A cursor of the text, seen in the frame. -/
def cursor (c : Cursor) : Cursor := ⟨c.rest ++ F.behind, F.mark c.mark⟩

section Simp

variable {F} (m : Mark) (n : Nat)

@[simp] theorem mark_column : (F.mark m).column = m.column := rfl

@[simp] theorem mark_next : F.mark m.next = (F.mark m).next := by
  simp [mark, Mark.next, Nat.add_right_comm]

@[simp] theorem mark_skip : F.mark (m.skip n) = (F.mark m).skip n := by
  simp [mark, Mark.skip, Nat.add_right_comm]

@[simp] theorem mark_nextLine : F.mark (m.nextLine n) = (F.mark m).nextLine n := by
  simp [mark, Mark.nextLine, Nat.add_right_comm]

@[simp] theorem cursor_mark (c : Cursor) : (F.cursor c).mark = F.mark c.mark := rfl

@[simp] theorem cursor_rest (c : Cursor) : (F.cursor c).rest = c.rest ++ F.behind := rfl

end Simp

/-- The text behind does not go on with the last word of a text: there is none, or white space
    stands between the two. -/
inductive Fits (cs : List Char) : Prop where
  /-- Nothing stands behind the text. -/
  | alone (h : F.behind = [])
  /-- Nothing but white space stands behind it, and it does not end in white space itself. -/
  | white (h : ∀ d ∈ F.behind, isWhite d = true) (hlast : ∀ c, cs.getLast? = some c → isWhite c = false)
  /-- The text ends in a line feed. -/
  | line (h : cs.getLast? = some '\n')

variable {F} {c d : Char} {cs : List Char}

theorem Fits.tail (h : F.Fits (c :: cs)) : cs = [] ∨ F.Fits cs := by
  cases cs with
  | nil => exact .inl rfl
  | cons d cs =>
    rw [or_iff_right (List.cons_ne_nil _ _)]
    cases h with
    | alone h => exact .alone h
    | white h hlast => exact .white h hlast
    | line h => exact .line h

theorem Fits.next (h : F.Fits (c :: cs)) (hc : c ≠ '\n') : F.Fits cs := by
  rcases h.tail with rfl | htail
  · cases h with
    | alone h => exact .alone h
    | white h hlast => exact .white h fun c hc => nomatch hc
    | line h => exact absurd (Option.some.inj h) hc
  · exact htail

theorem Fits.suffix {cs' : List Char} (h : F.Fits cs) (hsuffix : cs' <:+ cs) (hne : cs' ≠ []) :
    F.Fits cs' := by
  obtain ⟨before, rfl⟩ := hsuffix
  have hlast : (before ++ cs').getLast? = cs'.getLast? := by
    rw [List.getLast?_append_of_ne_nil _ hne]
  cases h with
  | alone h => exact .alone h
  | white h h' => exact .white h (hlast ▸ h')
  | line h => exact .line (hlast ▸ h)

/-- A carriage return at the end of the text has no line feed behind it. -/
theorem Fits.not_crlf (h : F.Fits (c :: cs)) (hcs : ∀ cs', c = '\r' → cs = '\n' :: cs' → False) :
    ∀ cs', c = '\r' → cs ++ F.behind = '\n' :: cs' → False := by
  rintro cs' rfl heq
  cases cs with
  | cons d cs => exact hcs cs rfl (by rw [(List.cons.inj heq).1])
  | nil =>
    cases h with
    | alone h => simp [h] at heq
    | white h hlast => exact absurd (hlast _ rfl) (by decide)
    | line h => cases h

/-- Behind the last word stands nothing or white space. -/
theorem Fits.behind_white (h : F.Fits []) : ∀ d ∈ F.behind, isWhite d = true := by
  cases h with
  | alone h => simp [h]
  | white h hlast => exact h
  | line h => cases h

theorem Fits.atSeparation (h : F.Fits cs) : atSeparation (cs ++ F.behind) = atSeparation cs := by
  cases cs with
  | cons => rfl
  | nil =>
    cases hbehind : F.behind with
    | nil => rfl
    | cons d z => exact h.behind_white d (by simp [hbehind])

theorem Fits.head? (h : F.Fits cs) (hd : isWhite d = false) :
    (cs ++ F.behind).head? = some d ↔ cs.head? = some d := by
  cases cs with
  | cons => rfl
  | nil =>
    cases hbehind : F.behind with
    | nil => rfl
    | cons e z =>
      have he : e ≠ d := by
        rintro rfl
        rw [h.behind_white e (by simp [hbehind])] at hd
        cases hd
      simp [he]

/-- The rest of a word and what follows it. -/
theorem Fits.takeWhile (h : F.Fits cs) {p : Char → Bool} (hp : ∀ d, isWhite d = true → p d = false) :
    (cs ++ F.behind).takeWhile p = cs.takeWhile p ∧
      (cs ++ F.behind).dropWhile p = cs.dropWhile p ++ F.behind ∧ F.Fits (cs.dropWhile p) := by
  induction cs with
  | nil =>
    cases hbehind : F.behind with
    | nil => exact ⟨rfl, rfl, h⟩
    | cons e z =>
      -- What stands behind the text begins with white space, if it is not empty, and that ends the
      -- word.
      have he : p e = false := hp e (h.behind_white e (by simp [hbehind]))
      simp [he, h]
  | cons c cs ih =>
    cases hc : p c with
    | false => simp [hc, h]
    | true =>
      -- The text does not end within the word, since no line feed is part of one.
      have hne : c ≠ '\n' := by
        rintro rfl
        rw [hp _ (by decide)] at hc
        cases hc
      simpa [hc] using ih (h.next hne)

/-- Three equal characters and a separation. -/
def atTriple (d : Char) (cs : List Char) : Bool :=
  (cs.takeWhile (· == d)).length == 3 && Yaml.atSeparation (cs.dropWhile (· == d))

theorem atTriple_cons {d : Char} (hd : isWhite d = false) (rest : List Char) :
    atTriple d (d :: d :: d :: rest) = Yaml.atSeparation rest := by
  cases rest with
  | nil => simp [atTriple]
  | cons e rest =>
    by_cases he : e = d
    · have hsep : Yaml.atSeparation (d :: rest) = false := hd
      simp [atTriple, he, hsep]
    · simp [atTriple, he]

theorem exists_of_atTriple {d : Char} {cs : List Char} (h : atTriple d cs = true) :
    ∃ rest, cs = d :: d :: d :: rest := by
  simp only [atTriple, Bool.and_eq_true, beq_iff_eq] at h
  have htake : cs.takeWhile (· == d) = [d, d, d] :=
    List.eq_replicate_iff.2 ⟨h.1, fun e he => by simpa using List.mem_takeWhile_imp he⟩
  exact ⟨cs.dropWhile (· == d), by
    conv => lhs; rw [← List.takeWhile_append_dropWhile (p := (· == d)) (l := cs), htake]
    rfl⟩

theorem atDocumentStart_eq (cs : List Char) : atDocumentStart cs = atTriple '-' cs := by
  unfold atDocumentStart
  split
  · exact (atTriple_cons rfl _).symm
  · rename_i hne
    refine (Bool.eq_false_iff.2 fun h => ?_).symm
    obtain ⟨rest, heq⟩ := exists_of_atTriple h
    exact hne rest heq

theorem atDocumentEnd_eq (cs : List Char) : atDocumentEnd cs = atTriple '.' cs := by
  unfold atDocumentEnd
  split
  · exact (atTriple_cons rfl _).symm
  · rename_i hne
    refine (Bool.eq_false_iff.2 fun h => ?_).symm
    obtain ⟨rest, heq⟩ := exists_of_atTriple h
    exact hne rest heq

theorem Fits.atTriple (h : F.Fits cs) (hd : isWhite d = false) :
    atTriple d (cs ++ F.behind) = atTriple d cs := by
  have hne : ∀ e, isWhite e = true → (e == d) = false := by
    rintro e he
    simp only [beq_eq_false_iff_ne]
    rintro rfl
    rw [he] at hd
    cases hd
  obtain ⟨htake, hdrop, hfits⟩ := h.takeWhile hne
  rw [Frame.atTriple, htake, hdrop, hfits.atSeparation, Frame.atTriple]

theorem Fits.atDocumentStart (h : F.Fits cs) :
    atDocumentStart (cs ++ F.behind) = atDocumentStart cs := by
  rw [atDocumentStart_eq, atDocumentStart_eq, h.atTriple rfl]

theorem Fits.atDocumentEnd (h : F.Fits cs) :
    atDocumentEnd (cs ++ F.behind) = atDocumentEnd cs := by
  rw [atDocumentEnd_eq, atDocumentEnd_eq, h.atTriple rfl]

theorem Fits.atDocumentMarker (h : F.Fits cs) :
    atDocumentMarker (cs ++ F.behind) = atDocumentMarker cs := by
  rw [Yaml.atDocumentMarker, h.atDocumentStart, h.atDocumentEnd, Yaml.atDocumentMarker]

/-! ### Readers of a part of a line -/

/-- A reader of a part of a line finds in the frame what it finds in the text alone, or a fault if it
    finds one there. -/
def Reads {α : Type} (F : Frame) (c : Cursor) (x y : Except Fault (α × Cursor)) : Prop :=
  match x with
  | .error _ => ∃ fault, y = .error fault
  | .ok (a, c') => c.Moves c' ∧ F.Fits c'.rest ∧ y = .ok (a, F.cursor c')

section Reads

variable {α β : Type} {c c' : Cursor} {x y : Except Fault (α × Cursor)}

theorem Reads.error {fault fault' : Fault} :
    F.Reads c (.error fault : Except Fault (α × Cursor)) (.error fault') := ⟨_, rfl⟩

theorem Reads.ok {a : α} (h : c.Moves c') (hfits : F.Fits c'.rest) :
    F.Reads c (.ok (a, c')) (.ok (a, F.cursor c')) := ⟨h, hfits, rfl⟩

theorem Reads.moves (h : F.Reads c x y) {a : α} (hx : x = .ok (a, c')) : c.Moves c' := by
  subst hx
  exact h.1

/-- A part of a line that begins behind another one. -/
theorem Reads.after (h : c.Moves c') (hreads : F.Reads c' x y) : F.Reads c x y := by
  cases x with
  | error => exact hreads
  | ok out => exact ⟨h.trans hreads.1, hreads.2⟩

theorem Reads.bind (h : F.Reads c x y) {f g : α × Cursor → Except Fault (β × Cursor)}
    (hf : ∀ a c', F.Fits c'.rest → F.Reads c' (f (a, c')) (g (a, F.cursor c'))) :
    F.Reads c (x >>= f) (y >>= g) := by
  cases x with
  | error =>
    obtain ⟨fault, rfl⟩ := h
    exact .error
  | ok out =>
    obtain ⟨a, c'⟩ := out
    obtain ⟨hmoves, hfits, rfl⟩ := h
    exact .after hmoves (hf a c' hfits)

/-- A fault that the frame does not change. -/
theorem Reads.unless {p q : Prop} [Decidable p] [Decidable q] (hpq : q ↔ p) {fault fault' : Fault}
    (h : ¬ p → F.Reads c x y) :
    F.Reads c (if p then .error fault else x) (if q then .error fault' else y) := by
  by_cases hp : p
  · rw [if_pos hp, if_pos (hpq.2 hp)]
    exact .error
  · rw [if_neg hp, if_neg (hp ∘ hpq.1)]
    exact h hp

end Reads

section Line

variable {c : Cursor}

theorem cursor_skip {n : Nat} (h : n ≤ c.rest.length) :
    (F.cursor c).skip n = F.cursor (c.skip n) := by
  simp [Cursor.skip, cursor, List.drop_append_of_le_length h]

theorem cursor_skipWhile (h : F.Fits c.rest) {p : Char → Bool}
    (hp : ∀ d, isWhite d = true → p d = false) :
    (F.cursor c).skipWhile p = F.cursor (c.skipWhile p) := by
  obtain ⟨htake, hdrop, -⟩ := h.takeWhile hp
  simp [Cursor.skipWhile, cursor, htake, hdrop]

theorem Fits.skipWhile (h : F.Fits c.rest) {p : Char → Bool}
    (hp : ∀ d, isWhite d = true → p d = false) : F.Fits (c.skipWhile p).rest :=
  (h.takeWhile hp).2.2

theorem cursor_head? (h : F.Fits c.rest) {d : Char} (hd : isWhite d = false) :
    (F.cursor c).rest.head? = some d ↔ c.rest.head? = some d := h.head? hd

/-- A character that is no line break is passed alike. -/
theorem cursor_skip_one (h : F.Fits c.rest) {d : Char} (hd : c.rest.head? = some d)
    (hne : d ≠ '\n') :
    (F.cursor c).skip 1 = F.cursor (c.skip 1) ∧ F.Fits (c.skip 1).rest ∧ c.Moves (c.skip 1) := by
  obtain ⟨rest, mark⟩ := c
  obtain ⟨rest, rfl⟩ : ∃ cs, rest = d :: cs := by
    cases rest with
    | nil => cases hd
    | cons e rest => exact ⟨rest, by rw [Option.some.inj hd]⟩
  exact ⟨cursor_skip (by simp), h.next hne, .next (.refl _)⟩

/-- A text that fits ends in a gap only if nothing stands behind it. -/
theorem Fits.dropWhile_isGap (h : F.Fits cs) (hcs : cs ≠ []) :
    F.behind = [] ∨ cs.dropWhile isGap ≠ [] := by
  have hgap : ∀ c, cs.getLast? = some c → isGap c = false → cs.dropWhile isGap ≠ [] := by
    intro c hc hgap hdrop
    have hall := List.dropWhile_eq_nil_iff.1 hdrop c (List.mem_of_getLast? hc)
    rw [hgap] at hall
    cases hall
  cases h with
  | alone h => exact .inl h
  | white h hlast =>
    have hc := List.getLast?_eq_some_getLast hcs
    have hwhite := hlast _ hc
    exact .inr (hgap _ hc (Bool.or_eq_false_iff.1 hwhite).1)
  | line h => exact .inr (hgap _ h rfl)

/-- The gaps in a line are skipped alike, unless the text ends here. -/
theorem cursor_skipGaps (h : F.Fits c.rest) (hc : c.rest ≠ []) :
    F.Fits (c.skipWhile isGap).rest ∧
      (F.cursor c).skipWhile isGap = F.cursor (c.skipWhile isGap) := by
  rcases h.dropWhile_isGap hc with hbehind | hdrop
  · exact ⟨.alone hbehind, by simp [Cursor.skipWhile, cursor, hbehind]⟩
  · refine ⟨h.suffix (List.dropWhile_suffix _) hdrop, ?_⟩
    have htake : (c.rest ++ F.behind).takeWhile isGap = c.rest.takeWhile isGap := by
      rw [List.takeWhile_append, if_neg]
      intro hlength
      refine hdrop ?_
      have hsum := congrArg List.length (List.takeWhile_append_dropWhile (p := isGap) (l := c.rest))
      rw [List.length_append, hlength] at hsum
      exact List.eq_nil_of_length_eq_zero (by omega)
    simp [Cursor.skipWhile, cursor, htake, List.dropWhile_append, hdrop]

end Line

end Frame

open Cursor SecretFill.Yaml.Frame

variable {F : Frame} {c : Cursor}

/-! ### Directives and tags -/

theorem isDigit_of_isWhite {d : Char} (hd : isWhite d = true) : d.isDigit = false := by
  simp only [isWhite, isGap, isBreak, Bool.or_eq_true, beq_iff_eq] at hd
  rcases hd with (rfl | rfl) | ((((rfl | rfl) | rfl) | rfl) | rfl) <;> rfl

theorem isName_of_isWhite {d : Char} (hd : isWhite d = true) : isName d = false := by
  simp only [isWhite, isGap, isBreak, Bool.or_eq_true, beq_iff_eq] at hd
  rcases hd with (rfl | rfl) | ((((rfl | rfl) | rfl) | rfl) | rfl) <;> rfl

theorem hexValue?_of_isWhite {d : Char} (hd : isWhite d = true) : hexValue? d = none := by
  simp only [isWhite, isGap, isBreak, Bool.or_eq_true, beq_iff_eq] at hd
  rcases hd with (rfl | rfl) | ((((rfl | rfl) | rfl) | rfl) | rfl) <;> rfl

theorem isTagCharacter_of_isWhite {verbatim : Bool} {d : Char} (hd : isWhite d = true) :
    isTagCharacter verbatim d = false := by
  simp only [isWhite, isGap, isBreak, Bool.or_eq_true, beq_iff_eq] at hd
  cases verbatim <;>
    rcases hd with (rfl | rfl) | ((((rfl | rfl) | rfl) | rfl) | rfl) <;> decide

theorem reads_versionNumber (h : F.Fits c.rest) :
    F.Reads c (versionNumber c) (versionNumber (F.cursor c)) := by
  have hdigits := (h.takeWhile fun d => isDigit_of_isWhite).1
  simp only [versionNumber, cursor_rest, hdigits]
  split
  · exact .error
  · split
    · exact .error
    · rw [cursor_skip (List.takeWhile_sublist _).length_le, c.skip_takeWhile]
      exact .ok (moves_skipWhile _) (h.skipWhile fun d => isDigit_of_isWhite)

theorem versionNumber_of_white (h : ∀ d ∈ c.rest, isWhite d = true) :
    ∃ fault, versionNumber c = .error fault := by
  obtain ⟨rest, mark⟩ := c
  have hdigits : rest.takeWhile Char.isDigit = [] := by
    cases rest with
    | nil => rfl
    | cons d rest => simp [isDigit_of_isWhite (h d List.mem_cons_self)]
  exact ⟨_, by simp only [versionNumber, hdigits]; rfl⟩

theorem white_skipWhile {p : Char → Bool} (h : ∀ d ∈ c.rest, isWhite d = true) :
    ∀ d ∈ (c.skipWhile p).rest, isWhite d = true :=
  fun d hd => h d ((List.dropWhile_sublist p).subset hd)

theorem white_cursor (h : F.Fits c.rest) (hc : c.rest = []) :
    ∀ d ∈ (F.cursor c).rest, isWhite d = true := by
  rw [hc] at h
  simpa [hc] using h.behind_white

theorem versionDirective_eq (c : Cursor) :
    versionDirective c = versionNumber (c.skipWhile isGap) >>= fun (major, c) =>
      if c.rest.head? ≠ some '.' then .error (.here c.mark)
      else versionNumber (c.skip 1) >>= fun (minor, c) =>
        .ok (.versionDirective major minor, c) := rfl

theorem reads_versionDirective (h : F.Fits c.rest) :
    F.Reads c (versionDirective c) (versionDirective (F.cursor c)) := by
  rw [versionDirective_eq, versionDirective_eq]
  by_cases hc : c.rest = []
  · -- Neither the end of the text nor white space behind it is a number.
    obtain ⟨fault, hfault⟩ := versionNumber_of_white (c := c.skipWhile isGap)
      (white_skipWhile (by simp [hc]))
    obtain ⟨fault', hfault'⟩ := versionNumber_of_white (c := (F.cursor c).skipWhile isGap)
      (white_skipWhile (white_cursor h hc))
    rw [hfault, hfault']
    exact .error
  · obtain ⟨hfits, hskip⟩ := cursor_skipGaps h hc
    rw [hskip]
    refine .after (moves_skipWhile _) (.bind (reads_versionNumber hfits) fun major c hfits => ?_)
    refine .unless (not_congr (hfits.head? rfl)) fun hpoint => ?_
    obtain ⟨hskip, hfits, hmoves⟩ := cursor_skip_one hfits (not_not.1 hpoint) (by decide)
    rw [hskip]
    refine .after hmoves (.bind (reads_versionNumber hfits) fun minor c hfits => ?_)
    exact .ok (.refl _) hfits

section Octets

variable {verbatim : Bool} {read : List UInt8} {due : Nat} {cs : List Char} {m : Mark}

theorem octetsFrom_cons {d : Char} (hd : d ≠ '%') :
    octetsFrom verbatim read due (d :: cs) m
      = if 0 < due then .error (.here m)
        else if isTagCharacter verbatim d then octetsFrom verbatim (octet d :: read) 0 cs m.next
        else .ok (read.reverse, ⟨d :: cs, m⟩) := by
  rw [octetsFrom]
  · simp [hd]
  · exact fun _ _ _ h _ => absurd h hd

/-- A percent sign has two digits behind it. -/
theorem octetsFrom_percent
    (h : ∀ a b rest, cs = a :: b :: rest → hexValue? a = none ∨ hexValue? b = none) :
    ∃ fault, octetsFrom verbatim read due ('%' :: cs) m = .error fault := by
  rcases cs with _ | ⟨a, _ | ⟨b, cs⟩⟩
  · exact ⟨.here m, by simp [octetsFrom]⟩
  · exact ⟨.here m, by simp [octetsFrom]⟩
  · refine ⟨.here m, ?_⟩
    rw [octetsFrom]
    rcases h a b cs rfl with ha | hb
    · simp [ha]
    · cases hexValue? a <;> simp [hb]

/-- A row of octets ends at white space. -/
theorem octetsFrom_white (h : ∀ d ∈ cs, isWhite d = true) :
    octetsFrom verbatim read due cs m
      = if 0 < due then .error (.here m) else .ok (read.reverse, ⟨cs, m⟩) := by
  cases cs with
  | nil => rfl
  | cons d cs =>
    have hd := h d List.mem_cons_self
    have hne : d ≠ '%' := by
      rintro rfl
      cases hd
    rw [octetsFrom_cons hne, isTagCharacter_of_isWhite hd]
    rfl

/-- So it has in the frame: white space behind the text is no digit. -/
theorem octetsFrom_short (h : F.Fits ('%' :: cs))
    (hshort : ∀ a b rest, cs = a :: b :: rest → False) :
    ∃ fault, octetsFrom verbatim read due ('%' :: (cs ++ F.behind)) (F.mark m) = .error fault := by
  have hcs : F.Fits cs := h.next (by decide)
  refine octetsFrom_percent fun a b rest heq => ?_
  rcases cs with _ | ⟨a', _ | ⟨b', cs⟩⟩
  · have ha := hcs.behind_white a (by simp [show F.behind = _ from heq])
    exact .inl (hexValue?_of_isWhite ha)
  · obtain ⟨rfl, hbehind⟩ : a' = a ∧ F.behind = b :: rest := by simpa using heq
    by_cases ha' : a' = '\n'
    · exact .inl (by rw [ha']; rfl)
    · have hb := (hcs.next ha').behind_white b (by simp [hbehind])
      exact .inr (hexValue?_of_isWhite hb)
  · exact (hshort a' b' cs rfl).elim

theorem ne_newline_of_hexValue? {d : Char} {value : Nat} (h : hexValue? d = some value) :
    d ≠ '\n' := by
  rintro rfl
  cases h

theorem reads_octetsFrom (h : F.Fits cs) :
    F.Reads ⟨cs, m⟩ (octetsFrom verbatim read due cs m)
      (octetsFrom verbatim read due (cs ++ F.behind) (F.mark m)) := by
  fun_induction octetsFrom verbatim read due cs m with
  -- A percent sign with two digits behind it stands for an octet that is due or begins a character.
  | case1 read due a b rest m high low hb ha value due' hdue =>
    simp only [List.cons_append, octetsFrom, ha, hb]
    rw [if_pos hdue]
    exact .error
  | case2 read due a b rest m high low hb ha value due' hdue ih =>
    simp only [List.cons_append, octetsFrom, ha, hb]
    rw [if_neg hdue, ← mark_skip]
    have hmoves : Moves ⟨'%' :: a :: b :: rest, m⟩ ⟨rest, m.skip 3⟩ := moves_skip (n := 3) (by simp)
    have hfits := ((h.next (by decide)).next (ne_newline_of_hexValue? ha)).next
      (ne_newline_of_hexValue? hb)
    exact .after hmoves (ih hfits)
  -- Without two digits behind it a percent sign is at fault.
  | case3 read due a b rest m hhex =>
    obtain ⟨fault, hfault⟩ : ∃ fault, octetsFrom verbatim read due
        ('%' :: a :: b :: (rest ++ F.behind)) (F.mark m) = .error fault :=
      octetsFrom_percent fun a' b' rest' heq => by
        obtain ⟨rfl, rfl, -⟩ := by simpa using heq
        cases ha : hexValue? a with
        | none => exact .inl rfl
        | some high =>
          cases hb : hexValue? b with
          | none => exact .inr rfl
          | some low => exact (hhex high low ha hb).elim
    simp only [List.cons_append, hfault]
    exact .error
  | case4 read due d rest m hshort hd =>
    by_cases hpercent : d = '%'
    · subst hpercent
      obtain ⟨fault, hfault⟩ : ∃ fault, octetsFrom verbatim read due
          ('%' :: (rest ++ F.behind)) (F.mark m) = .error fault :=
        octetsFrom_short h fun a b rest' => hshort a b rest' rfl
      simp only [List.cons_append, hfault]
      exact .error
    · rw [List.cons_append, octetsFrom_cons hpercent, if_pos (hd.resolve_right hpercent)]
      exact .error
  -- Any other character of a tag is read, unless an octet is due; one that is of no tag ends the
  -- row.
  | case5 read due d rest m hshort hd htag ih =>
    rw [not_or] at hd
    rw [List.cons_append, octetsFrom_cons hd.2, if_neg hd.1, if_pos htag, ← mark_next]
    have hne : d ≠ '\n' := by
      rintro rfl
      rw [isTagCharacter_of_isWhite (by decide)] at htag
      cases htag
    exact .after (.next (.refl _)) (ih (h.next hne))
  | case6 read due d rest m hshort hd htag =>
    rw [not_or] at hd
    rw [List.cons_append, octetsFrom_cons hd.2, if_neg hd.1, if_neg htag]
    exact .ok (.refl _) h
  -- At the end of the text the row ends in the frame too, since white space is of no tag.
  | case7 read due m hdue =>
    rw [List.nil_append, octetsFrom_white h.behind_white, if_pos hdue]
    exact .error
  | case8 read due m hdue =>
    rw [List.nil_append, octetsFrom_white h.behind_white, if_neg hdue]
    exact .ok (.refl _) h

end Octets

theorem tagOctets_eq (verbatim short : Bool) (before : List UInt8) (c : Cursor) :
    tagOctets verbatim short before c
      = octetsFrom verbatim [] 0 c.rest c.mark >>= fun (read, after) =>
        if read.isEmpty && !short then .error (.here after.mark)
        else .ok ((before ++ read).takeWhile (· != 0), after) := rfl

theorem reads_tagOctets {verbatim short : Bool} {before : List UInt8} (h : F.Fits c.rest) :
    F.Reads c (tagOctets verbatim short before c) (tagOctets verbatim short before (F.cursor c)) := by
  rw [tagOctets_eq, tagOctets_eq]
  refine .bind (reads_octetsFrom h) fun read c hfits => ?_
  exact .unless Iff.rfl fun _ => .ok (.refl _) hfits

/-- White space gives no octets. -/
theorem tagOctets_of_white (h : ∀ d ∈ c.rest, isWhite d = true) {verbatim : Bool}
    {before : List UInt8} : ∃ fault, tagOctets verbatim false before c = .error fault := by
  refine ⟨.here c.mark, ?_⟩
  unfold tagOctets
  rw [octetsFrom_white h]
  rfl

theorem tagName_eq (c : Cursor) : tagName c =
    if (c.skipWhile isName).rest.head? = some '!' then
      (c.rest.takeWhile isName, true, (c.skipWhile isName).skip 1)
    else (c.rest.takeWhile isName, false, c.skipWhile isName) := by
  simp only [tagName]
  cases (c.skipWhile isName).rest with
  | nil => rfl
  | cons d cs =>
    by_cases hd : d = '!'
    · subst hd
      rfl
    · rw [if_neg (by simpa using hd)]
      split
      · rename_i heq
        exact (hd (List.cons.inj heq).1).elim
      · rfl

theorem tagName_cursor (h : F.Fits c.rest) : ∃ name closed c', tagName c = (name, closed, c') ∧
    tagName (F.cursor c) = (name, closed, F.cursor c') ∧ c.Moves c' ∧ F.Fits c'.rest := by
  have hfits := h.skipWhile fun d => isName_of_isWhite
  have hname := (h.takeWhile fun d => isName_of_isWhite).1
  have hskip := cursor_skipWhile h fun d => isName_of_isWhite
  have hmoves : c.Moves (c.skipWhile isName) := moves_skipWhile _
  rw [tagName_eq, tagName_eq, cursor_rest, hname, hskip]
  by_cases hclosed : (c.skipWhile isName).rest.head? = some '!'
  · obtain ⟨hskip', hfits', hmoves'⟩ := cursor_skip_one hfits hclosed (by decide)
    rw [if_pos hclosed, if_pos ((cursor_head? hfits rfl).2 hclosed), hskip']
    exact ⟨_, _, _, rfl, rfl, hmoves.trans hmoves', hfits'⟩
  · rw [if_neg hclosed, if_neg (hclosed ∘ (cursor_head? hfits rfl).1)]
    exact ⟨_, _, _, rfl, rfl, hmoves, hfits⟩

theorem tagDirective_eq (c : Cursor) : tagDirective c =
    let c := c.skipWhile isGap
    if c.rest.head? ≠ some '!' then .error (.here c.mark)
    else
      let (name, closed, c) := tagName (c.skip 1)
      if !closed && !name.isEmpty then .error (.here c.mark)
      else if !(c.rest.head?.any isGap) then .error (.here c.mark)
      else tagOctets true false [] (c.skipWhile isGap) >>= fun (expansion, c) =>
        if !atSeparation c.rest then .error (.here c.mark)
        else .ok (.tagDirective ('!' :: (name ++ if closed then ['!'] else [])) expansion, c) := rfl

theorem head?_of_white {d : Char} (h : ∀ d ∈ c.rest, isWhite d = true) (hd : isWhite d = false) :
    c.rest.head? ≠ some d := by
  intro hhead
  rw [h d (List.mem_of_head? hhead)] at hd
  cases hd

theorem reads_tagDirective (h : F.Fits c.rest) :
    F.Reads c (tagDirective c) (tagDirective (F.cursor c)) := by
  rw [tagDirective_eq, tagDirective_eq]
  by_cases hc : c.rest = []
  · -- Neither the end of the text nor white space behind it is a handle.
    rw [if_pos (head?_of_white (white_skipWhile (by simp [hc])) rfl),
      if_pos (head?_of_white (white_skipWhile (white_cursor h hc)) rfl)]
    exact .error
  · obtain ⟨hfits, hskip⟩ := cursor_skipGaps h hc
    rw [hskip]
    refine .after (moves_skipWhile (c := c) isGap) (.unless (not_congr (cursor_head? hfits rfl)) fun hmark => ?_)
    obtain ⟨hskip, hfits, hmoves⟩ := cursor_skip_one hfits (not_not.1 hmark) (by decide)
    obtain ⟨name, closed, c', hname, hname', hmoves', hfits'⟩ := tagName_cursor hfits
    rw [hskip, hname, hname']
    refine .after (hmoves.trans hmoves') (.unless Iff.rfl fun _ => ?_)
    by_cases hc' : c'.rest = []
    · -- Without a gap no expansion follows, nor does one follow in white space.
      rw [if_pos (by simp [hc'])]
      obtain ⟨fault, hfault⟩ : ∃ fault,
          tagOctets true false [] ((F.cursor c').skipWhile isGap) = .error fault :=
        tagOctets_of_white (white_skipWhile (white_cursor hfits' hc'))
      rw [hfault]
      split
      · exact .error
      · exact .error
    · obtain ⟨hfits, hskip⟩ := cursor_skipGaps hfits' hc'
      have hhead : (F.cursor c').rest.head? = c'.rest.head? := by
        obtain ⟨d, cs, hcons⟩ := List.exists_cons_of_ne_nil hc'
        simp [hcons]
      rw [hskip, hhead]
      refine .unless Iff.rfl fun _ => .after (moves_skipWhile _) (.bind (reads_tagOctets hfits) ?_)
      intro expansion c hfits
      exact .unless (by rw [cursor_rest, hfits.atSeparation]) fun _ => .ok (.refl _) hfits

theorem tagParts_verbatim {cs : List Char} (h : c.rest = '!' :: '<' :: cs) :
    tagParts c = tagOctets true false [] (c.skip 2) >>= fun (suffix, c) =>
      if c.rest.head? ≠ some '>' then .error (.here c.mark)
      else .ok (([], suffix), c.skip 1) := by
  simp only [tagParts, h, ite_not]
  rfl

theorem tagParts_named (h : ∀ cs, c.rest ≠ '!' :: '<' :: cs) :
    tagParts c =
      let (name, closed, c) := tagName (c.skip 1)
      if closed then
        tagOctets false false [] c >>= fun (suffix, c) => .ok (('!' :: (name ++ ['!']), suffix), c)
      else
        tagOctets false true (octets name) c >>= fun (suffix, c) =>
          if suffix.isEmpty then .ok (([], [octet '!']), c) else .ok ((['!'], suffix), c) := by
  unfold tagParts
  split
  · rename_i heq
    exact (h _ heq).elim
  · rfl

theorem reads_tagParts (h : F.Fits c.rest) (hhead : c.rest.head? = some '!') :
    F.Reads c (tagParts c) (tagParts (F.cursor c)) := by
  obtain ⟨hskip, hfits, hmoves⟩ := cursor_skip_one h hhead (by decide)
  obtain ⟨rest, mark⟩ := c
  obtain ⟨rest, rfl⟩ := List.head?_eq_some_iff.1 hhead
  -- A tag in angle brackets has no handle; the handle of any other one ends at the next mark.
  by_cases hverbatim : ∃ cs, rest = '<' :: cs
  · obtain ⟨cs, rfl⟩ := hverbatim
    rw [tagParts_verbatim rfl, tagParts_verbatim (c := F.cursor _) rfl, cursor_skip (by simp)]
    have hfits : F.Fits cs := hfits.next (by decide)
    refine .after (moves_skip (n := 2) (by simp)) (.bind (reads_tagOctets hfits) ?_)
    intro suffix c hfits
    refine .unless (not_congr (cursor_head? hfits rfl)) fun hclose => ?_
    obtain ⟨hskip, hfits, hmoves⟩ := cursor_skip_one hfits (not_not.1 hclose) (by decide)
    rw [hskip]
    exact .ok hmoves hfits
  · have hnamed : ∀ cs, rest ++ F.behind ≠ '<' :: cs := by
      intro cs heq
      have hhead : rest.head? = some '<' := (cursor_head? hfits rfl).1 (by simp [Cursor.skip, heq])
      exact hverbatim (List.head?_eq_some_iff.1 hhead)
    rw [tagParts_named fun cs heq => hverbatim ⟨cs, (List.cons.inj heq).2⟩,
      tagParts_named fun cs heq => hnamed cs (List.cons.inj heq).2, hskip]
    obtain ⟨name, closed, c', hname, hname', hmoves', hfits'⟩ := tagName_cursor hfits
    rw [hname, hname']
    refine .after (hmoves.trans hmoves') ?_
    cases closed with
    | true => exact .bind (reads_tagOctets hfits') fun suffix c hfits => .ok (.refl _) hfits
    | false =>
      refine .bind (reads_tagOctets hfits') fun suffix c hfits => ?_
      cases hempty : suffix.isEmpty with
      | true =>
        simp only [hempty]
        exact .ok (.refl _) hfits
      | false =>
        simp only [hempty]
        exact .ok (.refl _) hfits

theorem tag_eq (flow : Bool) (c : Cursor) : tag flow c = tagParts c >>= fun (parts, c) =>
    if ¬ ((flow && c.rest.head? = some ',') || atSeparation c.rest) then .error (.here c.mark)
    else .ok (parts, c) := by
  simp only [tag, ite_not]
  rfl

theorem reads_tag {flow : Bool} (h : F.Fits c.rest) (hhead : c.rest.head? = some '!') :
    F.Reads c (tag flow c) (tag flow (F.cursor c)) := by
  rw [tag_eq, tag_eq]
  refine .bind (reads_tagParts h hhead) fun parts c hfits => ?_
  have hcomma : (F.cursor c).rest.head? = some ',' ↔ c.rest.head? = some ',' := hfits.head? rfl
  refine .unless ?_ fun _ => .ok (.refl _) hfits
  rw [decide_eq_decide.2 hcomma, cursor_rest, hfits.atSeparation]

/-! ### The ends of lines -/

/-- A reader that may come to the end of the text: if it does, it may move on over what stands
    behind the text, or find a fault there. -/
def Frame.Trails {α : Type} (F : Frame) (c : Cursor) (x y : Except Fault (α × Cursor)) : Prop :=
  match x with
  | .error _ => ∃ fault, y = .error fault
  | .ok (a, c') => c.Moves c' ∧ (y = .ok (a, F.cursor c') ∨
      c'.rest = [] ∧ ∀ a' c'', y = .ok (a', c'') → a' = a ∧ (F.cursor c').Moves c'')

section Trails

variable {α β : Type} {c' : Cursor} {x y : Except Fault (α × Cursor)}

theorem Frame.Trails.after (h : c.Moves c') (htrails : F.Trails c' x y) : F.Trails c x y := by
  cases x with
  | error => exact htrails
  | ok out => exact ⟨h.trans htrails.1, htrails.2⟩

theorem Frame.Reads.trails (h : F.Reads c x y) {f g : α × Cursor → Except Fault (β × Cursor)}
    (hf : ∀ a c', F.Fits c'.rest → F.Trails c' (f (a, c')) (g (a, F.cursor c'))) :
    F.Trails c (x >>= f) (y >>= g) := by
  cases x with
  | error =>
    obtain ⟨fault, rfl⟩ := h
    exact ⟨fault, rfl⟩
  | ok out =>
    obtain ⟨a, c'⟩ := out
    obtain ⟨hmoves, hfits, rfl⟩ := h
    exact .after hmoves (hf a c' hfits)

end Trails

/-- What is skipped before the end of the text is skipped in the frame, and so may be some of the
    text behind. -/
theorem cursor_skipWhile_or (c : Cursor) (p : Char → Bool) :
    (F.cursor c).skipWhile p = F.cursor (c.skipWhile p) ∨
    (c.skipWhile p).rest = [] ∧
      (F.cursor c).skipWhile p = (F.cursor (c.skipWhile p)).skipWhile p := by
  obtain ⟨rest, mark⟩ := c
  -- The induction is on what is left of the text; where it ends the text behind takes over.
  induction rest generalizing mark with
  | nil => exact .inr ⟨rfl, rfl⟩
  | cons d rest ih =>
    cases hd : p d with
    | false => exact .inl (by simp [skipWhile, cursor, hd])
    | true =>
      have hstep : ∀ cs m, skipWhile p ⟨d :: cs, m⟩ = skipWhile p ⟨cs, m.next⟩ := by
        intro cs m
        simp [skipWhile, hd, Mark.skip, Mark.next, Nat.add_comm, Nat.add_left_comm]
      have hframe : F.cursor ⟨d :: rest, mark⟩ = ⟨d :: (rest ++ F.behind), F.mark mark⟩ := rfl
      have hrest : (⟨rest ++ F.behind, (F.mark mark).next⟩ : Cursor) = F.cursor ⟨rest, mark.next⟩ := by
        simp [cursor]
      rw [hframe, hstep, hstep, hrest]
      exact ih mark.next

theorem cursor_skipBreak (h : F.Fits c.rest) (hc : c.rest ≠ []) :
    (F.cursor c).skipBreak = F.cursor c.skipBreak := by
  obtain ⟨rest, mark⟩ := c
  obtain ⟨d, cs, rfl⟩ := List.exists_cons_of_ne_nil hc
  by_cases hcrlf : d = '\r' ∧ ∃ cs', cs = '\n' :: cs'
  · obtain ⟨rfl, cs, rfl⟩ := hcrlf
    simp [skipBreak, cursor]
  · have hcs : ∀ cs', d = '\r' → cs = '\n' :: cs' → False :=
      fun cs' hd hcs => hcrlf ⟨hd, cs', hcs⟩
    -- Behind any other character the next one does not count.
    have hskip : ∀ z m, (∀ cs', d = '\r' → z = '\n' :: cs' → False) →
        skipBreak ⟨d :: z, m⟩ = if isBreak d then ⟨z, m.nextLine 1⟩ else ⟨d :: z, m⟩ := by
      intro z m hz
      unfold skipBreak
      split
      · rename_i heq
        obtain ⟨rfl, rfl⟩ := List.cons.inj heq
        exact (hz _ rfl rfl).elim
      · rename_i heq
        obtain ⟨rfl, rfl⟩ := List.cons.inj heq
        rfl
      · rename_i heq
        cases heq
    have hframe : F.cursor ⟨d :: cs, mark⟩ = ⟨d :: (cs ++ F.behind), F.mark mark⟩ := rfl
    rw [hframe, hskip _ _ hcs, hskip _ _ (h.not_crlf hcs)]
    split
    · simp [cursor]
    · rfl

theorem skipComment_cursor (h : F.Fits c.rest) :
    ((F.cursor c).skipComment = F.cursor c.skipComment ∧ F.Fits c.skipComment.rest) ∨
    c.skipComment.rest = [] ∧ (F.cursor c.skipComment).Moves (F.cursor c).skipComment := by
  have hhead : (F.cursor c).rest.head? = some '#' ↔ c.rest.head? = some '#' := h.head? rfl
  unfold skipComment
  rw [ite_congr (propext hhead) (fun _ => rfl) fun _ => rfl]
  split
  · by_cases hrest : (c.skipWhile fun d => !isBreak d).rest = []
    · refine .inr ⟨hrest, ?_⟩
      rcases cursor_skipWhile_or c fun d => !isBreak d with heq | ⟨-, heq⟩
      · exact heq ▸ .refl _
      · exact heq ▸ moves_skipWhile _
    · refine .inl ⟨?_, h.suffix (moves_skipWhile _).suffix hrest⟩
      exact (cursor_skipWhile_or c fun d => !isBreak d).resolve_right fun hor => hrest hor.1
  · exact .inl ⟨rfl, h⟩

/-- A line that ends within the text ends in the frame too. -/
theorem finishLine_cursor (h : F.Fits c.rest) (hc : c.rest ≠ [])
    (hrest : (c.skipWhile isGap).skipComment.rest ≠ []) :
    (F.cursor c).finishLine = if atLineEnd (c.skipWhile isGap).skipComment.rest
      then .ok (F.cursor (c.skipWhile isGap).skipComment.skipBreak)
      else .error (.here (F.mark (c.skipWhile isGap).skipComment.mark)) := by
  obtain ⟨hfits, hskip⟩ := cursor_skipGaps h hc
  obtain ⟨hcomment, hfits⟩ := (skipComment_cursor hfits).resolve_right fun hor => hrest hor.1
  have hline : atLineEnd (F.cursor (c.skipWhile isGap).skipComment).rest
      = atLineEnd (c.skipWhile isGap).skipComment.rest := by
    obtain ⟨d, cs, hcons⟩ := List.exists_cons_of_ne_nil hrest
    rw [cursor_rest, hcons]
    rfl
  rw [finishLine_eq, hskip, hcomment, hline, cursor_skipBreak hfits hrest, cursor_mark]

theorem trails_finishLine {α : Type} (a : α) (h : F.Fits c.rest) :
    F.Trails c (c.finishLine >>= fun c' => .ok (a, c'))
      ((F.cursor c).finishLine >>= fun c' => .ok (a, c')) := by
  -- At the end of the text the line has ended, whatever of the text behind is skipped.
  have hend : ∀ c' : Cursor, c.Moves c' → c'.rest = [] → c.finishLine = .ok c' →
      (∀ c'', (F.cursor c).finishLine = .ok c'' → (F.cursor c').Moves c'') →
      F.Trails c (c.finishLine >>= fun c' => .ok (a, c'))
        ((F.cursor c).finishLine >>= fun c' => .ok (a, c')) := by
    intro c' hmoves hrest hfinish hbehind
    rw [hfinish]
    refine ⟨hmoves, .inr ⟨hrest, fun a' c'' heq => ?_⟩⟩
    obtain ⟨c₁, hc₁, heq⟩ := Json.exists_of_bind heq
    obtain ⟨rfl, rfl⟩ := Prod.mk.inj (Except.ok.inj heq)
    exact ⟨rfl, hbehind _ hc₁⟩
  by_cases hc : c.rest = []
  · have hfinish : c.finishLine = .ok c := by
      obtain ⟨rest, mark⟩ := c
      obtain rfl : rest = [] := hc
      rfl
    exact hend c (.refl _) hc hfinish fun c'' => moves_finishLine
  · obtain ⟨hfits, hskip⟩ := cursor_skipGaps h hc
    have hmoves : c.Moves (c.skipWhile isGap).skipComment :=
      (moves_skipWhile _).trans moves_skipComment
    by_cases hrest : (c.skipWhile isGap).skipComment.rest = []
    · refine hend _ hmoves hrest ?_ fun c'' heq => ?_
      · have hlast : ∀ c' : Cursor, c'.rest = [] → c'.skipBreak = c' := by
          rintro ⟨rest, mark⟩ rfl
          rfl
        rw [finishLine_eq, hrest, hlast _ hrest]
        rfl
      · rw [finishLine_eq, hskip] at heq
        split at heq
        · obtain rfl := Except.ok.inj heq
          rcases skipComment_cursor hfits with ⟨hcomment, -⟩ | ⟨-, hmoves⟩
          · exact hcomment ▸ moves_skipBreak
          · exact hmoves.trans moves_skipBreak
        · cases heq
    · rw [finishLine_cursor h hc hrest, finishLine_eq]
      split
      · exact ⟨hmoves.trans moves_skipBreak, .inl rfl⟩
      · exact ⟨_, rfl⟩

theorem directive_eq (c : Cursor) : directive c =
    let name := c.rest.takeWhile isName
    let c := c.skipWhile isName
    if name.isEmpty || !atSeparation c.rest then .error (.here c.mark)
    else
      (if name = "YAML".toList then versionDirective c
        else if name = "TAG".toList then tagDirective c
        else .error (.here c.mark)) >>= fun (lexeme, c) =>
      c.finishLine >>= fun c => .ok (lexeme, c) := by
  unfold directive
  simp only []
  -- Both sides make the same tests in the same order.
  split
  · rfl
  · split
    · rfl
    · split
      · rfl
      · rfl

/-- What stands behind the name of a directive lies within the text, up to the end of the line. -/
theorem reads_directiveBehind (name : List Char) (h : F.Fits c.rest) :
    F.Reads c
      (if name = "YAML".toList then versionDirective c
        else if name = "TAG".toList then tagDirective c
        else .error (.here c.mark))
      (if name = "YAML".toList then versionDirective (F.cursor c)
        else if name = "TAG".toList then tagDirective (F.cursor c)
        else .error (.here (F.mark c.mark))) := by
  split
  · exact reads_versionDirective h
  · split
    · exact reads_tagDirective h
    · exact .error

theorem trails_directive (h : F.Fits c.rest) :
    F.Trails c (directive c) (directive (F.cursor c)) := by
  have hname := (h.takeWhile fun d => isName_of_isWhite).1
  have hfits := h.skipWhile fun d => isName_of_isWhite
  rw [directive_eq, directive_eq, cursor_rest, hname, cursor_skipWhile h fun d => isName_of_isWhite]
  simp only [cursor_rest, hfits.atSeparation]
  split
  · exact ⟨_, rfl⟩
  · exact .after (moves_skipWhile (c := c) isName)
      (Reads.trails (reads_directiveBehind _ hfits) fun lexeme c hfits =>
        trails_finishLine lexeme hfits)

/-! ### The header of a block scalar -/

theorem chompingSign_eq (c : Cursor) : chompingSign c =
    if c.rest.head? = some '+' then (some .keep, c.skip 1)
    else if c.rest.head? = some '-' then (some .strip, c.skip 1)
    else (none, c) := by
  obtain ⟨rest, mark⟩ := c
  cases rest with
  | nil => rfl
  | cons d cs =>
    by_cases hplus : d = '+'
    · subst hplus
      rfl
    · by_cases hminus : d = '-'
      · subst hminus
        rfl
      · simp [chompingSign, hplus, hminus]

theorem chompingSign_cursor (h : F.Fits c.rest) : ∃ sign c', chompingSign c = (sign, c') ∧
    chompingSign (F.cursor c) = (sign, F.cursor c') ∧ c.Moves c' ∧ F.Fits c'.rest := by
  rw [chompingSign_eq, chompingSign_eq]
  by_cases hplus : c.rest.head? = some '+'
  · obtain ⟨hskip, hfits, hmoves⟩ := cursor_skip_one h hplus (by decide)
    rw [if_pos hplus, if_pos ((cursor_head? h rfl).2 hplus), hskip]
    exact ⟨_, _, rfl, rfl, hmoves, hfits⟩
  · rw [if_neg hplus, if_neg (hplus ∘ (cursor_head? h rfl).1)]
    by_cases hminus : c.rest.head? = some '-'
    · obtain ⟨hskip, hfits, hmoves⟩ := cursor_skip_one h hminus (by decide)
      rw [if_pos hminus, if_pos ((cursor_head? h rfl).2 hminus), hskip]
      exact ⟨_, _, rfl, rfl, hmoves, hfits⟩
    · rw [if_neg hminus, if_neg (hminus ∘ (cursor_head? h rfl).1)]
      exact ⟨_, _, rfl, rfl, .refl _, h⟩

theorem reads_indentationDigit (h : F.Fits c.rest) :
    F.Reads c (indentationDigit c) (indentationDigit (F.cursor c)) := by
  obtain ⟨rest, mark⟩ := c
  cases rest with
  | nil =>
    -- White space behind the text is no digit.
    have hend : indentationDigit (F.cursor ⟨[], mark⟩) = .ok (none, F.cursor ⟨[], mark⟩) := by
      unfold indentationDigit
      split
      · rename_i d cs heq
        have hd : isWhite d = true := h.behind_white d (by simp_all [cursor])
        have hzero : d ≠ '0' := by
          rintro rfl
          cases hd
        rw [if_neg hzero, isDigit_of_isWhite hd]
        rfl
      · rfl
    rw [hend]
    exact .ok (.refl _) h
  | cons d rest =>
    have hcons : ∀ cs m, indentationDigit ⟨d :: cs, m⟩ =
        if d = '0' then .error (.here m)
        else if d.isDigit then .ok (some (d.toNat - '0'.toNat), ⟨cs, m.skip 1⟩)
        else .ok (none, ⟨d :: cs, m⟩) := fun _ _ => rfl
    show F.Reads _ (indentationDigit ⟨d :: rest, mark⟩)
      (indentationDigit ⟨d :: (rest ++ F.behind), F.mark mark⟩)
    rw [hcons, hcons]
    refine .unless Iff.rfl fun _ => ?_
    split
    · rename_i hdigit
      have hne : d ≠ '\n' := by
        rintro rfl
        cases hdigit
      rw [← mark_skip]
      exact .ok (.next (.refl _)) (h.next hne)
    · exact .ok (.refl _) h

theorem trails_blockHeader (h : F.Fits c.rest) :
    F.Trails c (blockHeader c) (blockHeader (F.cursor c)) := by
  obtain ⟨before, c₁, hbefore, hbefore', hmoves, hfits⟩ := chompingSign_cursor h
  unfold blockHeader
  rw [hbefore, hbefore']
  refine .after hmoves (Reads.trails (reads_indentationDigit hfits) fun indentation c₂ hfits => ?_)
  by_cases hsecond : before.isNone && indentation.isSome
  · obtain ⟨after, c₃, hafter, hafter', hmoves, hfits⟩ := chompingSign_cursor hfits
    simp only [hsecond, if_true, hafter, hafter']
    exact .after hmoves (trails_finishLine _ hfits)
  · simp only [hsecond]
    exact trails_finishLine _ hfits

end SecretFill.Yaml
