import Mathlib.Data.List.Basic
import SecretFill.Diagnosis

namespace SecretFill

/-!
# What is told of a trouble

The outermost failure in a chain of layers decides alone what is told.  Without one the whole chain
is told: the outermost wording, and below it those of the other layers and of the cause, numbered.

* `Trouble.failures` — the failures in a chain, the outermost one first.
* `Cause.HasAdvice` — the causes about which there is advice.
* `Trouble.message_eq` — the message as a function of the chain.
* `Trouble.chain_eq_of_message` — if the wordings have no line feeds, the chain can be read back.
* `trouble_told` — what is told of any trouble.
-/

/-! ### Failures in a chain -/

/-- The failures among the layers and the cause, the outermost one first. -/
def Trouble.failures (t : Trouble) : List Failure :=
  t.layers.reverse.filterMap Layer.failure? ++ t.cause.failure?.toList

/-- The outermost failure is the first one. -/
theorem Trouble.failure?_eq_head? (t : Trouble) : t.failure? = t.failures.head? := by
  unfold failure? failures
  rw [List.head?_append, List.head?_filterMap]
  cases t.cause.failure? <;> rfl

/-- What is told of a failure is about this failure. -/
theorem Failure.diagnosis_failure (e : Failure) : e.diagnosis.failure = e := by
  cases e <;> rfl

/-! ### Advice -/

/-- The causes about which there is advice: that something is not there or not allowed, and settings
    that cannot be read. -/
def Cause.HasAdvice : Cause → Prop
  | system (.numbered code) => code = 2 ∨ code = 1 ∨ code = 13
  | system (.worded condition _) => condition = .notFound ∨ condition = .permissionDenied
  | settings _ => True
  | failure _ | message _ => False

namespace Trouble

variable {t : Trouble}

/-- A trouble without failures is told as one message. -/
theorem told_failure (t : Trouble) : t.told.failure = .other t.message := by
  unfold told
  cases t.cause with
  | system fault =>
    show (if _ then _ else _ : Diagnosis).failure = _
    split
    · rfl
    · split <;> rfl
  | failure | settings | message => rfl

/-- There is advice iff the cause is one about which there is some. -/
theorem told_suggestion (t : Trouble) : t.told.suggestion.isSome = true ↔ t.cause.HasAdvice := by
  unfold told
  cases t.cause with
  | failure e => simp [Cause.HasAdvice, Diagnosis.bare]
  | message words => simp [Cause.HasAdvice, Diagnosis.bare]
  | settings reason => simp [Cause.HasAdvice, Diagnosis.withSuggestion, Diagnosis.withDetails]
  | system fault =>
    have hadvice : (fault.isAbsence = true ∨ fault.isRefusal = true)
        ↔ (Cause.system fault).HasAdvice := by
      cases fault with
      | numbered code => simp [SystemFault.isAbsence, SystemFault.isRefusal, Cause.HasAdvice]
      | worded condition words =>
        simp [SystemFault.isAbsence, SystemFault.isRefusal, Cause.HasAdvice]
    rw [← hadvice]
    show (if _ then _ else _ : Diagnosis).suggestion.isSome = true ↔ _
    split
    · rename_i habsent
      simp [habsent, Diagnosis.withSuggestion]
    · rename_i habsent
      split
      · rename_i hrefused
        simp [hrefused, Diagnosis.withSuggestion]
      · rename_i hrefused
        simp [habsent, hrefused, Diagnosis.bare]

/-! ### Messages -/

/-- The wordings below the outermost one are numbered in order. -/
theorem numberedLines_eq (i : Nat) (causes : List String) :
    numberedLines i causes
      = String.join (causes.mapIdx fun j cause => s!"\n  {j + i}: {cause}") := by
  induction causes generalizing i with
  | nil => rfl
  | cons cause rest ih =>
    rw [numberedLines, ih, List.mapIdx_cons, String.join_cons, Nat.zero_add]
    congr 2
    refine List.mapIdx_eq_mapIdx_iff.2 fun j _ => ?_
    rw [Nat.add_right_comm, Nat.add_assoc]

/-- **The message** of a chain: its first wording, and the other ones numbered from 1. -/
theorem message_eq {first : String} {rest : List String} (h : t.chain = first :: rest) :
    t.message = if rest = [] then first else
      first ++ "\n\nCaused by:" ++
        String.join (rest.mapIdx fun i text => s!"\n  {i + 1}: {text}") := by
  have hheadline : t.headline = first := congrArg (List.headD · "") h
  have hcauses : t.causes = rest := congrArg List.tail h
  unfold message
  rw [hheadline, hcauses]
  cases rest with
  | nil => rfl
  | cons cause rest =>
    rw [if_neg (List.cons_ne_nil _ _), ← numberedLines_eq 1]
    rfl

/-! ### Reading a chain back -/

/-- A text that is empty or begins with a line feed. -/
def IsTail (s : String) : Prop := s.toList.takeWhile (· ≠ '\n') = []

/-- Two texts without line feeds, and what is behind them, are known from both together. -/
theorem append_tail_inj {s t u v : String} (hs : '\n' ∉ s.toList) (ht : '\n' ∉ t.toList)
    (hu : IsTail u) (hv : IsTail v) (h : s ++ u = t ++ v) : s = t ∧ u = v := by
  have hfirst : ∀ {s u : String}, '\n' ∉ s.toList → IsTail u →
      (s ++ u).toList.takeWhile (· ≠ '\n') = s.toList := by
    intro s u hs hu
    have hkept : ∀ c ∈ s.toList, decide (c ≠ '\n') = true := by
      intro c hc
      exact decide_eq_true fun hbreak => hs (hbreak ▸ hc)
    rw [String.toList_append, List.takeWhile_append_of_pos hkept, hu, List.append_nil]
  have hst : s = t := by
    rw [← String.toList_inj, ← hfirst hs hu, h, hfirst ht hv]
  subst hst
  exact ⟨rfl, (String.append_right_inj s).1 h⟩

/-- A text that begins with a line feed. -/
def StartsLine (s : String) : Prop := ∃ cs, s.toList = '\n' :: cs

theorem StartsLine.append {s : String} (h : StartsLine s) (t : String) : StartsLine (s ++ t) := by
  obtain ⟨cs, hcs⟩ := h
  refine ⟨cs ++ t.toList, ?_⟩
  rw [String.toList_append, hcs, List.cons_append]

theorem StartsLine.isTail {s : String} (h : StartsLine s) : IsTail s := by
  obtain ⟨cs, hcs⟩ := h
  unfold IsTail
  rw [hcs]
  rfl

theorem StartsLine.ne_empty {s : String} (h : StartsLine s) : s ≠ "" := by
  rintro rfl
  obtain ⟨cs, hcs⟩ := h
  cases hcs

/-- A line begins with its number. -/
theorem numberedLines_cons (i : Nat) (cause : String) (rest : List String) :
    numberedLines i (cause :: rest)
      = s!"\n  {i}: " ++ (cause ++ numberedLines (i + 1) rest) := by
  show toString "\n  " ++ toString i ++ toString ": " ++ cause ++ _ = _
  exact String.append_assoc

theorem startsLine_numberedLines (i : Nat) (cause : String) (rest : List String) :
    StartsLine (numberedLines i (cause :: rest)) := by
  have hfeed : StartsLine "\n  " := ⟨[' ', ' '], by decide⟩
  rw [numberedLines_cons]
  exact ((hfeed.append _).append _).append _

theorem isTail_numberedLines (i : Nat) (causes : List String) :
    IsTail (numberedLines i causes) := by
  cases causes with
  | nil => rfl
  | cons cause rest => exact (startsLine_numberedLines i cause rest).isTail

/-- Wordings without line feeds can be read back from the lines that number them. -/
theorem numberedLines_inj {i : Nat} {causes causes' : List String}
    (hbreak : ∀ cause ∈ causes, '\n' ∉ cause.toList)
    (hbreak' : ∀ cause ∈ causes', '\n' ∉ cause.toList)
    (h : numberedLines i causes = numberedLines i causes') : causes = causes' := by
  induction causes generalizing i causes' with
  | nil =>
    cases causes' with
    | nil => rfl
    | cons cause rest => exact absurd h.symm (startsLine_numberedLines i cause rest).ne_empty
  | cons cause rest ih =>
    cases causes' with
    | nil => exact absurd h (startsLine_numberedLines i cause rest).ne_empty
    | cons cause' rest' =>
      -- Both lines begin with the same number, and end before the next line feed.
      rw [numberedLines_cons, numberedLines_cons, String.append_right_inj] at h
      obtain ⟨hcause, hrest⟩ := append_tail_inj (hbreak _ List.mem_cons_self)
        (hbreak' _ List.mem_cons_self) (isTail_numberedLines _ _) (isTail_numberedLines _ _) h
      rw [hcause, ih (fun c hc => hbreak c (List.mem_cons_of_mem _ hc))
        (fun c hc => hbreak' c (List.mem_cons_of_mem _ hc)) hrest]

/-- What stands behind the first wording of a message. -/
def causesText : List String → String
  | [] => ""
  | cause :: rest => "\n\nCaused by:" ++ numberedLines 1 (cause :: rest)

theorem message_split (t : Trouble) : t.message = t.headline ++ causesText t.causes := by
  unfold message
  cases t.causes with
  | nil => exact (String.append_empty).symm
  | cons cause rest => exact String.append_assoc

theorem startsLine_causesText (cause : String) (rest : List String) :
    StartsLine (causesText (cause :: rest)) := by
  have htitle : StartsLine "\n\nCaused by:" := ⟨"\nCaused by:".toList, by decide⟩
  exact htitle.append _

theorem isTail_causesText (causes : List String) : IsTail (causesText causes) := by
  cases causes with
  | nil => rfl
  | cons cause rest => exact (startsLine_causesText cause rest).isTail

theorem causesText_inj {causes causes' : List String}
    (hbreak : ∀ cause ∈ causes, '\n' ∉ cause.toList)
    (hbreak' : ∀ cause ∈ causes', '\n' ∉ cause.toList)
    (h : causesText causes = causesText causes') : causes = causes' := by
  cases causes with
  | nil =>
    cases causes' with
    | nil => rfl
    | cons cause rest => exact absurd h.symm (startsLine_causesText cause rest).ne_empty
  | cons cause rest =>
    cases causes' with
    | nil => exact absurd h (startsLine_causesText cause rest).ne_empty
    | cons cause' rest' =>
      exact numberedLines_inj hbreak hbreak' ((String.append_right_inj _).1 h)

theorem chain_eq (t : Trouble) : t.chain = t.headline :: t.causes := by
  have hne : t.chain ≠ [] := List.append_ne_nil_of_right_ne_nil _ (List.cons_ne_nil _ _)
  obtain ⟨first, rest, hcons⟩ := List.exists_cons_of_ne_nil hne
  unfold headline causes
  rw [hcons]
  rfl

/-- **A chain can be read back** from its message, if its wordings have no line feeds: no layer is
    lost, repeated or put in another place. -/
theorem chain_eq_of_message {t t' : Trouble}
    (hbreak : ∀ text ∈ t.chain, '\n' ∉ text.toList)
    (hbreak' : ∀ text ∈ t'.chain, '\n' ∉ text.toList) (h : t.message = t'.message) :
    t.chain = t'.chain := by
  rw [chain_eq] at hbreak hbreak' ⊢
  obtain ⟨hfirst, hrest⟩ := List.forall_mem_cons.1 hbreak
  obtain ⟨hfirst', hrest'⟩ := List.forall_mem_cons.1 hbreak'
  rw [message_split, message_split] at h
  obtain ⟨hheadline, hcauses⟩ := append_tail_inj hfirst hfirst' (isTail_causesText _)
    (isTail_causesText _) h
  rw [hheadline, causesText_inj hrest hrest' hcauses, ← chain_eq]

end Trouble

/-! ### What is told -/

/-- **What is told of a trouble.**  If there is a failure in the chain, what is told is what is told
    of the outermost one, unchanged; it does not depend on anything else.

    If there is none, the whole chain is told as one message: the outermost wording alone, or else
    followed by those below it in order, each in a line with its number.  The chain can be read back
    from it if no wording has a line feed.  There is advice iff the system did not find something or
    did not allow it, or settings cannot be read. -/
theorem trouble_told (t : Trouble) :
    (∀ e rest, t.failures = e :: rest →
      t.diagnosis.failure = e ∧ t.diagnosis = e.diagnosis) ∧
    (t.failures = [] →
      (∀ first rest, t.chain = first :: rest →
        t.diagnosis.failure = .other (if rest = [] then first else
          first ++ "\n\nCaused by:" ++
            String.join (rest.mapIdx fun i text => s!"\n  {i + 1}: {text}"))) ∧
      (∀ t' : Trouble, t'.failures = [] → (∀ text ∈ t.chain, '\n' ∉ text.toList) →
        (∀ text ∈ t'.chain, '\n' ∉ text.toList) → t'.diagnosis.failure = t.diagnosis.failure →
          t'.chain = t.chain) ∧
      (t.diagnosis.suggestion.isSome = true ↔ t.cause.HasAdvice)) := by
  -- Without a failure in the chain all of it is told.
  have htold : ∀ t : Trouble, t.failures = [] → t.diagnosis = t.told := by
    intro t hnone
    unfold Trouble.diagnosis
    rw [t.failure?_eq_head?, hnone]
    rfl
  constructor
  · intro e rest hfailures
    have hdiagnosis : t.diagnosis = e.diagnosis := by
      unfold Trouble.diagnosis
      rw [t.failure?_eq_head?, hfailures]
      rfl
    rw [hdiagnosis]
    exact ⟨e.diagnosis_failure, rfl⟩
  · intro hnone
    rw [htold t hnone, t.told_failure]
    refine ⟨fun first rest hchain => ?_, fun t' hnone' hbreak hbreak' hsame => ?_,
      t.told_suggestion⟩
    · rw [Trouble.message_eq hchain]
    · rw [htold t' hnone', t'.told_failure] at hsame
      exact Trouble.chain_eq_of_message hbreak' hbreak (Failure.other.inj hsame)

/-- A failure in a layer shadows the one at the bottom; and a file that is not there is told with all
    that was being done. -/
theorem trouble_told_missing_file :
    let missing : Trouble := ⟨.system .noSuchFile, [.words "Failed to read a.yml", .words "Gave up"]⟩
    let shadowed : Trouble :=
      ⟨.failure (.storeMissing "lpass"), [.failure (.other "Login failed"), .words "Gave up"]⟩
    shadowed.diagnosis = ⟨.other "Login failed", none, none⟩ ∧
      missing.diagnosis.failure = .other ("Gave up\n\nCaused by:\n  1: Failed to read a.yml" ++
        "\n  2: No such file or directory (os error 2)") ∧
      missing.diagnosis.suggestion.isSome = true := by
  intro missing shadowed
  obtain ⟨hshadowed, -⟩ := trouble_told shadowed
  obtain ⟨-, hmissing⟩ := trouble_told missing
  obtain ⟨hmessage, -, hadvice⟩ := hmissing rfl
  refine ⟨(hshadowed _ _ rfl).2, ?_, hadvice.2 (.inl rfl)⟩
  rw [hmessage "Gave up" ["Failed to read a.yml", "No such file or directory (os error 2)"]
    (by decide)]
  decide

end SecretFill
