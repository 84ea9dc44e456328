import SecretFill.Proofs.Causes
import SecretFill.Proofs.LastTokens
import SecretFill.Proofs.Markers

namespace SecretFill

/-!
# The first document of a secret

A secret may hold several documents, and the first one counts.  A document marker that starts a line
ends it: whatever stands behind the marker, well-formed or not, the keys of the secret are those of the
text before it.

* `Yaml.Precedes.value` — the value of a text whose tokens come before a document marker.
* `Yaml.read_marker`, `Fragment.parse_marker` — a text with a marker behind it.
* `Fragment.parse_first_document` — what follows the first document changes nothing.
-/

/-! ### Values -/

namespace Yaml

/-- A document that is not empty has an event. -/
theorem events_ne_nil {r : Reading} {v : Value} (hr : r.value = .ok v) (hv : v ≠ .null)
    (hfault : r.events.2 = none) : r.events.1 ≠ [] := by
  intro hnil
  rw [Reading.value, hfault, hnil] at hr
  exact hv (Except.ok.inj hr).symm

theorem value_marker {left : List Token} {mark : Mark} (last : Option Fault) {v : Value}
    (hr : Reading.value (left ++ [⟨.streamEnd, mark⟩], none) = .ok v) (hv : v ≠ .null) :
    Reading.value (left ++ [⟨.documentStart, mark⟩], last) = .ok v := by
  have hfault := fault_of_link (Document.fault_of_value hr)
  have hevents : Reading.events (left ++ [⟨.documentStart, mark⟩], last) = (_, none) :=
    events_marker (Prod.ext rfl hfault) (events_ne_nil hr hv hfault)
  rw [Reading.value, hfault] at hr
  rw [Reading.value, hevents]
  exact hr

/-- **The value of a document** is the same with a marker behind its tokens, unless it is empty. -/
theorem Precedes.value {r r' : Reading} (h : Precedes r r') {v : Value} (hr : r.value = .ok v)
    (hv : v ≠ .null) : r'.value = .ok v := by
  cases hlast : r.2 with
  | some fault =>
    have hbegins := h.begins (by simp [hlast])
    exact value_tells (.inr ⟨by simp [hlast], begins_of_prefix hbegins⟩) hr
  | none =>
    obtain ⟨lexemes, hlexemes, hmarker⟩ := h.marker hlast
    have hend : Reading.value (placed lexemes ++ [⟨.streamEnd, .origin⟩], none) = .ok v := by
      refine value_tells (.inl ⟨hlast, rfl, begins_of_lexemes ?_⟩) hr
      simp [placed, hlexemes, Function.comp_def]
    -- The marker stands where the stream ended, and a fault where nothing is known.
    have hstart := value_marker (some (.here .origin)) hend hv
    refine value_tells (.inr ⟨rfl, begins_of_prefix ?_⟩) hstart
    simpa [placed, Function.comp_def] using hmarker

/-- A marker behind a text of whole lines leaves its value as it is. -/
theorem read_marker {text behind : List Char} (hline : text.getLast? = some '\n')
    (hmarker : atDocumentStart behind = true) (hbehind : behind.all isAllowed = true) {v : Value}
    (hread : read text = .ok v) (hv : v ≠ .null) : read (text ++ behind) = .ok v := by
  rw [read_eq] at hread ⊢
  exact (tokens_precedes hline hmarker hbehind).value hread hv

end Yaml

open Yaml

/-! ### Fragments -/

section Fragments

variable {key : Key} {text behind rest : String} {entries : List (Value × Value)}

/-- A marker behind a secret of whole lines leaves its keys as they are, if it has some. -/
theorem Fragment.parse_marker (hline : text.toList.getLast? = some '\n')
    (hparse : Fragment.parse key text = .ok entries) (hne : entries ≠ [])
    (hmarker : atDocumentStart behind.toList = true) (hbehind : behind.toList.all isAllowed = true) :
    Fragment.parse key (text ++ behind) = .ok entries := by
  cases Fragment.hasEntries_of_parse hparse with
  | blank | empty => exact absurd rfl hne
  | mapping hblank hread =>
    refine Fragment.parse_of_hasEntries (.mapping ?_ ?_)
    · rw [Text.isAllBlank] at hblank ⊢
      rw [String.toList_append, List.all_append, hblank, Bool.false_and]
    · rw [String.toList_append]
      exact read_marker hline hmarker hbehind hread (by simp)

/-- **Only the first document counts.**  Behind a secret of whole lines that has keys, a document
    marker and any text that may stand in a stream add no key, change none and hide none. -/
theorem Fragment.parse_first_document (hline : text.toList.getLast? = some '\n')
    (hparse : Fragment.parse key text = .ok entries) (hne : entries ≠ [])
    (hrest : rest.toList.all isAllowed = true) :
    Fragment.parse key (text ++ "---\n" ++ rest) = .ok entries ∧
      ∀ name, Fragment.extract key (text ++ "---\n" ++ rest) name = Fragment.extract key text name := by
  have hmarker : atDocumentStart ("---\n" ++ rest).toList = true := by
    rw [String.toList_append]
    rfl
  have hallowed : ("---\n" ++ rest).toList.all isAllowed = true := by
    rw [String.toList_append, List.all_append, hrest]
    rfl
  have hfirst : Fragment.parse key (text ++ "---\n" ++ rest) = .ok entries := by
    rw [String.append_assoc]
    exact Fragment.parse_marker hline hparse hne hmarker hallowed
  refine ⟨hfirst, fun name => ?_⟩
  rw [Fragment.extract_of_parse hfirst, Fragment.extract_of_parse hparse]

/-- Whether a mapping has one key, whose text ends in two line breaks. -/
def isKept : Except Failure (List (Value × Value)) → Bool
  | .ok [(.string name, .string text)] => decide (name = "a" ∧ text = "x\n\n")
  | _ => false

/-- A block scalar that keeps its line breaks, before the same key again, a bracket that is not closed
    and a quoted scalar that does not end. -/
theorem Fragment.parse_first_document_malformed :
    let key : Key := ⟨"db", "Notes"⟩
    let text := "a: |+\n  x\n\n"
    let rest := "a: 2\nb: [\n\""
    let entries : List (Value × Value) := [(.string "a", .string "x\n\n")]
    text.toList.getLast? = some '\n' ∧ Fragment.parse key text = .ok entries ∧ entries ≠ [] ∧
      rest.toList.all isAllowed = true ∧
      Fragment.parse key "a: |+\n  x\n\n---\na: 2\nb: [\n\"" = .ok entries := by
  intro key text rest entries
  have hshape : isKept (Fragment.parse key text) = true := by decide +kernel
  have hparse : Fragment.parse key text = .ok entries := by
    unfold isKept at hshape
    split at hshape
    · rename_i h
      obtain ⟨rfl, rfl⟩ := of_decide_eq_true hshape
      exact h
    · cases hshape
  have hline : text.toList.getLast? = some '\n' := by decide
  have hallowed : rest.toList.all isAllowed = true := by decide
  exact ⟨hline, hparse, List.cons_ne_nil _ _, hallowed,
    (Fragment.parse_first_document hline hparse (List.cons_ne_nil _ _) hallowed).1⟩

/-- Behind a text without keys the next document counts. -/
example : render ⟨"db", "Notes", some "b"⟩ "# none\n---\nb: 1\n" = .ok "1" := by decide +kernel

/-- A marker that starts no line is part of a word. -/
example : render ⟨"db", "Notes", some "a"⟩ "a: x---\nb: 1\n" = .ok "\"x---\"" := by decide +kernel

end Fragments

end SecretFill
