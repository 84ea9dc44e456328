import SecretFill.Number.Numeral
import SecretFill.Settings.Basic
import SecretFill.Text.Shown
import SecretFill.Toml.Document
import SecretFill.Toml.Excerpt

namespace SecretFill

/-!
# Settings in a file

A settings file is a TOML table with at most four keys.  Its entries are looked at in the order of
their keys, and the first that does not fit is the fault of the file.

* `Mismatch` — how an entry does not fit; `Mismatch.message` is its wording.
* `Settings.ofEntries` — the settings of a table.
* `Settings.parse` — the settings of a text.
-/

/-- How an entry of a settings file does not fit. -/
inductive Mismatch where
  /-- There is no such key. -/
  | unknownKey (name : String)
  /-- The value has another type. -/
  | wrongType (found wanted : String)
  /-- The number is negative. -/
  | negative (n : Int)
  /-- There is no such policy. -/
  | unknownPolicy (name : String)
  /-- The value names no policy. -/
  | noPolicy
  /-- The table that should name a policy has no key. -/
  | noName
  /-- The table that should name a policy has several keys. -/
  | manyNames
  /-- The value beside the name of a policy is not empty; `kind` is its type. -/
  | notEmpty (kind : String)
  /-- The value beside the name of a policy is neither a table nor an array. -/
  | notTable (kind : String)
  /-- The integer is larger than any word. -/
  | integerTooLarge
  /-- The floating point number is too large. -/
  | floatTooLarge
deriving DecidableEq, Repr

/-- The wording of a mismatch. -/
def Mismatch.message : Mismatch → String
  | unknownKey name =>
    s!"unknown field \x60{name}\x60, expected one of \x60lpass_command\x60, \x60timeout_secs\x60, " ++
      "\x60cache_empty_values\x60, \x60on_error\x60"
  | wrongType found wanted => s!"invalid type: {found}, expected {wanted}"
  | negative n => s!"invalid value: integer \x60{n}\x60, expected u64"
  | unknownPolicy name =>
    s!"unknown variant \x60{name}\x60, expected \x60abort\x60 or \x60marker\x60"
  | noPolicy => "wanted string or table"
  | noName => "wanted exactly 1 element, found 0 elements"
  | manyNames => "wanted exactly 1 element, more than 1 element"
  | notEmpty kind => s!"expected empty {kind}"
  | notTable kind => s!"expected table, found {kind}"
  | integerTooLarge => "integer number overflowed"
  | floatTooLarge => "floating-point number overflowed"

/-- A mismatch with its place. -/
structure SettingsFault where
  /-- The place. -/
  span : Toml.Span
  /-- What does not fit there. -/
  mismatch : Mismatch
deriving DecidableEq, Repr

namespace Settings

open Toml

/-- The name of an integer in messages, by the smallest word that holds it. -/
def integerName? (n : Int) : Option String :=
  if -(Nat.pow 2 63) ≤ n ∧ n < Nat.pow 2 64 then some s!"integer \x60{n}\x60"
  else if -(Nat.pow 2 127) ≤ n ∧ n < Nat.pow 2 127 then some s!"integer \x60{n}\x60 as i128"
  else if 0 ≤ n ∧ n < Nat.pow 2 128 then some s!"integer \x60{n}\x60 as u128"
  else none

/-- The text of a floating point number in messages. -/
def floatName : Binary64 → String
  | .nan => "NaN"
  | .infinite false => "inf"
  | .infinite true => "-inf"
  | .finite negative significand exponent =>
    String.ofList (Binary64.numeral .plain negative significand exponent)

/-- That a value should have another type.  A number that is too large is a fault of its own. -/
def mismatch (wanted : String) : Value → Mismatch
  | .string _ text => .wrongType s!"string {Text.quoted text}" wanted
  | .integer _ n =>
    match integerName? n with
    | some name => .wrongType name wanted
    | none => .integerTooLarge
  | .float _ (some x) => .wrongType s!"floating point \x60{floatName x}\x60" wanted
  | .float _ none => .floatTooLarge
  | .boolean _ b => .wrongType s!"boolean \x60{b}\x60" wanted
  | .array .. => .wrongType "sequence" wanted
  | .moment _ | .table .. => .wrongType "map" wanted

/-- That a value should have another type, at its place. -/
def refuse {α : Type} (wanted : String) (value : Value) : Except SettingsFault α :=
  .error ⟨value.span, mismatch wanted value⟩

/-- The text that a value is. -/
def textOf : Value → Except SettingsFault String
  | .string _ text => .ok text
  | value => refuse "a string" value

/-- The truth value that a value is. -/
def flagOf : Value → Except SettingsFault Bool
  | .boolean _ b => .ok b
  | value => refuse "a boolean" value

/-- The number of seconds that a value is: a word of 64 bits. -/
def secondsOf : Value → Except SettingsFault Nat
  | .integer span n =>
    if 0 ≤ n ∧ n < Nat.pow 2 64 then .ok n.toNat
    else if -(Nat.pow 2 63) ≤ n ∧ n < 0 then .error ⟨span, .negative n⟩
    else refuse "u64" (.integer span n)
  | value => refuse "u64" value

/-- The policy with a name. -/
def policyNamed (span : Span) (name : String) : Except SettingsFault Policy :=
  match Policy.ofName? name with
  | some policy => .ok policy
  | none => .error ⟨span, .unknownPolicy name⟩

/-- Checks that nothing stands beside the name of a policy. -/
def checkEmpty : Value → Except SettingsFault Unit
  | .array span _ items => if items.isEmpty then .ok () else .error ⟨span, .notEmpty "array"⟩
  | .table span _ entries => if entries.isEmpty then .ok () else .error ⟨span, .notEmpty "table"⟩
  | value => .error ⟨value.span, .notTable value.typeName⟩

/-- The policy that a value names: by a text, or by the only key of a table. -/
def policyOf : Value → Except SettingsFault Policy
  | .string span name => policyNamed span name
  | .table span _ [] => .error ⟨span, .noName⟩
  | .table _ _ [(key, value)] => do
    let policy ← policyNamed key.span key.text
    checkEmpty value
    return policy
  | .table span _ (_ :: _ :: _) => .error ⟨span, .manyNames⟩
  | value => .error ⟨value.span, .noPolicy⟩

/-- Takes one entry of a settings file. -/
def set (s : Settings) (key : Toml.Key) (value : Value) : Except SettingsFault Settings :=
  match key.text with
  | "lpass_command" => (textOf value).map fun command => { s with command }
  | "timeout_secs" => (secondsOf value).map fun timeoutSeconds => { s with timeoutSeconds }
  | "cache_empty_values" => (flagOf value).map fun cachesEmpty => { s with cachesEmpty }
  | "on_error" => (policyOf value).map fun policy => { s with policy }
  | name => .error ⟨key.span, .unknownKey name⟩

/-- The settings of a table. -/
def ofEntries (entries : Entries) : Except SettingsFault Settings :=
  (entries.mergeSort fun a b => a.1.text ≤ b.1.text).foldlM (fun s (key, value) => s.set key value)
    standard

/-- The settings of a text, or what is wrong with it. -/
def parse (text : String) : Except String Settings :=
  match read? text with
  | none => .error "TOML parse error\nthe text is no TOML document\n"
  | some entries =>
    (ofEntries entries).mapError fun fault =>
      (Excerpt.of text.toList fault.span).text fault.mismatch.message

end Settings

end SecretFill
