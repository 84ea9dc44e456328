namespace SecretFill.Log

/-!
# What a run tells

* `Level` — how much a record matters.
* `Record` — one line of the log.
* `Notice` — a record, or text that the store command printed for the user.
-/

/-- How much a record matters, the most important first. -/
inductive Level where
  /-- Something failed. -/
  | error
  /-- Something is wrong but the run goes on. -/
  | warn
  /-- A step of the run. -/
  | info
  /-- A detail of a step. -/
  | debug
  /-- The finest detail. -/
  | trace
deriving DecidableEq, Repr, Inhabited

/-- One line of the log. -/
structure Record where
  /-- How much it matters. -/
  level : Level
  /-- The part of the program that speaks. -/
  target : String
  /-- What it says. -/
  message : String
deriving DecidableEq, Repr, Inhabited

/-- What a run tells while it goes on. -/
inductive Notice where
  /-- A line of the log. -/
  | record (r : Record)
  /-- Text that the store command printed. -/
  | printed (text : String)
deriving DecidableEq, Repr, Inhabited

/-- A notice that is a line of the log. -/
def note (level : Level) (target message : String) : Notice := .record ⟨level, target, message⟩

end SecretFill.Log
