import SecretFill.Machine.SystemFault

namespace SecretFill

/-!
# Room for bytes

A place that bytes are put in may be full at some point.  What was put in before that stays there.

* `Capacity` — how much a place takes.
* `Capacity.taken` — what it takes of some bytes; `Capacity.result` — whether that is all.
* `Capacity.left` — how much it takes then.
-/

/-- How many bytes a place takes. -/
inductive Capacity where
  /-- Any number. -/
  | endless
  /-- So many; for more there is a fault. -/
  | limited (size : Nat) (fault : SystemFault)
deriving DecidableEq, Repr, Inhabited

namespace Capacity

/-- What is taken of some bytes: all of them, or those at their beginning. -/
def taken : Capacity → List UInt8 → List UInt8
  | endless, content => content
  | limited size _, content => content.take size

/-- Whether all is taken. -/
def result : Capacity → List UInt8 → Except SystemFault Unit
  | endless, _ => .ok ()
  | limited size fault, content => if content.length ≤ size then .ok () else .error fault

/-- The room that is left. -/
def left : Capacity → List UInt8 → Capacity
  | endless, _ => endless
  | limited size fault, content => limited (size - content.length) fault

end Capacity

end SecretFill
