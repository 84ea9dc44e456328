namespace SecretFill

/-!
# Digits

* `digitValue?` — the value of a digit in a base of at most sixteen.
* `readNat?` — the number that a row of digits writes.
-/

/-- The value of a digit in a base of at most sixteen. -/
def digitValue? (base : Nat) (c : Char) : Option Nat :=
  let value? :=
    if c.isDigit then some (c.toNat - '0'.toNat)
    else if 'a' ≤ c && c ≤ 'f' then some (c.toNat - 'a'.toNat + 10)
    else if 'A' ≤ c && c ≤ 'F' then some (c.toNat - 'A'.toNat + 10)
    else none
  value?.filter (· < base)

/-- The number that a row of at least one digit writes. -/
def readNat? (base : Nat) : List Char → Option Nat
  | [] => none
  | cs => cs.foldlM (fun n c => (digitValue? base c).map (n * base + ·)) 0

end SecretFill
