/-!
# Integers of limited width

## Main Definitions

* `fitsUnsigned`, `fitsSigned` — whether an integer has a place in so many bits
* `greatestUnsigned`, `leastSigned`, `greatestSigned` — the bounds
-/

namespace NodeFencing

/-- How many values so many bits have. -/
def valuesOf (bits : Nat) : Nat :=
  Nat.pow 2 bits

/-- The greatest integer of so many bits without a sign. -/
def greatestUnsigned (bits : Nat) : Nat :=
  valuesOf bits - 1

/-- The least integer of so many bits, of which one is the sign. -/
def leastSigned (bits : Nat) : Int :=
  -(valuesOf (bits - 1))

/-- The greatest integer of so many bits, of which one is the sign. -/
def greatestSigned (bits : Nat) : Nat :=
  valuesOf (bits - 1) - 1

/-- Whether an integer fits into so many bits without a sign. -/
def fitsUnsigned (bits : Nat) (n : Int) : Bool :=
  0 ≤ n && n ≤ greatestUnsigned bits

/-- Whether an integer fits into so many bits, of which one is the sign. -/
def fitsSigned (bits : Nat) (n : Int) : Bool :=
  leastSigned bits ≤ n && n ≤ greatestSigned bits

theorem fitsSigned_iff {bits : Nat} {n : Int} :
    fitsSigned bits n = true ↔ leastSigned bits ≤ n ∧ n ≤ greatestSigned bits := by
  simp [fitsSigned]

theorem fitsUnsigned_natCast_iff {bits n : Nat} :
    fitsUnsigned bits n = true ↔ n ≤ greatestUnsigned bits := by
  simp [fitsUnsigned]

end NodeFencing
