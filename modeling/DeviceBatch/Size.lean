import DeviceBatch.Text.Digits

/-!
# Sizes and their limits

Counts and byte lengths are natural numbers. Where a machine word would overflow, the operation says
so instead of wrapping: `add?`, `mul?` and `ofText?` answer `none` when the true result is not below
`wordLimit`. What is added or multiplied without such a check has a result below the limit, or the
definition that does so says what it relies on.
-/

namespace DeviceBatch.Size

/-- Sizes, device numbers and dimensions lie below this. -/
def wordLimit : Nat := 1 <<< 64

/-- The largest size. -/
def maximum : Nat := wordLimit - 1

/-- Owned storage starts at a multiple of this, so bytes can be read as elements of any type. -/
def alignment : Nat := 64

/-- The longest storage that can be described: half of the address space, less one alignment. -/
def storageLimit : Nat := (1 <<< 63) - alignment

/-- The sum, if it is a size. -/
def add? (a b : Nat) : Option Nat := if a + b < wordLimit then some (a + b) else none

/-- The product, if it is a size. -/
def mul? (a b : Nat) : Option Nat := if a * b < wordLimit then some (a * b) else none

/-- The sum of all of them, which nobody checks: it is taken only of numbers that are below
`wordLimit` together. The lengths of storage that is held at one time are, and so are the references
in the queues; for numbers of rows it is a condition (`Local.Scatter.slices`). -/
def total (sizes : List Nat) : Nat := sizes.foldr (· + ·) 0

/-- The size that is written in decimal digits, perhaps after a plus sign. -/
def ofText? (text : String) : Option Nat :=
  let digits :=
    match text.toList with
    | '+' :: digits => digits
    | digits => digits
  if digits.isEmpty then none else (Text.ofDigits? 10 digits).filter (· < wordLimit)

theorem add?_eq_some_iff {a b c : Nat} : add? a b = some c ↔ a + b < wordLimit ∧ a + b = c := by
  unfold add?
  split <;> grind

theorem mul?_eq_some_iff {a b c : Nat} : mul? a b = some c ↔ a * b < wordLimit ∧ a * b = c := by
  unfold mul?
  split <;> grind

theorem mul?_eq_none_iff {a b : Nat} : mul? a b = none ↔ wordLimit ≤ a * b := by
  unfold mul?
  split <;> simp_all

end DeviceBatch.Size
