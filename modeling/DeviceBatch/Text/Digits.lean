/-!
# Digits

Numbers from their digits to a base up to 16, where letters of either case are digits above nine.
Reading back the decimal digits of a number gives the number (`ofDigits?_toDigits`).
-/

namespace DeviceBatch.Text

/-- The value of a digit, if it is one to the base. -/
def digitValue? (base : Nat) (c : Char) : Option Nat :=
  let value :=
    if c.isDigit then some (c.toNat - '0'.toNat)
    else if 'a' ≤ c && c ≤ 'f' then some (c.toNat - 'a'.toNat + 10)
    else if 'A' ≤ c && c ≤ 'F' then some (c.toNat - 'A'.toNat + 10)
    else none
  value.filter (· < base)

/-- The number with the given digits behind those of `n`. -/
def appendDigits? (base n : Nat) (digits : List Char) : Option Nat :=
  digits.foldlM (fun n c => (digitValue? base c).map (base * n + ·)) n

/-- The number with the given digits; no digits make 0. -/
def ofDigits? (base : Nat) (digits : List Char) : Option Nat := appendDigits? base 0 digits

theorem digitValue?_digitChar {n : Nat} (h : n < 10) : digitValue? 10 n.digitChar = some n := by
  have hall : ∀ n, n < 10 → digitValue? 10 n.digitChar = some n := by decide
  exact hall n h

theorem appendDigits?_append (base n : Nat) (s t : List Char) :
    appendDigits? base n (s ++ t) =
      (appendDigits? base n s).bind fun m => appendDigits? base m t := by
  simp [appendDigits?, List.foldlM_append]

theorem ofDigits?_toDigits (n : Nat) : ofDigits? 10 (Nat.toDigits 10 n) = some n := by
  induction n using Nat.strongRecOn with
  | ind n ih =>
    by_cases h : n < 10
    · rw [Nat.toDigits_of_lt_base h]
      simp [ofDigits?, appendDigits?, digitValue?_digitChar h]
    · have hstep := Nat.toDigits_of_base_le (b := 10) (n := n) (by decide) (by omega)
      have hmod : n % 10 < 10 := Nat.mod_lt n (by decide)
      rw [hstep, ofDigits?, appendDigits?_append]
      rw [← ofDigits?, ih (n / 10) (by omega)]
      simp [appendDigits?, digitValue?_digitChar hmod, Nat.div_add_mod]

end DeviceBatch.Text
