import DeviceBatch.Text.Digits

/-!
# Numbers in TOML

Integers are written in decimal, hexadecimal, octal or binary and lie in the range of signed 64-bit
words. Digits may be separated by single underscores; a decimal integer has no leading zeros.

Of a number with a fraction or an exponent only its form is checked, and that it does not round to
infinity as a number of 64 bits; a number that rounds to minus infinity is accepted.
-/

namespace DeviceBatch.Toml

/-! ## Digits -/

/-- Reads more digits after some with the value `n`; between two digits there may be one
underscore. -/
def digitsFrom (base n : Nat) : List Char → Option Nat
  | [] => some n
  | '_' :: c :: rest => (Text.digitValue? base c).bind fun d => digitsFrom base (base * n + d) rest
  | c :: rest => (Text.digitValue? base c).bind fun d => digitsFrom base (base * n + d) rest

/-- The number with the given digits, of which there is at least one. -/
def digits? (base : Nat) : List Char → Option Nat
  | [] => none
  | c :: rest => (Text.digitValue? base c).bind fun d => digitsFrom base d rest

/-- The same without leading zeros. -/
def decimal? : List Char → Option Nat
  | ['0'] => some 0
  | '0' :: _ => none
  | s => digits? 10 s

/-- A sign, if there is one, and what follows. -/
def splitSign : List Char → Bool × List Char
  | '-' :: rest => (true, rest)
  | '+' :: rest => (false, rest)
  | s => (false, s)

/-! ## Integers -/

/-- Signed 64-bit words lie below this, and not below its negative. -/
def wordBound : Nat := 1 <<< 63

/-- The integer, if it is a signed 64-bit word. -/
def word? (n : Int) : Option Int :=
  if -(wordBound : Int) ≤ n ∧ n < wordBound then some n else none

/-- The integer that is written so. -/
def integer? : List Char → Option Int
  | '0' :: 'x' :: rest => (digits? 16 rest).bind fun n => word? n
  | '0' :: 'o' :: rest => (digits? 8 rest).bind fun n => word? n
  | '0' :: 'b' :: rest => (digits? 2 rest).bind fun n => word? n
  | s =>
    let (negative, digits) := splitSign s
    (decimal? digits).bind fun n => word? (if negative then -n else n)

/-! ## Numbers with a fraction or an exponent -/

/-- The least number that rounds to infinity: it lies halfway between the largest number of 64 bits
and the power of two above it. -/
def overflowBound : Nat := (1 <<< 1024) - (1 <<< 970)

/-- The exponent of a number: an integer that may have leading zeros. -/
def exponent? (s : List Char) : Option Int :=
  let (negative, digits) := splitSign s
  (digits? 10 digits).map fun n => if negative then -n else n

/-- `n * 10 ^ exponent` is below the bound. The exponents far from 0 are decided by the number of
digits alone. -/
def staysFinite (n : Nat) (exponent : Int) : Bool :=
  if n = 0 then true
  else
    let magnitude : Int := (Nat.toDigits 10 n).length + exponent
    if magnitude < 300 then true
    else if 310 < magnitude then false
    else if 0 ≤ exponent then n * Nat.pow 10 exponent.toNat < overflowBound
    else n < overflowBound * Nat.pow 10 (-exponent).toNat

/-- The number of digits, underscores left out. -/
def digitCount (s : List Char) : Nat := (s.filter Char.isDigit).length

/-- A character that begins an exponent. -/
def isExponentMark (c : Char) : Bool := c == 'e' || c == 'E'

/-- The text is a number with a fraction or an exponent, not rounding to infinity. -/
def isFloat (s : List Char) : Bool :=
  let (negative, unsigned) := splitSign s
  if unsigned = ['i', 'n', 'f'] || unsigned = ['n', 'a', 'n'] then true
  else
    let mantissa := unsigned.takeWhile fun c => !isExponentMark c
    let whole := mantissa.takeWhile fun c => c != '.'
    let fraction? :=
      match mantissa.dropWhile fun c => c != '.' with
      | [] => some []
      | _ :: digits => (digits? 10 digits).map fun _ => digits
    let exponentPart? :=
      match unsigned.dropWhile fun c => !isExponentMark c with
      | [] => some 0
      | _ :: digits => exponent? digits
    match decimal? whole, fraction?, exponentPart? with
    | some n, some fraction, some exponent =>
      let scaled := (digitsFrom 10 n fraction).getD 0
      unsigned.any (fun c => c == '.' || isExponentMark c) &&
        (negative || staysFinite scaled (exponent - digitCount fraction))
    | _, _, _ => false

end DeviceBatch.Toml
