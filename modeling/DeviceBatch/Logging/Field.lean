import DeviceBatch.Logging.Pattern

/-!
# The fields of a filter directive

A directive may ask for a field of a span by its name, and for its value: a truth value, a number,
or a pattern that the value has to match. Truth values are patterns too, so only numbers make a
difference: those with a plus sign in front are no patterns.
-/

namespace DeviceBatch.Logging

/-- The text without a sign in front. -/
def dropSign : List Char → List Char
  | '+' :: rest | '-' :: rest => rest
  | s => s

/-- The characters begin the exponent of a number. -/
def isExponentMark (c : Char) : Bool := c = 'e' || c = 'E'

/-- Digits, perhaps with a point before, within or behind them. -/
def isMantissa (s : List Char) : Bool :=
  let digits := s.takeWhile (· != '.') ++ (s.dropWhile (· != '.')).tail
  !digits.isEmpty && digits.all Char.isDigit

/-- The text is a decimal number, perhaps with an exponent, or a word for what is no finite number,
in any case. -/
def isNumber (s : List Char) : Bool :=
  let unsigned := dropSign s
  let isWord := ["inf", "infinity", "nan"].contains (String.ofList (unsigned.map Char.toLower))
  let hasExponent :=
    match unsigned.dropWhile fun c => !isExponentMark c with
    | [] => true
    | _ :: exponent =>
      let digits := dropSign exponent
      !digits.isEmpty && digits.all Char.isDigit
  isWord || isMantissa (unsigned.takeWhile fun c => !isExponentMark c) && hasExponent

/-- Refuses a field whose value is neither a number nor a pattern. The value stands between the
first two equality signs. -/
def checkField (field : List Char) : Except PatternFault Unit :=
  match field.dropWhile (· != '=') with
  | [] => .ok ()
  | _ :: rest =>
    let value := rest.takeWhile (· != '=')
    if isNumber value then .ok () else checkPattern value

end DeviceBatch.Logging
