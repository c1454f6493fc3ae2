import DeviceBatch.Text.Digits

/-!
# Dates and times in TOML

A date, a time of day, or both with or without an offset. Only the form and the ranges are checked:
months have their true lengths, and a minute may have 61 seconds.
-/

namespace DeviceBatch.Toml

/-- The digits make a number in the given range. -/
def inRange (first last : Nat) (digits : List Char) : Bool :=
  match Text.ofDigits? 10 digits with
  | some n => first ≤ n && n ≤ last
  | none => false

def isLeapYear (year : Nat) : Bool := year % 4 == 0 && (year % 100 != 0 || year % 400 == 0)

def daysInMonth (year month : Nat) : Nat :=
  if month = 2 then if isLeapYear year then 29 else 28
  else if month = 4 ∨ month = 6 ∨ month = 9 ∨ month = 11 then 30
  else 31

/-- A year, a month and a day. -/
def isDate : List Char → Bool
  | [y₁, y₂, y₃, y₄, '-', m₁, m₂, '-', d₁, d₂] =>
    match Text.ofDigits? 10 [y₁, y₂, y₃, y₄], Text.ofDigits? 10 [m₁, m₂] with
    | some year, some month =>
      inRange 1 12 [m₁, m₂] && inRange 1 (daysInMonth year month) [d₁, d₂]
    | _, _ => false
  | _ => false

/-- Hours and minutes. -/
def isClock : List Char → Bool
  | [h₁, h₂, ':', m₁, m₂] => inRange 0 23 [h₁, h₂] && inRange 0 59 [m₁, m₂]
  | _ => false

/-- What follows a time of day: nothing, or the distance from universal time. -/
def isOffset : List Char → Bool
  | [] => true
  | ['Z'] | ['z'] => true
  | '+' :: clock | '-' :: clock => isClock clock
  | _ => false

/-- Hours, minutes and seconds with an optional fraction; what follows has to pass the test. -/
def isTimeThen (accepts : List Char → Bool) : List Char → Bool
  | h₁ :: h₂ :: ':' :: m₁ :: m₂ :: ':' :: s₁ :: s₂ :: rest =>
    let afterFraction? :=
      match rest with
      | '.' :: c :: rest => if c.isDigit then some (rest.dropWhile Char.isDigit) else none
      | '.' :: [] => none
      | rest => some rest
    isClock [h₁, h₂, ':', m₁, m₂] && inRange 0 60 [s₁, s₂] && afterFraction?.any accepts
  | _ => false

/-- A time of day with no offset. -/
def isTime (s : List Char) : Bool := isTimeThen List.isEmpty s

/-- A time of day with an optional offset. -/
def isTimeWithOffset (s : List Char) : Bool := isTimeThen isOffset s

/-- A date and a time of day joined by a letter. -/
def isDateTime (s : List Char) : Bool :=
  match s.drop 10 with
  | 'T' :: time | 't' :: time => isDate (s.take 10) && isTimeWithOffset time
  | _ => false

/-- A point in time written without blanks. -/
def isMoment (s : List Char) : Bool := isDate s || isTime s || isDateTime s

end DeviceBatch.Toml
