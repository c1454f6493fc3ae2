import DeviceBatch.Toml.Document

/-!
# Writing TOML

A document of plain values: first those that belong to no section, then the sections, each under its
header after an empty line. `Plain.toValue` is what a plain value is read back as.
-/

namespace DeviceBatch.Toml

/-- A value that can be written. -/
inductive Plain where
  | text (s : String)
  | number (n : Nat)
  | flag (b : Bool)
  deriving DecidableEq, Repr

/-- The largest number that can be written. -/
def largestNumber : Nat := wordBound - 1

namespace Plain

/-- The value that this is written for. -/
def toValue : Plain → Value
  | text s => .string s
  | number n => .integer n
  | flag b => .boolean b

/-- The value can be written. -/
def isWritable : Plain → Bool
  | number n => n ≤ largestNumber
  | text _ | flag _ => true

/-- The written form. -/
def render : Plain → List Char
  | text s => quote s.toList
  | number n => Nat.toDigits 10 n
  | flag true => ['t', 'r', 'u', 'e']
  | flag false => ['f', 'a', 'l', 's', 'e']

end Plain

/-- Plain values under bare keys, in the order in which they are written. -/
abbrev Entries := List (String × Plain)

/-- One line for a value and its key. -/
def renderEntry (entry : String × Plain) : List Char :=
  entry.1.toList ++ [' ', '=', ' '] ++ entry.2.render ++ ['\n']

/-- A header and the lines under it, after an empty line. -/
def renderSection (part : String × Entries) : List Char :=
  ['\n', '['] ++ part.1.toList ++ [']', '\n'] ++ part.2.flatMap renderEntry

/-- A document of plain values and sections. -/
structure PlainDocument where
  top : Entries
  sections : List (String × Entries)
  deriving DecidableEq, Repr

namespace PlainDocument

/-- All values can be written. -/
def isWritable (d : PlainDocument) : Bool :=
  d.top.all (fun entry => entry.2.isWritable) &&
    d.sections.all fun part => part.2.all fun entry => entry.2.isWritable

/-- The text of a document. -/
def render (d : PlainDocument) : String :=
  .ofList (d.top.flatMap renderEntry ++ d.sections.flatMap renderSection)

/-- What the lines of a document say. -/
def toStatements (d : PlainDocument) : List Statement :=
  let assign (entry : String × Plain) : Statement := .assign [entry.1] entry.2.toValue
  d.top.map assign ++ d.sections.flatMap fun part => .table [part.1] :: part.2.map assign

end PlainDocument

end DeviceBatch.Toml
