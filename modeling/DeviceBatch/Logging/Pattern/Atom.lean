import DeviceBatch.Text.Blank
import DeviceBatch.Text.Digits

/-!
# The atoms of a pattern

A pattern is a regular expression; an atom is the least part of it that matches something. What an
atom may be depends on the modes of the pattern, which the pattern itself switches.

No tables of Unicode properties are at hand, neither for classes of characters nor for their cases.
Where the Unicode mode is on, whatever needs such a table is refused. Where it is off, a pattern is
about bytes, and whatever could match a part of a character only is refused. `Atom.isSupported` says
this for atoms.

A pattern stands between braces and ends at the first closing one. So a brace that is opened within
a pattern is never closed there, and all that would begin with an opening brace is refused.
-/

namespace DeviceBatch.Logging

/-! ## Modes -/

/-- A mode that a pattern can switch. -/
inductive Mode where
  | caseless
  | multiLine
  | dotMatchesLineBreak
  | greedSwapped
  | unicode
  | carriageReturn
  | extended
  deriving DecidableEq, Repr

/-- The mode that a letter stands for. -/
def Mode.ofLetter? : Char → Option Mode
  | 'i' => some caseless
  | 'm' => some multiLine
  | 's' => some dotMatchesLineBreak
  | 'U' => some greedSwapped
  | 'u' => some unicode
  | 'R' => some carriageReturn
  | 'x' => some extended
  | _ => none

/-- Modes to be switched on and off, each named once. -/
structure Switches where
  on : List Mode := []
  off : List Mode := []
  deriving DecidableEq, Repr

namespace Switches

/-- The state of a mode after switching, if it was in the given state before. -/
def apply (s : Switches) (mode : Mode) (before : Bool) : Bool :=
  (before || s.on.contains mode) && !s.off.contains mode

/-- Reads the letters of modes up to the colon or parenthesis behind them. The modes behind a minus
sign are switched off; there is one such sign at most, and not at the end. -/
def read (s : Switches) (negated : Bool) : List Char → Option (Switches × List Char)
  | [] => none
  | c :: rest =>
    if c = ':' || c = ')' then
      if negated && s.off.isEmpty then none else some (s, c :: rest)
    else if c = '-' then
      if negated then none else read s true rest
    else
      match Mode.ofLetter? c with
      | none => none
      | some mode =>
        if s.on.contains mode || s.off.contains mode then none
        else if negated then read { s with off := mode :: s.off } negated rest
        else read { s with on := mode :: s.on } negated rest

end Switches

/-- The modes that decide whether a part of a pattern is supported. -/
structure Modes where
  /-- Letters match in either case. -/
  caseless : Bool := false
  /-- The pattern is about characters, not about bytes. -/
  unicode : Bool := true
  deriving DecidableEq, Repr

/-- The modes after switching. -/
def Modes.switch (m : Modes) (s : Switches) : Modes where
  caseless := s.apply .caseless m.caseless
  unicode := s.apply .unicode m.unicode

/-! ## Blanks

In the extended mode blanks between the parts of a pattern do not count, nor do comments, which go
from a number sign to the end of the line. -/

/-- The text without the blanks and comments at its front. -/
def dropBlanks (inComment : Bool) : List Char → List Char
  | [] => []
  | c :: rest =>
    if inComment then dropBlanks (c != '\n') rest
    else if Text.isBlank c then dropBlanks false rest
    else if c = '#' then dropBlanks true rest
    else c :: rest

/-- The text from the next part of a pattern on. -/
def nextPart (extended : Bool) (s : List Char) : List Char :=
  if extended then dropBlanks false s else s

theorem length_dropBlanks_le (inComment : Bool) (s : List Char) :
    (dropBlanks inComment s).length ≤ s.length := by
  induction s generalizing inComment with
  | nil => simp [dropBlanks]
  | cons c rest ih =>
    unfold dropBlanks
    split
    · exact Nat.le_succ_of_le (ih _)
    · split
      · exact Nat.le_succ_of_le (ih _)
      · split
        · exact Nat.le_succ_of_le (ih _)
        · exact Nat.le_refl _

theorem length_nextPart_le (extended : Bool) (s : List Char) :
    (nextPart extended s).length ≤ s.length := by
  unfold nextPart
  split
  · exact length_dropBlanks_le false s
  · exact Nat.le_refl _

/-! ## Atoms -/

/-- A character that stands for itself. -/
structure Literal where
  char : Char
  /-- It is written as a byte, by two hexadecimal digits. -/
  isByte : Bool := false
  deriving DecidableEq, Repr

def Literal.isAscii (l : Literal) : Bool := l.char.toNat < 128

/-- The least part of a pattern. -/
inductive Atom where
  | literal (l : Literal)
  /-- Any character. -/
  | dot
  /-- An end of the text or of a line. -/
  | anchor
  /-- A place where a word begins or ends, or where none does. -/
  | wordBoundary
  /-- A digit, a blank or a character of words, or any character that is not. -/
  | shorthand (negated : Bool)
  deriving DecidableEq, Repr

/-- The atom is supported in these modes. -/
def Atom.isSupported (m : Modes) : Atom → Bool
  | literal l => if m.unicode then !m.caseless else !l.isByte || l.isAscii
  | dot => m.unicode
  | anchor | wordBoundary => true
  | shorthand negated => !m.unicode && !negated

/-! ## Reading -/

/-- Reads `n` hexadecimal digits, which may have blanks before them in the extended mode. -/
def readHexDigits (extended : Bool) : Nat → List Char → Option (List Char × List Char)
  | 0, s => some ([], s)
  | n + 1, s =>
    match nextPart extended s with
    | [] => none
    | c :: rest =>
      if (Text.digitValue? 16 c).isNone then none
      else (readHexDigits extended n rest).map fun (digits, rest) => (c :: digits, rest)

/-- Reads a character given by the hexadecimal digits of its code point, `n` in number. -/
def readCodePoint (extended : Bool) (n : Nat) (s : List Char) : Option (Atom × List Char) := do
  let (digits, rest) ← readHexDigits extended n s
  let code ← Text.ofDigits? 16 digits
  if code.isValidChar then some (.literal ⟨.ofNat code, n = 2⟩, rest) else none

/-- The character of a backslash and a letter. -/
def escaped? : Char → Option Char
  | 'a' => some '\x07'
  | 'f' => some '\x0c'
  | 't' => some '\t'
  | 'n' => some '\n'
  | 'r' => some '\r'
  | 'v' => some '\x0b'
  | _ => none

/-- Reads what stands behind a backslash. Of the characters of ASCII those that are neither letters
nor digits stand for themselves there. -/
def readEscape (extended : Bool) : List Char → Option (Atom × List Char)
  | [] => none
  | c :: rest =>
    match c with
    | 'x' => readCodePoint extended 2 rest
    | 'u' => readCodePoint extended 4 rest
    | 'U' => readCodePoint extended 8 rest
    | 'd' | 's' | 'w' => some (.shorthand false, rest)
    | 'D' | 'S' | 'W' => some (.shorthand true, rest)
    | 'A' | 'z' => some (.anchor, rest)
    | 'b' | 'B' | '<' | '>' => some (.wordBoundary, rest)
    | c =>
      if c.isAlphanum then (escaped? c).map fun c => (.literal ⟨c, false⟩, rest)
      else if c.toNat < 128 then some (.literal ⟨c, false⟩, rest)
      else none

end DeviceBatch.Logging
