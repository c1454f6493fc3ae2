import DeviceBatch.Text.Digits

/-!
# Quoted strings in TOML

A string is written between quotes or between apostrophes, and on one line or, with the mark three
times, on several. Between apostrophes all characters stand for themselves; between quotes a
backslash begins an escape.

`quote` chooses among the four forms the first that can do with no other escape than that of a tab
between quotes. Where there is none it escapes all that has to be.
-/

namespace DeviceBatch.Toml

/-! ## Characters -/

/-- The character may stand for itself: it is a tab or no control character. -/
def isPlain (c : Char) : Bool := c == '\t' || (' ' ≤ c && c ≠ '\x7f')

/-- The character whose code has the given hexadecimal digits. -/
def charOfHex? (digits : List Char) : Option Char :=
  match Text.ofDigits? 16 digits with
  | none => none
  | some n => if n.isValidChar then some (Char.ofNat n) else none

/-! ## Reading -/

/-- Puts a character before a text that was read. -/
def push (c : Char) (read : Option (List Char × List Char)) : Option (List Char × List Char) :=
  read.map fun (text, rest) => (c :: text, rest)

/-- The character that a letter after a backslash stands for. -/
def letterEscape? : Char → Option Char
  | 'b' => some '\x08'
  | 't' => some '\t'
  | 'n' => some '\n'
  | 'f' => some '\x0c'
  | 'r' => some '\r'
  | '"' => some '"'
  | '\\' => some '\\'
  | _ => none

/-- Reads an escape whose backslash is already read. -/
def readEscape : List Char → Option (Char × List Char)
  | 'u' :: a :: b :: c :: d :: rest => (charOfHex? [a, b, c, d]).map (·, rest)
  | 'U' :: a :: b :: c :: d :: e :: f :: g :: h :: rest =>
    (charOfHex? [a, b, c, d, e, f, g, h]).map (·, rest)
  | c :: rest => (letterEscape? c).map (·, rest)
  | [] => none

theorem readEscape_length {s rest : List Char} {c : Char} (h : readEscape s = some (c, rest)) :
    rest.length < s.length := by
  unfold readEscape at h
  split at h <;> simp only [Option.map_eq_some_iff, Prod.mk.injEq, reduceCtorEq] at h
  all_goals
    obtain ⟨_, _, _, rfl⟩ := h
    simp only [List.length_cons]
    omega

/-- Reads a string between quotes whose first quote is already read. -/
def readBasic (s : List Char) : Option (List Char × List Char) :=
  match s with
  | [] => none
  | '"' :: rest => some ([], rest)
  | '\\' :: rest =>
    match _h : readEscape rest with
    | none => none
    | some (c, rest') => push c (readBasic rest')
  | c :: rest => if isPlain c then push c (readBasic rest) else none
termination_by s.length
decreasing_by
  · have := readEscape_length _h
    simp only [List.length_cons]
    omega
  · simp

/-- Reads a string between apostrophes whose first apostrophe is already read. -/
def readLiteral : List Char → Option (List Char × List Char)
  | [] => none
  | '\'' :: rest => some ([], rest)
  | c :: rest => if isPlain c then push c (readLiteral rest) else none

/-- A text without the line break at its front. -/
def dropLineBreak : List Char → List Char
  | '\n' :: rest => rest
  | '\r' :: '\n' :: rest => rest
  | s => s

/-- A text without the blanks and line breaks at its front. -/
def dropSpace : List Char → List Char
  | ' ' :: rest | '\t' :: rest | '\n' :: rest | '\r' :: '\n' :: rest => dropSpace rest
  | s => s

theorem length_dropSpace_le (s : List Char) : (dropSpace s).length ≤ s.length := by
  fun_induction dropSpace s <;> grind

/-- What follows a backslash at the end of a line: the next line without its indentation. -/
def continueLine (s : List Char) : Option (List Char) :=
  let line := s.dropWhile fun c => c == ' ' || c == '\t'
  let next := dropLineBreak line
  if next.length < line.length then some (dropSpace next) else none

theorem continueLine_length {s rest : List Char} (h : continueLine s = some rest) :
    rest.length < s.length := by
  simp only [continueLine] at h
  split at h
  · obtain rfl := Option.some.inj h
    refine Nat.lt_of_le_of_lt (length_dropSpace_le _) (Nat.lt_of_lt_of_le ‹_› ?_)
    exact (List.dropWhile_sublist _).length_le
  · simp at h

/-- The end of a string on several lines: up to two more marks belong to the string. -/
def readTail (mark : Char) : List Char → List Char × List Char
  | a :: b :: rest =>
    if a = mark then if b = mark then ([mark, mark], rest) else ([mark], b :: rest)
    else ([], a :: b :: rest)
  | [a] => if a = mark then ([mark], []) else ([], [a])
  | [] => ([], [])

/-- Reads a string on several lines between quotes, after the line break that may come first. -/
def readBasicLines (s : List Char) : Option (List Char × List Char) :=
  match s with
  | [] => none
  | '"' :: '"' :: '"' :: rest => some (readTail '"' rest)
  | '\\' :: rest =>
    match _h : continueLine rest with
    | some rest' => readBasicLines rest'
    | none =>
      match _h' : readEscape rest with
      | none => none
      | some (c, rest') => push c (readBasicLines rest')
  | '\r' :: '\n' :: rest => push '\n' (readBasicLines rest)
  | c :: rest => if isPlain c || c == '\n' then push c (readBasicLines rest) else none
termination_by s.length
decreasing_by
  · have := continueLine_length _h
    simp only [List.length_cons]
    omega
  · have := readEscape_length _h'
    simp only [List.length_cons]
    omega
  · simp only [List.length_cons]
    omega
  · simp

/-- Reads a string on several lines between apostrophes, after the line break that may come
first. -/
def readLiteralLines : List Char → Option (List Char × List Char)
  | [] => none
  | '\'' :: '\'' :: '\'' :: rest => some (readTail '\'' rest)
  | '\r' :: '\n' :: rest => push '\n' (readLiteralLines rest)
  | c :: rest => if isPlain c || c == '\n' then push c (readLiteralLines rest) else none

/-- Reads a string in any of its forms. -/
def readString : List Char → Option (List Char × List Char)
  | '"' :: '"' :: '"' :: rest => readBasicLines (dropLineBreak rest)
  | '"' :: rest => readBasic rest
  | '\'' :: '\'' :: '\'' :: rest => readLiteralLines (dropLineBreak rest)
  | '\'' :: rest => readLiteral rest
  | _ => none

/-! ## Writing -/

/-- A control character that must be escaped wherever it stands. -/
def isCode (c : Char) : Bool := (c < ' ' || c == '\x7f') && c != '\n' && c != '\t'

/-- The length of the longest run of a character; `run` is that of the run before the text, and
`best` that of the longest so far. -/
def longestRunFrom (mark : Char) (run best : Nat) : List Char → Nat
  | [] => max run best
  | c :: rest =>
    if c = mark then longestRunFrom mark (run + 1) best rest
    else longestRunFrom mark 0 (max run best) rest

/-- The length of the longest run of a character. -/
def longestRun (mark : Char) (s : List Char) : Nat := longestRunFrom mark 0 0 s

/-- A hexadecimal digit, in upper case. -/
def hexDigit (n : Nat) : Char :=
  if n < 10 then Char.ofNat ('0'.toNat + n) else Char.ofNat ('A'.toNat + (n - 10))

/-- How a character other than a quote is written where there are escapes. Line breaks stay. -/
def escapeChar (c : Char) : List Char :=
  match c with
  | '\x08' => ['\\', 'b']
  | '\t' => ['\\', 't']
  | '\x0c' => ['\\', 'f']
  | '\r' => ['\\', 'r']
  | '\\' => ['\\', '\\']
  | c =>
    if isCode c then ['\\', 'u', '0', '0', hexDigit (c.toNat / 16), hexDigit (c.toNat % 16)]
    else [c]

/-- The text with escapes. Of a run of quotes as many as `allowed` may stand; `run` is the number
that stand before the text. -/
def escapeFrom (allowed run : Nat) : List Char → List Char
  | [] => []
  | '"' :: rest =>
    if run < allowed then '"' :: escapeFrom allowed (run + 1) rest
    else '\\' :: '"' :: escapeFrom allowed 0 rest
  | c :: rest => escapeChar c ++ escapeFrom allowed 0 rest

/-- The line break that keeps a text on several lines apart from its opening mark. -/
def openingBreak (s : List Char) : List Char := if s.contains '\n' then ['\n'] else []

/-- The written form of a text. -/
def quote (s : List Char) : List Char :=
  let codes := s.any isCode
  let backslashes := s.contains '\\'
  let lines := s.contains '\n'
  let apostrophes := longestRun '\'' s
  let quotes := longestRun '"' s
  if !codes && !backslashes && quotes == 0 && !lines then '"' :: escapeFrom 0 0 s ++ ['"']
  else if !codes && apostrophes == 0 && !lines then '\'' :: s ++ ['\'']
  else if !codes && !backslashes && quotes ≤ 2 then
    ['"', '"', '"'] ++ openingBreak s ++ escapeFrom 2 0 s ++ ['"', '"', '"']
  else if !codes && apostrophes ≤ 2 then
    ['\'', '\'', '\''] ++ openingBreak s ++ s ++ ['\'', '\'', '\'']
  else if lines then ['"', '"', '"', '\n'] ++ escapeFrom 2 0 s ++ ['"', '"', '"']
  else '"' :: escapeFrom 0 0 s ++ ['"']

end DeviceBatch.Toml
