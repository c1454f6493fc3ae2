import DeviceBatch.Toml.Moment
import DeviceBatch.Toml.Number
import DeviceBatch.Toml.Quoted
import DeviceBatch.Toml.Table

/-!
# TOML documents

A document is read in two steps: its text into statements, line by line, and the statements into a
table (`Table.ofStatements`).

Each reader takes a text and answers what it found and the rest of the text. Readers of sequences go
on only while the text gets shorter. Arrays and inline tables can be nested less than `depthLimit`
deep, and a dotted key has less than `depthLimit` parts.
-/

namespace DeviceBatch.Toml

/-- Bounds the nesting of values and the parts of a key. -/
def depthLimit : Nat := 80

/-- What was read, and the rest of the text. -/
abbrev Reader (α : Type) := List Char → Option (α × List Char)

/-! ## Between the tokens -/

def isBlankInLine (c : Char) : Bool := c == ' ' || c == '\t'

/-- The text without the blanks at its front. -/
def dropBlanks (s : List Char) : List Char := s.dropWhile isBlankInLine

/-- The rest of a line may hold blanks and a comment; this is what follows its break. -/
def endLine (s : List Char) : Option (List Char) :=
  let afterComment :=
    match dropBlanks s with
    | '#' :: rest => rest.dropWhile isPlain
    | s => s
  match afterComment with
  | [] => some []
  | '\n' :: rest => some rest
  | '\r' :: '\n' :: rest => some rest
  | _ => none

/-- The text without the blanks, line breaks and comments at its front. A comment has to be ended by
a line break. -/
def dropSpaceAndComments (inComment : Bool) (s : List Char) : Option (List Char) :=
  match inComment, s with
  | _, '\n' :: rest => dropSpaceAndComments false rest
  | _, '\r' :: '\n' :: rest => dropSpaceAndComments false rest
  | false, ' ' :: rest => dropSpaceAndComments false rest
  | false, '\t' :: rest => dropSpaceAndComments false rest
  | false, '#' :: rest => dropSpaceAndComments true rest
  | false, s => some s
  | true, c :: rest => if isPlain c then dropSpaceAndComments true rest else none
  | true, [] => none

/-! ## Keys -/

def isBareKeyChar (c : Char) : Bool :=
  c.isAlphanum || c == '_' || c == '-'

/-- Reads one part of a key. -/
def readSimpleKey (s : List Char) : Option (List Char × List Char) :=
  match s with
  | '"' :: rest => readBasic rest
  | '\'' :: rest => readLiteral rest
  | s =>
    match s.takeWhile isBareKeyChar with
    | [] => none
    | key => some (key, s.dropWhile isBareKeyChar)

/-- Reads the parts of a key, separated by dots. -/
def readKeyParts (s : List Char) : Option (List String × List Char) :=
  match readSimpleKey (dropBlanks s) with
  | none => none
  | some (key, rest) =>
    match dropBlanks rest with
    | '.' :: rest =>
      if _h : rest.length < s.length then
        (readKeyParts rest).map fun (keys, rest) => (String.ofList key :: keys, rest)
      else none
    | rest => some ([String.ofList key], rest)
termination_by s.length

/-- Reads a key. -/
def readKey (s : List Char) : Option (List String × List Char) :=
  (readKeyParts s).filter fun (keys, _) => keys.length < depthLimit

/-! ## Values -/

/-- A character of a value that is not quoted and has no parts. -/
def isTokenChar (c : Char) : Bool :=
  c.isAlphanum || c == '_' || c == '-' || c == '+' || c == '.' || c == ':'

/-- The value that is written so, without blanks. -/
def tokenValue? (token : List Char) : Option Value :=
  if token = ['t', 'r', 'u', 'e'] then some (.boolean true)
  else if token = ['f', 'a', 'l', 's', 'e'] then some (.boolean false)
  else if isMoment token then some .moment
  else
    match integer? token with
    | some n => some (.integer n)
    | none => if isFloat token then some .float else none

/-- Reads a value that is not quoted and has no parts. A date may be joined to a time of day by a
blank. -/
def readToken (s : List Char) : Option (Value × List Char) :=
  let token := s.takeWhile isTokenChar
  let rest := s.dropWhile isTokenChar
  match rest with
  | ' ' :: c :: _ =>
    if isDate token && c.isDigit then
      let time := rest.tail.takeWhile isTokenChar
      if isTimeWithOffset time then some (.moment, rest.tail.dropWhile isTokenChar) else none
    else (tokenValue? token).map (·, rest)
  | _ => (tokenValue? token).map (·, rest)

/-- Reads a value that has no parts. -/
def readScalar (s : List Char) : Option (Value × List Char) :=
  match s with
  | '"' :: _ | '\'' :: _ => (readString s).map fun (text, rest) => (.string (.ofList text), rest)
  | s => readToken s

/-- Reads a key and its value. -/
def readPair (value : Reader Value) (s : List Char) :
    Option ((List String × Value) × List Char) :=
  match readKey s with
  | none => none
  | some (path, rest) =>
    match rest with
    | '=' :: rest => (value (dropBlanks rest)).map fun (v, rest) => ((path, v), rest)
    | _ => none

/-- Reads the items of an array whose opening bracket, or a comma, is already read. -/
def readItems (value : Reader Value) (s : List Char) : Option (List Value × List Char) :=
  match dropSpaceAndComments false s with
  | none => none
  | some (']' :: rest) => some ([], rest)
  | some start =>
    match value start with
    | none => none
    | some (item, rest) =>
      match dropSpaceAndComments false rest with
      | some (']' :: rest) => some ([item], rest)
      | some (',' :: rest) =>
        if _h : rest.length < s.length then
          (readItems value rest).map fun (items, rest) => (item :: items, rest)
        else none
      | _ => none
termination_by s.length

/-- Reads the pairs of an inline table, of which there is at least one. All stand on one line. -/
def readPairs (value : Reader Value) (s : List Char) :
    Option (List (List String × Value) × List Char) :=
  match readPair value s with
  | none => none
  | some (pair, rest) =>
    match dropBlanks rest with
    | '\x7d' :: rest => some ([pair], rest)
    | ',' :: rest =>
      if _h : rest.length < s.length then
        (readPairs value rest).map fun (pairs, rest) => (pair :: pairs, rest)
      else none
    | _ => none
termination_by s.length

/-- Reads an inline table whose opening brace is already read. -/
def readInlineTable (value : Reader Value) (s : List Char) : Option (Value × List Char) :=
  match dropBlanks s with
  | '\x7d' :: rest => some (.table .inline [], rest)
  | _ =>
    match readPairs value s with
    | none => none
    | some (pairs, rest) =>
      (Table.ofPairs pairs).map fun entries => (.table .inline entries, rest)

/-- Reads a value in which others are nested at most `depth` deep. -/
def readValue : (depth : Nat) → Reader Value
  | 0 => readScalar
  | depth + 1 => fun s =>
    match s with
    | '[' :: rest =>
      (readItems (readValue depth) rest).map fun (items, rest) => (.array items, rest)
    | '\x7b' :: rest => readInlineTable (readValue depth) rest
    | s => readScalar s

/-! ## Statements -/

/-- Reads a header whose opening brackets are already read. -/
def readHeader (close : List Char) (s : List Char) : Option (List String × List Char) :=
  match readKey s with
  | none => none
  | some (path, rest) =>
    if close.isPrefixOf rest then some (path, rest.drop close.length) else none

/-- Reads a line, which may say nothing. -/
def readLine (s : List Char) : Option (Option Statement × List Char) :=
  let found : Option (Option Statement × List Char) :=
    match s with
    | '\n' :: _ | '\r' :: _ | '#' :: _ => some (none, s)
    | '[' :: '[' :: rest =>
      (readHeader [']', ']'] rest).map fun (path, rest) => (some (.row path), rest)
    | '[' :: rest =>
      (readHeader [']'] rest).map fun (path, rest) => (some (.table path), rest)
    | s =>
      (readPair (readValue (depthLimit - 1)) s).map fun ((path, value), rest) =>
        (some (.assign path value), rest)
  found.bind fun (statement, rest) => (endLine rest).map fun rest => (statement, rest)

/-- Reads all lines of a text. -/
def readLines (s : List Char) : Option (List Statement) :=
  match dropBlanks s with
  | [] => some []
  | start =>
    match readLine start with
    | none => none
    | some (statement, rest) =>
      if _h : rest.length < s.length then
        (readLines rest).map fun statements => statement.toList ++ statements
      else none
termination_by s.length

/-- The text without a byte order mark at its front. -/
def dropByteOrderMark : List Char → List Char
  | '\ufeff' :: rest => rest
  | s => s

/-- The table that a text describes. -/
def Table.ofText? (text : String) : Option Table :=
  (readLines (dropByteOrderMark text.toList)).bind Table.ofStatements

end DeviceBatch.Toml
