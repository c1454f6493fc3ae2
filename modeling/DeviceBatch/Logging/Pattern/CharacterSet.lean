import DeviceBatch.Logging.Pattern.Atom

/-!
# The character sets of a pattern

A set of characters is written between brackets: characters, ranges, named classes and further sets.
Two sets can be joined by an operator, of which all group to the left and none binds closer than
another.
-/

namespace DeviceBatch.Logging

/-- A set of characters as it is written. -/
inductive CharacterSet where
  | empty
  | literal (l : Literal)
  | range (first last : Literal)
  /-- A class of ASCII characters that has a name. -/
  | named (negated : Bool)
  | shorthand (negated : Bool)
  | bracketed (negated : Bool) (content : CharacterSet)
  | union (parts : List CharacterSet)
  /-- The intersection or a difference of two sets. -/
  | combined (left right : CharacterSet)

namespace CharacterSet

mutual

/-- How deep a set is nested. -/
def depth : CharacterSet → Nat
  | bracketed _ content => content.depth + 1
  | union parts => greatestDepth parts + 1
  | combined left right => max left.depth right.depth + 1
  | _ => 0

/-- How deep the deepest of some sets is nested. -/
def greatestDepth : List CharacterSet → Nat
  | [] => 0
  | part :: parts => max part.depth (greatestDepth parts)

end

mutual

/-- The set is supported in these modes: without Unicode it has characters of ASCII only. -/
def isSupported (m : Modes) : CharacterSet → Bool
  | empty => true
  | literal l => if m.unicode then !m.caseless else l.isAscii
  | range first last => if m.unicode then !m.caseless else first.isAscii && last.isAscii
  | named negated => if m.unicode then !m.caseless else !negated
  | shorthand negated => !m.unicode && !negated
  | bracketed negated content => (m.unicode || !negated) && content.isSupported m
  | union parts => areSupported m parts
  | combined left right => left.isSupported m && right.isSupported m

/-- All sets are supported in these modes. -/
def areSupported (m : Modes) : List CharacterSet → Bool
  | [] => true
  | part :: parts => part.isSupported m && areSupported m parts

end

/-- Several parts as one set. -/
def ofParts : List CharacterSet → CharacterSet
  | [] => empty
  | [part] => part
  | parts => union parts

/-- An atom as a part of a set; places in the text are no characters. -/
def ofAtom? : Atom → Option CharacterSet
  | .literal l => some (literal l)
  | .shorthand negated => some (shorthand negated)
  | _ => none

/-- The range between two characters. -/
def between? : Atom → Atom → Option CharacterSet
  | .literal first, .literal last =>
    if first.char ≤ last.char then some (range first last) else none
  | _, _ => none

end CharacterSet

/-! ## Sets that are being read -/

/-- A bracket that is not closed yet. -/
structure OpenSet where
  negated : Bool
  /-- What stands on the left of the last operator. -/
  left : Option CharacterSet := none
  /-- The parts since then, the last one first. -/
  parts : List CharacterSet := []

namespace OpenSet

def add (o : OpenSet) (part : CharacterSet) : OpenSet := { o with parts := part :: o.parts }

/-- All that was read in this bracket. -/
def content (o : OpenSet) : CharacterSet :=
  let right := CharacterSet.ofParts o.parts.reverse
  match o.left with
  | none => right
  | some left => .combined left right

/-- The bracket after an operator. -/
def operate (o : OpenSet) : OpenSet := { o with left := some o.content, parts := [] }

def close (o : OpenSet) : CharacterSet := .bracketed o.negated o.content

/-- Takes the hyphens at the front of a bracket, which stand for themselves. -/
def readHyphens (extended : Bool) (o : OpenSet) (s : List Char) : OpenSet × List Char :=
  match s with
  | '-' :: rest =>
    readHyphens extended (o.add (.literal ⟨'-', false⟩)) (nextPart extended rest)
  | s => (o, s)
termination_by s.length
decreasing_by exact Nat.lt_succ_of_le (length_nextPart_le extended rest)

/-- Reads from behind an opening bracket up to what is nothing special there: perhaps the sign of
negation, then hyphens or else a closing bracket that stands for itself. -/
def start (extended : Bool) (s : List Char) : OpenSet × List Char :=
  let (o, rest) : OpenSet × List Char :=
    match nextPart extended s with
    | '^' :: rest => ({ negated := true }, nextPart extended rest)
    | rest => ({ negated := false }, rest)
  match rest with
  | ']' :: rest => (o.add (.literal ⟨']', false⟩), rest)
  | rest => readHyphens extended o rest

end OpenSet

/-! ## Reading -/

/-- The names of classes of ASCII characters. -/
def classNames : List String :=
  ["alnum", "alpha", "ascii", "blank", "cntrl", "digit", "graph", "lower", "print", "punct",
    "space", "upper", "word", "xdigit"]

/-- Reads the name of a class, between colons, from behind an opening bracket. -/
def readClassName? (s : List Char) : Option (CharacterSet × List Char) :=
  match s with
  | ':' :: s =>
    let (negated, s) :=
      match s with
      | '^' :: s => (true, s)
      | s => (false, s)
    match s.dropWhile (· != ':') with
    | ':' :: ']' :: rest =>
      if classNames.contains (.ofList (s.takeWhile (· != ':'))) then some (.named negated, rest)
      else none
    | _ => none
  | _ => none

/-- Reads a character or an escape. -/
def readSetAtom (extended : Bool) : List Char → Option (Atom × List Char)
  | [] => none
  | '\\' :: rest => readEscape extended rest
  | c :: rest => some (.literal ⟨c, false⟩, rest)

/-- The character that decides about a hyphen before the text: the next one that is no blank. The
sign that begins a comment is passed over, but the comment is not. -/
def deciding? (extended : Bool) (s : List Char) : Option Char :=
  if extended then
    match s.dropWhile Text.isBlank with
    | '#' :: rest => (rest.dropWhile Text.isBlank).head?
    | rest => rest.head?
  else s.head?

/-- Reads a character, a range or a shorthand. A hyphen makes a range unless the bracket ends behind
it or another hyphen follows. -/
def readSetPart (extended : Bool) (s : List Char) : Option (CharacterSet × List Char) := do
  let (first, rest) ← readSetAtom extended s
  let single := (CharacterSet.ofAtom? first).map fun part => (part, rest)
  match nextPart extended rest with
  | '-' :: behind =>
    let decider := deciding? extended behind
    if decider = some ']' || decider = some '-' then single
    else
      let (last, rest) ← readSetAtom extended (nextPart extended behind)
      (CharacterSet.between? first last).map fun part => (part, rest)
  | _ => single

/-- How far the reading of a set has come. -/
inductive SetProgress where
  | done (set : CharacterSet)
  /-- Brackets are open, the innermost first. -/
  | inside (inner : OpenSet) (outer : List OpenSet)

/-- Reads the next piece of a set. -/
def SetProgress.step (extended : Bool) (inner : OpenSet) (outer : List OpenSet) :
    List Char → Option (SetProgress × List Char)
  | [] => none
  | ']' :: rest =>
    match outer with
    | [] => some (.done inner.close, rest)
    | around :: outer => some (.inside (around.add inner.close) outer, rest)
  | '&' :: '&' :: rest => some (.inside inner.operate outer, rest)
  | '-' :: '-' :: rest => some (.inside inner.operate outer, rest)
  | '~' :: '~' :: rest => some (.inside inner.operate outer, rest)
  | '[' :: rest =>
    match readClassName? rest with
    | some (part, rest) => some (.inside (inner.add part) outer, rest)
    | none =>
      let (opened, rest) := OpenSet.start extended rest
      some (.inside opened (inner :: outer), rest)
  | s => (readSetPart extended s).map fun (part, rest) => (.inside (inner.add part) outer, rest)

/-- Reads on in open brackets up to the end of the outermost one. -/
def readSetFrom (extended : Bool) (inner : OpenSet) (outer : List OpenSet) (s : List Char) :
    Option (CharacterSet × List Char) :=
  match SetProgress.step extended inner outer (nextPart extended s) with
  | none => none
  | some (.done set, rest) => some (set, rest)
  | some (.inside inner outer, rest) =>
    if _h : rest.length < s.length then readSetFrom extended inner outer rest else none
termination_by s.length

/-- Reads a set from behind its opening bracket. -/
def readSet (extended : Bool) (s : List Char) : Option (CharacterSet × List Char) :=
  let (opened, rest) := OpenSet.start extended s
  readSetFrom extended opened [] rest

end DeviceBatch.Logging
