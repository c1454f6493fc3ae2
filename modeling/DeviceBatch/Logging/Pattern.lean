import DeviceBatch.Logging.Pattern.CharacterSet
import DeviceBatch.Text.Letters

/-!
# Patterns

A pattern is read into a tree (`Pattern.ofText?`), and then checked: it must not be nested too deep,
and each atom and each set must be supported in the modes that are on where it stands. Modes are
switched for the rest of the group, or for a group of their own.

Patterns are run by an automaton that has no place for word boundaries of Unicode; `checkPattern`
says so last.
-/

namespace DeviceBatch.Logging

/-- A regular expression as it is written. -/
inductive Pattern where
  | empty
  | atom (a : Atom)
  | set (s : CharacterSet)
  /-- Switches modes for what follows in the same group. -/
  | switch (s : Switches)
  | repeated (p : Pattern)
  /-- A group with modes of its own. -/
  | group (s : Switches) (p : Pattern)
  | concat (parts : List Pattern)
  | alternatives (branches : List Pattern)

/-- What matches something in a pattern. -/
inductive Leaf where
  | atom (a : Atom)
  | set (s : CharacterSet)

namespace Leaf

/-- The leaf is supported in these modes. -/
def isSupported (m : Modes) : Leaf → Bool
  | atom a => a.isSupported m
  | set s => s.isSupported m

/-- The leaf is a word boundary of Unicode. -/
def isUnicodeBoundary (m : Modes) : Leaf → Bool
  | atom .wordBoundary => m.unicode
  | _ => false

end Leaf

namespace Pattern

mutual

/-- How deep a pattern is nested. -/
def depth : Pattern → Nat
  | set s => s.depth
  | repeated p => p.depth + 1
  | group _ p => p.depth + 1
  | concat parts => greatestDepth parts + 1
  | alternatives branches => greatestDepth branches + 1
  | _ => 0

/-- How deep the deepest of some patterns is nested. -/
def greatestDepth : List Pattern → Nat
  | [] => 0
  | p :: ps => max p.depth (greatestDepth ps)

end

mutual

/-- The leaves of a pattern in their order, each with the modes where it stands, and the modes
behind the pattern. -/
def leaves (m : Modes) : Pattern → List (Modes × Leaf) × Modes
  | empty => ([], m)
  | atom a => ([(m, .atom a)], m)
  | set s => ([(m, .set s)], m)
  | switch s => ([], m.switch s)
  | repeated p => p.leaves m
  | group s p => ((p.leaves (m.switch s)).1, m)
  | concat parts => leavesOf m parts
  | alternatives branches => leavesOf m branches

/-- The leaves of several patterns, one behind the other. -/
def leavesOf (m : Modes) : List Pattern → List (Modes × Leaf) × Modes
  | [] => ([], m)
  | p :: ps =>
    let (first, m) := p.leaves m
    let (others, m) := leavesOf m ps
    (first ++ others, m)

end

/-- Several parts as one pattern. -/
def ofParts : List Pattern → Pattern
  | [] => empty
  | [part] => part
  | parts => concat parts

/-- Several alternatives as one pattern. -/
def ofBranches : List Pattern → Pattern
  | [branch] => branch
  | branches => alternatives branches

end Pattern

/-! ## Patterns that are being read -/

/-- A group that is not closed yet. The outermost one is the pattern itself. -/
structure OpenGroup where
  switches : Switches := {}
  /-- The extended mode is on around the group. -/
  extendedAround : Bool := false
  /-- The alternatives that are finished, the last one first. -/
  branches : List Pattern := []
  /-- The parts of the present alternative, the last one first. -/
  parts : List Pattern := []

/-- All that was read in a group. -/
def OpenGroup.content (g : OpenGroup) : Pattern :=
  Pattern.ofBranches (Pattern.ofParts g.parts.reverse :: g.branches).reverse

/-- How far the reading of a pattern has come. -/
structure PatternReader where
  extended : Bool := false
  /-- The names of groups so far; no two groups have the same. -/
  names : List (List Char) := []
  inner : OpenGroup := {}
  outer : List OpenGroup := []

namespace PatternReader

def add (r : PatternReader) (p : Pattern) : PatternReader :=
  { r with inner := { r.inner with parts := p :: r.inner.parts } }

/-- Begins the next alternative. -/
def branch (r : PatternReader) : PatternReader :=
  { r with
    inner :=
      { r.inner with
        branches := Pattern.ofParts r.inner.parts.reverse :: r.inner.branches
        parts := [] } }

/-- Repeats the last part, which must match something. -/
def repeatLast (r : PatternReader) : Option PatternReader :=
  match r.inner.parts with
  | [] | .switch _ :: _ => none
  | p :: parts => some { r with inner := { r.inner with parts := .repeated p :: parts } }

/-- Switches modes for the rest of the group. -/
def switch (r : PatternReader) (s : Switches) : PatternReader :=
  { r.add (.switch s) with extended := s.apply .extended r.extended }

/-- Opens a group. -/
def openGroup (r : PatternReader) (s : Switches) : PatternReader :=
  { r with
    extended := s.apply .extended r.extended
    inner := { switches := s, extendedAround := r.extended }
    outer := r.inner :: r.outer }

/-- Closes a group. -/
def closeGroup (r : PatternReader) : Option PatternReader :=
  match r.outer with
  | [] => none
  | around :: outer =>
    let closed : Pattern := .group r.inner.switches r.inner.content
    some { r with
      extended := r.inner.extendedAround
      inner := { around with parts := closed :: around.parts }
      outer }

/-! ## Reading -/

/-- The characters make the name of a group. -/
def isGroupName : List Char → Bool
  | [] => false
  | c :: rest =>
    (c = '_' || Text.isAlphabetic c) &&
      rest.all fun c => c = '_' || c = '.' || c = '[' || c = ']' || Text.isAlphanumeric c

/-- Opens a group whose name stands before a closing angle bracket. -/
def openNamed (r : PatternReader) (s : List Char) : Option (PatternReader × List Char) :=
  let name := s.takeWhile (· != '>')
  match s.dropWhile (· != '>') with
  | _ :: rest =>
    if isGroupName name && !r.names.contains name then
      some ({ r with names := name :: r.names }.openGroup {}, rest)
    else none
  | [] => none

/-- Reads what stands behind an opening parenthesis up to what is in the group. -/
def readOpening (r : PatternReader) (s : List Char) : Option (PatternReader × List Char) :=
  match s with
  | '?' :: 'P' :: '<' :: rest => r.openNamed rest
  | '?' :: '<' :: rest => r.openNamed rest
  | '?' :: rest =>
    match Switches.read {} false rest with
    | some (s, ':' :: rest) => some (r.openGroup s, rest)
    | some (s, _ :: rest) => if s = {} then none else some (r.switch s, rest)
    | _ => none
  | rest => some (r.openGroup {}, rest)

/-- Reads the next piece of a pattern, which begins with the given character. A question mark behind
an operator of repetition belongs to it. -/
def step (r : PatternReader) (c : Char) (rest : List Char) :
    Option (PatternReader × List Char) :=
  match c with
  | '(' => r.readOpening (nextPart r.extended rest)
  | ')' => r.closeGroup.map fun r => (r, rest)
  | '|' => some (r.branch, rest)
  | '[' => (readSet r.extended rest).map fun (s, rest) => (r.add (.set s), rest)
  | '\\' => (readEscape r.extended rest).map fun (a, rest) => (r.add (.atom a), rest)
  | '?' | '*' | '+' =>
    let rest :=
      match rest with
      | '?' :: rest => rest
      | rest => rest
    r.repeatLast.map fun r => (r, rest)
  | '{' => none
  | '.' => some (r.add (.atom .dot), rest)
  | '^' | '$' => some (r.add (.atom .anchor), rest)
  | c => some (r.add (.atom (.literal ⟨c, false⟩)), rest)

/-- Reads a pattern to its end. -/
def finish (r : PatternReader) (s : List Char) : Option Pattern :=
  match nextPart r.extended s with
  | [] => if r.outer.isEmpty then some r.inner.content else none
  | c :: rest =>
    match r.step c rest with
    | none => none
    | some (r, rest) => if _h : rest.length < s.length then r.finish rest else none
termination_by s.length

end PatternReader

/-- The pattern that is written so. -/
def Pattern.ofText? (s : List Char) : Option Pattern := PatternReader.finish {} s

/-! ## Checking -/

/-- What is wrong with a pattern. -/
inductive PatternFault where
  /-- It cannot be read, or a part of it is not supported. -/
  | malformed
  /-- It looks for word boundaries of Unicode. -/
  | unicodeBoundary
  deriving DecidableEq, Repr

/-- The text of a fault. -/
def PatternFault.message : PatternFault → String
  | malformed => "error building NFA"
  | unicodeBoundary =>
    "unsupported regex feature for DFAs: cannot build DFAs for regexes with Unicode word " ++
      "boundaries; switch to ASCII word boundaries, or heuristically enable Unicode word " ++
      "boundaries or use a different regex engine"

/-- The greatest depth of a pattern. -/
def Pattern.depthLimit : Nat := 250

/-- Refuses what is no pattern that can be used. -/
def checkPattern (s : List Char) : Except PatternFault Unit :=
  match Pattern.ofText? s with
  | none => .error .malformed
  | some p =>
    let leaves := (p.leaves {}).1
    if Pattern.depthLimit < p.depth || !leaves.all fun (m, leaf) => leaf.isSupported m then
      .error .malformed
    else if leaves.any fun (m, leaf) => leaf.isUnicodeBoundary m then .error .unicodeBoundary
    else .ok ()

end DeviceBatch.Logging
