import DeviceBatch.Logging.Field
import DeviceBatch.Size

/-!
# Filter directives of a log

A filter is a list of directives between commas, of which empty ones do not count. A directive is a
level, or names a target, a span or both, perhaps with fields of the span, and may give a level for
them: `target[span{field=value}]=level`.

The scan of a directive leaves out the blanks at its ends, but fields and the level are cut out of
the directive with its blanks, at the places that the scan has counted.
-/

namespace DeviceBatch.Logging

/-- What is wrong with a filter. -/
inductive FilterFault where
  | notALevel
  | notADirective
  | badField (fault : PatternFault)
  deriving DecidableEq, Repr

/-- The text of a fault. -/
def FilterFault.message : FilterFault → String
  | notALevel =>
    "error parsing level filter: expected one of \"off\", \"error\", \"warn\", \"info\", " ++
      "\"debug\", \"trace\", or a number 0-5"
  | notADirective => "invalid filter directive"
  | badField fault => "invalid field filter: " ++ fault.message

/-! ## Levels -/

/-- The names of the levels, from the one that lets nothing pass to the one that lets all pass. -/
def levelNames : List String := ["off", "error", "warn", "info", "debug", "trace"]

/-- The text names a level, by its name in any case or by its number. No text at all stands for a
level of its own. -/
def isLevel (text : String) : Bool :=
  text.isEmpty || levelNames.contains text.toLower ||
    (Size.ofText? text).any (· < levelNames.length)

/-! ## Places in a text -/

/-- A text without its first bytes. -/
def dropBytes : Nat → List Char → List Char
  | _, [] => []
  | 0, s => s
  | n + 1, c :: rest => dropBytes (n + 1 - c.utf8Size) rest

/-- The first bytes of a text. -/
def takeBytes : Nat → List Char → List Char
  | _, [] => []
  | 0, _ => []
  | n + 1, c :: rest => c :: takeBytes (n + 1 - c.utf8Size) rest

/-! ## Scanning -/

/-- What a scan is reading. -/
inductive Stage where
  | start
  /-- A level or a target. -/
  | name
  | span
  /-- A field, which begins at that byte. -/
  | field (first : Nat)
  /-- All fields have been read. -/
  | fields
  /-- The names have been read. -/
  | target
  /-- A level, which begins at that byte. -/
  | level (first : Nat)
  deriving DecidableEq, Repr

/-- Refuses the field between two places of a directive, which must not be empty. -/
def checkFieldAt (directive : List Char) (first last : Nat) : Except FilterFault Unit :=
  if first = last then .error .notADirective
  else (checkField (takeBytes (last - first) (dropBytes first directive))).mapError .badField

/-- The stage after the character of a directive that stands at the given byte. -/
def Stage.step (directive : List Char) (place : Nat) : Stage → Char → Except FilterFault Stage
  | start, '[' => .ok span
  | start, c =>
    if c = '-' || c = ':' || c = '_' || Text.isAlphanumeric c then .ok name
    else .error .notADirective
  | name, '=' => .ok (level (place + 1))
  | name, '[' => .ok span
  | name, _ => .ok name
  | span, ']' => .ok target
  | span, '\x7b' => .ok (field (place + 1))
  | span, _ => .ok span
  | field first, '\x7d' => (checkFieldAt directive first place).map fun _ => fields
  | field first, _ => .ok (field first)
  | fields, ']' => .ok target
  | fields, _ => .error .notADirective
  | target, '=' => .ok (level (place + 1))
  | target, _ => .error .notADirective
  | level first, _ => .ok (level first)

/-- The stage at the end of a text that stands at the given byte. -/
def scan (directive : List Char) (place : Nat) (stage : Stage) :
    List Char → Except FilterFault Stage
  | [] => .ok stage
  | c :: rest =>
    match stage.step directive place c with
    | .error e => .error e
    | .ok stage => scan directive (place + c.utf8Size) stage rest

/-- Refuses what is no directive. -/
def checkDirective (directive : String) : Except FilterFault Unit :=
  match scan directive.toList 0 .start (Text.trim directive).toList with
  | .error e => .error e
  | .ok (.level first) =>
    if isLevel (.ofList (dropBytes first directive.toList)) then .ok () else .error .notALevel
  | .ok .name | .ok .target => .ok ()
  | .ok _ => .error .notADirective

/-- Refuses what is no filter. -/
def checkFilter (filter : String) : Except FilterFault Unit :=
  ((filter.splitOn ",").filter fun directive => !directive.isEmpty).forM checkDirective

end DeviceBatch.Logging
