import DeviceBatch.Config
import DeviceBatch.Text.FileFault
import DeviceBatch.Toml.Printer

/-!
# Configuration documents

A configuration as a TOML document. `toDocument` writes every field; `ofTable?` reads what is there
and takes the defaults for all else, and ignores keys that it does not know.

A section may also be given as an array with its fields in their order. A point in time has parts,
none of which is a field, and so stands for a section of defaults.
-/

namespace DeviceBatch

open Toml

/-! ## Fields -/

namespace Config

/-- The value of a field, or the default if the field is not there; none if it does not fit. -/
def field? {α : Type} (t : Table) (key : String) (default : α) (read : Value → Option α) :
    Option α :=
  match t.lookup key with
  | none => some default
  | some value => read value

/-- A number as a field of a configuration. -/
def size? : Value → Option Nat
  | .integer n => if 0 ≤ n then some n.toNat else none
  | _ => none

def flag? : Value → Option Bool
  | .boolean b => some b
  | _ => none

def text? : Value → Option String
  | .string s => some s
  | _ => none

/-- The value has no parts at all. -/
def isEmptyValue : Value → Bool
  | .array [] | .table _ [] | .rows [] => true
  | _ => false

/-- One of several names; instead of the name there may be a table with nothing but the name as a
key, whose value is empty. -/
def choice? {α : Type} (ofName? : String → Option α) : Value → Option α
  | .string s => ofName? s
  | .table _ [(name, value)] => if isEmptyValue value then ofName? name else none
  | _ => none

/-- The fields of a section. -/
def section? (names : List String) : Value → Option Table
  | .table _ entries => some entries
  | .array items => some (names.zip items)
  | .rows tables => some (names.zip (tables.map (.table .header)))
  | .moment => some []
  | _ => none

/-! ## Reading -/

def simulatedOf? (value : Value) : Option SimulatedDevices := do
  let t ← section? ["device_count", "capacity", "deferred_copies"] value
  let defaults : SimulatedDevices := {}
  return {
    count := ← field? t "device_count" defaults.count size?
    capacity := ← field? t "capacity" defaults.capacity size?
    deferred := ← field? t "deferred_copies" defaults.deferred flag? }

def batchOf? (value : Value) : Option BatchSettings := do
  let t ← section? ["use_pinned_input", "use_pinned_output", "max_batch_size"] value
  let defaults : BatchSettings := {}
  return {
    pinnedInput := ← field? t "use_pinned_input" defaults.pinnedInput flag?
    pinnedOutput := ← field? t "use_pinned_output" defaults.pinnedOutput flag?
    maximum := ← field? t "max_batch_size" defaults.maximum size? }

def loggingOf? (value : Value) : Option LogSettings := do
  let t ← section? ["format", "level", "output_path"] value
  let defaults : LogSettings := {}
  return {
    format := ← field? t "format" defaults.format (choice? LogFormat.ofName?)
    level := ← field? t "level" defaults.level text?
    outputPath := ← field? t "output_path" defaults.outputPath fun v => (text? v).map some }

/-- The configuration that a table describes. -/
def ofTable? (t : Table) : Option Config := do
  let defaults : Config := {}
  return {
    platform := ← field? t "platform" defaults.platform (choice? PlatformKind.ofName?)
    device := ← field? t "device_id" defaults.device size?
    simulated := ← field? t "simulated" defaults.simulated simulatedOf?
    batch := ← field? t "batch" defaults.batch batchOf?
    logging := ← field? t "logging" defaults.logging loggingOf? }

/-- The configuration that a document describes, if it is valid. -/
def ofToml (text : String) : Except Error Config :=
  match (Table.ofText? text).bind ofTable? with
  | none => .error (.config .malformed)
  | some c =>
    match c.validate with
    | .error e => .error e
    | .ok () => .ok c

/-- The configuration in a file, whose bytes are given if it can be read. -/
def ofFile (path : String) (contents : Except Text.FileFault (List UInt8)) :
    Except Error Config :=
  let unreadable (fault : Text.FileFault) := Error.config (.unreadable path fault.message)
  match contents with
  | .error fault => .error (unreadable fault)
  | .ok bytes =>
    match Text.ofBytes? bytes with
    | none => .error (unreadable .notText)
    | some text => ofToml text

/-! ## Writing -/

/-- The document that describes a configuration. -/
def toDocument (c : Config) : PlainDocument where
  top := [("platform", .text c.platform.name), ("device_id", .number c.device)]
  sections :=
    [("simulated",
      [("device_count", .number c.simulated.count), ("capacity", .number c.simulated.capacity),
        ("deferred_copies", .flag c.simulated.deferred)]),
    ("batch",
      [("use_pinned_input", .flag c.batch.pinnedInput),
        ("use_pinned_output", .flag c.batch.pinnedOutput),
        ("max_batch_size", .number c.batch.maximum)]),
    ("logging",
      [("format", .text c.logging.format.name), ("level", .text c.logging.level)] ++
        (c.logging.outputPath.map fun path => ("output_path", Plain.text path)).toList)]

/-- The text of a configuration, if its numbers can be written. -/
def toToml (c : Config) : Except Error String :=
  if c.toDocument.isWritable then .ok c.toDocument.render
  else .error (.config .unwritableNumber)

end Config

end DeviceBatch
