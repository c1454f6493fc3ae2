import DeviceBatch.Batch
import DeviceBatch.Named

/-!
# Scripted exchanges

An exchange that does nothing by itself: all its answers are given in advance by a script, and it
notes every call with what the batch asked for. With it a batch can be tried on collaborators that
fail or answer nonsense.
-/

namespace DeviceBatch.Scripted

/-- A request whose answers are given. -/
structure Request where
  /-- The shapes of its inputs; an input that is not listed is missing. -/
  shapes : Named (Except Error Shape) := []
  /-- Why no response can be made. -/
  responseError : Option Error := none

/-- What the exchange answers. What is left out is taken from the query. -/
structure Script where
  openInputsError : Option Error := none
  openOutputsError : Option Error := none
  collectError : Option Error := none
  /-- Where in the pool the data of all inputs begins; nowhere if left out. -/
  offset : Option Nat := none
  byteSize : Option Nat := none
  location : Option Location := none
  device : Option Nat := none
  /-- Why outputs of some names cannot be scattered. -/
  scatterErrors : Named Error := []
  finish : Except Error Bool := .ok false

/-- A call of the exchange. -/
inductive Call where
  | openInputs (pinned : Bool) (stream : Stream)
  | openOutputs (pinned : Bool) (maximum : Nat) (stream : Stream)
  | collect (query : InputQuery) (requests : Nat)
  | scatter (output : OutputView) (requests responses : Nat)
  | finish (requests responses : Nat)
  deriving DecidableEq, Repr

/-- A batch over a script. -/
abbrev Batch : Type := DeviceBatch.Batch Request Unit (List Call)

/-! ## The pool -/

/-- The bytes of the pool that all inputs are taken from: the remainders modulo 251. -/
def poolBytes : List UInt8 := (List.range 4096).map fun i => UInt8.ofNat (i % 251)

/-- A platform where nothing has been done, with a pool that no platform call has allocated. -/
def start (platform : Platform) : Machine :=
  let m := Machine.start platform
  { m with memory := m.memory.alloc poolBytes }

/-- The block of the pool. -/
def poolBlock : Nat := 1

/-! ## Calls -/

/-- Notes a call. -/
def note {σ : Type} (call : Call) : Action (Machine × List Call × σ) Unit :=
  Action.change fun (m, calls, s) => (m, calls ++ [call], s)

/-- Notes a call and fails if the script says so. -/
def answer (call : Call) (error : Option Error) : Action (Machine × List Call) Unit := do
  Action.change fun (m, calls) => (m, calls ++ [call])
  match error with
  | some e => throw e
  | none => pure ()

/-- What the script delivers for an input. -/
def delivery (script : Script) (query : InputQuery) : CollectedInput where
  data := script.offset.map fun offset => ⟨poolBlock, offset⟩
  byteSize := script.byteSize.getD query.byteSize
  location := script.location.getD query.location
  device := script.device.getD query.device

/-- The exchange that follows a script. -/
def exchange (script : Script) : Exchange Request Unit (List Call) where
  inputShape request name :=
    match request.shapes.lookup name with
    | some shape => shape
    | none => .error (.missingInput name none)
  createResponse request :=
    match request.responseError with
    | some e => .error e
    | none => .ok ()
  openInputs pinned stream := answer (.openInputs pinned stream) script.openInputsError
  openOutputs pinned maximum stream :=
    answer (.openOutputs pinned maximum stream) script.openOutputsError
  collect requests query := do
    answer (.collect query requests.length) script.collectError
    return delivery script query
  scatter requests output := do
    let (_, _, responses) ← get
    note (.scatter output requests.length responses.length)
    match script.scatterErrors.lookup output.name with
    | some e => throw e
    | none => pure ()
  finish requests := do
    let (_, _, responses) ← get
    note (.finish requests.length responses.length)
    Action.ofExcept script.finish
  close _ m := m
  dropResponse _ m := m

end DeviceBatch.Scripted
