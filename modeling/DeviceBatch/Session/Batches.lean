import DeviceBatch.Session.Reply

/-!
# Commands on batches

Requests are gathered in a list, of which a batch takes the first. While a batch is in progress its
inputs can stand in slots; they leave their slots when the batch ends.

Several batches can be open at a time, over the same requests or over others. One of them is in
progress; the others are set aside together with their inputs until they are resumed.
-/

namespace DeviceBatch

/-- An input to be stored by a request. -/
structure InputSpec where
  name : String
  dtype : ElementType
  shape : Shape
  elements : List Int
  location : Location
  device : Nat
  deriving DecidableEq, Repr

/-- A command on requests, batches and responses. -/
inductive BatchCommand where
  /-- Makes a request and tells about it under the names asked for. -/
  | request (id : Nat) (inputs : List InputSpec) (outputs : List Local.WantedOutput)
      (asked : List String)
  /-- Opens a batch over the first requests, or over all. -/
  | create (count : Option Nat) (settings : BatchSettings) (stream : Stream)
  | describe
  | combinedShape (name : String)
  | getInput (slot name : String) (dtype : ElementType) (location : Location) (device : Nat)
  | getOutput (name : String) (dtype : ElementType) (shape : Shape) (location : Location)
      (device : Nat)
  /-- The output of that name, if its elements are of that type. -/
  | output (name : String) (dtype : ElementType)
  | outputs
  | finalize
  /-- Ends the batch and keeps its responses. -/
  | takeResponses
  | drop
  /-- Sets the batch in progress and its inputs aside. -/
  | setAside (label : String)
  /-- Takes a batch that was set aside up again. -/
  | resume (label : String)
  /-- The responses of the batch in progress, or else those that were kept. -/
  | responses
  /-- The elements of an output of one of those responses. -/
  | response (index : Nat) (name : String) (dtype : ElementType)
  deriving DecidableEq, Repr

namespace BatchCommand

open Session

/-- Stores inputs in a request, one after the other. -/
def storeInputs (r : Local.Request) : List InputSpec → Action Machine Local.Request
  | [] => pure r
  | i :: rest => do
    let r ← r.addInput i.name i.dtype i.shape (i.elements.map i.dtype.ofInt) i.location i.device
    storeInputs r rest

/-- Makes a request; it is not there if one of its inputs cannot be stored. -/
def makeRequest (id : Nat) (inputs : List InputSpec) (outputs : List Local.WantedOutput) :
    Action Session Local.Request := do
  let stored ← onMachine (storeInputs { id } inputs)
  let r := outputs.foldl (fun r o => r.addOutput o.name o.location o.device) stored
  Action.change fun s => { s with requests := s.requests ++ [r] }
  return r

/-- Opens a batch over the first requests, or over all. -/
def openBatch (count : Option Nat) (settings : BatchSettings) (stream : Stream) :
    Action Session Local.Batch := do
  let s ← get
  let requests := s.requests.take (count.getD s.requests.length)
  let sides : Local.Sides := {}
  let b ← (Batch.create Local.exchange requests settings stream).within
    (fun s => (s.machine, sides)) fun (machine, _) s => { s with machine }
  Action.change fun s => { s with batch := some b }
  return b

/-- Ends the batch in progress; `closing` gives back what it holds. -/
def endBatch (closing : Local.Batch → Machine → Machine) : Action Session Local.Batch := do
  let b ← consult currentBatch
  Action.change fun s =>
    { s with
      machine := closing b s.machine
      batch := none
      slots := s.slots.filter fun p => !p.2.isInput }
  return b

/-- Sets the batch in progress aside under a label; its inputs leave their slots with it. -/
def setBatchAside (label : String) : Action Session Unit := do
  let batch ← consult currentBatch
  Action.change fun s =>
    { s with
      batch := none
      slots := s.slots.filter fun p => !p.2.isInput
      aside := s.aside.put label ⟨batch, s.slots.filter fun p => p.2.isInput⟩ }

/-- Takes the batch with that label up again, with its inputs in the slots where they were. -/
def resumeBatch (label : String) : Action Session Unit := do
  let resting ← consult fun s => s.aside.find label
  Action.change fun s =>
    { s with
      batch := some resting.batch
      slots := s.slots ++ resting.inputs
      aside := s.aside.remove label }

/-- The responses that can be looked at. -/
def visibleResponses (s : Session) : List Local.Response :=
  match s.batch with
  | some b => b.responses
  | none => s.kept

/-- The response of that number. -/
def responseAt (index : Nat) (s : Session) : Except Error Local.Response :=
  match (visibleResponses s)[index]? with
  | some r => .ok r
  | none => .error (.internalConsistency (.unknownName ("response " ++ toString index)))

/-- The batch in progress, as long as it is open. -/
def openedBatch (s : Session) : Except Error Local.Batch := do
  let b ← s.currentBatch
  b.ensureOpen
  return b

/-- Performs a command. -/
def run : BatchCommand → Action Session Reply
  | request id inputs wanted asked => do
    let r ← makeRequest id inputs wanted
    return .request r (asked.map r.inputShape) (asked.map r.wants)
  | create count settings stream => return .batch (← openBatch count settings stream)
  | describe => return .batch (← consult currentBatch)
  | combinedShape name => do
    let b ← consult currentBatch
    return .shape (← Action.ofExcept (b.combinedShape Local.exchange name))
  | getInput slot name dtype location device => do
    let t ← onBatch (Batch.getInput Local.exchange name dtype location device)
    store slot (.input t)
    return .tensor t
  | getOutput name dtype shape location device => do
    return .tensor (← onBatch (Batch.getOutput name dtype shape location device))
  | output name dtype => do
    match (← consult openedBatch).output? name with
    | some t => return if t.buffer.dtype = dtype then .tensor t else .absent
    | none => return .absent
  | outputs => return .names ((← consult openedBatch).outputs.map RecordedOutput.name)
  | finalize => do
    onBatch (Batch.finalize Local.exchange)
    return .done
  | takeResponses => do
    let b ← endBatch (Batch.releaseRest Local.exchange)
    Action.change fun s =>
      { s with
        machine := s.kept.foldl (fun m r => r.release m) s.machine
        kept := b.responses }
    return .count b.responses.length
  | drop => do
    let _ ← endBatch (Batch.release Local.exchange)
    return .done
  | setAside label => do
    setBatchAside label
    return .done
  | resume label => do
    resumeBatch label
    return .done
  | responses => return .responses (visibleResponses (← get))
  | response index name dtype => do
    match (← consult (responseAt index)).output? name with
    | none => return .absent
    | some o => return .elements dtype (← onMachine (o.toList dtype))

end BatchCommand

end DeviceBatch
