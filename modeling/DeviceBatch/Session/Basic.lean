import DeviceBatch.Config
import DeviceBatch.Local.Exchange
import DeviceBatch.Named

/-!
# The state of a session

A session is a machine at the hands of a user who gives names to what is made on it: buffers and
tensors, storage taken from the platform directly, requests, a batch in progress, batches that were
set aside for another one, and the responses of batches that are done.
-/

namespace DeviceBatch

/-- What a slot holds. -/
inductive Resource where
  | buffer (b : Buffer)
  | tensor (t : Tensor)
  /-- An input of the batch in progress, which goes with the batch. -/
  | input (t : Tensor)

/-- How a command names a buffer. -/
inductive Place where
  | slot (name : String)
  /-- The output of that name of the batch in progress. -/
  | output (name : String)
  deriving DecidableEq, Repr

/-- A range of storage without an owner. -/
structure RawStorage where
  data : Pointer
  bytes : Nat
  location : Location
  device : Nat
  deriving DecidableEq, Repr

/-- A batch that was set aside, with its inputs. -/
structure RestingBatch where
  batch : Local.Batch
  inputs : Named Resource

/-- A machine and all that has a name on it. -/
structure Session where
  machine : Machine
  /-- The device that a model should place its tensors on. -/
  device : Nat
  slots : Named Resource := []
  raws : Named RawStorage := []
  requests : List Local.Request := []
  batch : Option Local.Batch := none
  /-- The batches that were set aside, each under a label. -/
  aside : Named RestingBatch := []
  /-- The responses of the last batch that gave its responses back. -/
  kept : List Local.Response := []
  /-- A gathering side of its own, apart from any batch. -/
  gather : Option Local.Gather := none
  /-- A scattering side of its own, apart from any batch. -/
  scatter : Option Local.Scatter := none

namespace Resource

/-- The buffer with the elements. -/
def data : Resource → Buffer
  | buffer b => b
  | tensor t | input t => t.buffer

/-- The same with its buffer bound to a stream, with no regard to work on the present one. -/
def withStream (stream : Stream) : Resource → Resource
  | buffer b => buffer { b with stream }
  | tensor t => tensor (t.withStream stream)
  | input t => input (t.withStream stream)

/-- The text of what a slot holds, on a platform of the given name. -/
def text (r : Resource) (platform : String) : String :=
  match r with
  | buffer b => b.text platform
  | tensor t => t.text platform
  | input t => "InputTensor(" ++ t.text platform ++ ")"

def isInput : Resource → Bool
  | input _ => true
  | _ => false

end Resource

namespace RawStorage

/-- The storage of a buffer. -/
def ofBuffer (b : Buffer) : RawStorage := ⟨b.data, b.byteSize, b.location, b.device⟩

/-- The storage as one that can be given back. Only the start of a block can be; any other position
is like storage that was never given out. -/
def allocation (raw : RawStorage) : Allocation :=
  ⟨if raw.data.offset = 0 then raw.data.block else Pointer.dangling.block, raw.bytes,
    raw.location, raw.device⟩

end RawStorage

namespace Session

/-- A session on a platform where nothing has been done. -/
def start (platform : Platform) (device : Nat) : Session := { machine := .start platform, device }

/-- A session on the platform that a configuration asks for, where tensors are placed on its
device. -/
def ofConfig (c : Config) : Except Error Session := do
  return start (← c.buildPlatform) c.device

/-! ## Working on parts -/

/-- An action on the machine of a session. -/
def onMachine {α : Type} (act : Action Machine α) : Action Session α :=
  act.within machine fun machine s => { s with machine }

/-- A change of the machine of a session. -/
def changeMachine (f : Machine → Machine) : Action Session Unit := onMachine (Action.change f)

/-- A look at a session that may fail. -/
def consult {α : Type} (f : Session → Except Error α) : Action Session α := fun s =>
  match f s with
  | .ok a => .ok a s
  | .error e => .error e s

/-- The batch in progress. -/
def currentBatch (s : Session) : Except Error Local.Batch :=
  match s.batch with
  | some b => .ok b
  | none => .error (.internalConsistency (.unknownName "batch"))

/-- An action on the batch in progress. -/
def onBatch {α : Type} (act : Action (Machine × Local.Batch) α) : Action Session α := do
  let b ← consult currentBatch
  act.within (fun s => (s.machine, b)) fun (machine, b) s => { s with machine, batch := some b }

/-! ## Slots -/

/-- What a slot holds. -/
def held (name : String) (s : Session) : Except Error Resource := s.slots.find name

/-- Puts something into a slot. -/
def store (name : String) (r : Resource) : Action Session Unit :=
  Action.change fun s => { s with slots := s.slots.put name r }

/-- Takes something out of its slot. -/
def take (name : String) : Action Session Resource := do
  let r ← consult (held name)
  Action.change fun s => { s with slots := s.slots.remove name }
  return r

/-- What a place stands for. The outputs of a batch can be reached as long as it is open. -/
def resourceAt (place : Place) (s : Session) : Except Error Resource :=
  match place with
  | .slot name => s.held name
  | .output name => do
    let b ← s.currentBatch
    b.ensureOpen
    match b.output? name with
    | some t => .ok (.buffer t.buffer)
    | none => .error (.internalConsistency (.unknownName name))

/-- The buffer at a place. -/
def bufferAt (place : Place) : Action Session Buffer := do
  return (← consult (resourceAt place)).data

/-- Notes that the buffer at a place is now bound to a stream. -/
def bindAt (place : Place) (stream : Stream) (s : Session) : Session :=
  match place with
  | .slot name =>
    match s.slots.lookup name with
    | some r => { s with slots := s.slots.put name (r.withStream stream) }
    | none => s
  | .output name => { s with batch := s.batch.map fun b => b.withOutputStream name stream }

end Session

end DeviceBatch
