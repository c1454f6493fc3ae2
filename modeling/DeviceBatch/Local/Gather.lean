import DeviceBatch.Local.Request

/-!
# Gathering inputs

The stored inputs of several requests are copied one behind the other into a staging buffer, which
is kept as long as the batch. A single input that already lies where it is wanted is used in place.

On a platform without device memory an input that is asked for on a device is gathered on the host;
whoever asked can tell from where it lies.
-/

namespace DeviceBatch.Local

/-- The gathering side of a batch. -/
structure Gather where
  pinned : Bool := false
  stream : Stream := .standard
  /-- The buffers that hold gathered inputs. -/
  staging : List Buffer := []

namespace Gather

/-- The input lies in the place asked for; host memory is the same for all devices. -/
def liesAt (input : StoredInput) (location : Location) (device : Nat) : Bool :=
  input.data.location == location && (location.isHost || input.data.device == device)

/-- The only part, if it can be used where it lies. -/
def inPlace? (parts : List StoredInput) (location : Location) (device : Nat) :
    Option StoredInput :=
  match parts with
  | [single] => if liesAt single location device then some single else none
  | _ => none

/-- Copies the parts one behind the other into the buffer of the state, from `offset` on. -/
def fillFrom (stream : Stream) (offset : Nat) : List StoredInput → Action (Machine × Buffer) Unit
  | [] => pure ()
  | part :: rest => do
    let source := { part.data with storage := .borrowed part.data.location part.data.data, stream }
    source.copyRange offset 0 source.size
    fillFrom stream (offset + source.size) rest

/-- A new buffer with the parts one behind the other. -/
def concatenate (parts : List StoredInput) (location : Location) (device : Nat)
    (stream : Stream) : Action Machine Buffer := do
  let total := Size.total (parts.map fun part => part.data.byteSize)
  let staging ← Buffer.allocate .uint8 total location device stream
  fun m =>
    match fillFrom stream 0 parts (m, staging) with
    | .ok () (m, staging) => .ok staging m
    | .error e (m, staging) => .error e (staging.release m)

/-- Brings an input of all requests into one range of memory. -/
def collect (requests : List Request) (query : InputQuery) :
    Action (Machine × Gather) CollectedInput := do
  let parts ← Action.ofExcept (requests.mapM fun request => request.input query.name)
  let (m, _) ← get
  let onHost := query.location.isDevice && !m.platform.hasDeviceMemory
  if onHost then
    Action.change fun (m, gather) => (m.emit (.gatheringOnHost query.name), gather)
  let location := if onHost then .host else query.location
  let device := if onHost then 0 else query.device
  match inPlace? parts location device with
  | some single =>
    Action.change fun (m, gather) => (m.emit (.inputInPlace query.name), gather)
    return ⟨some single.data.data, single.data.byteSize, location, device⟩
  | none =>
    let staging ← (concatenate parts location device query.stream).onFirst
    Action.change fun (m, gather) =>
      (m.emit (.gatheredInput query.name parts.length staging.size gather.pinned),
        { gather with staging := gather.staging ++ [staging] })
    return ⟨some staging.data, staging.size, location, device⟩

/-- Gives the staging buffers back. If there are any, the copies into them are done first. -/
def close (gather : Gather) (m : Machine) : Machine :=
  match gather.staging with
  | [] => m
  | staging => staging.foldl (fun m b => b.release m) (m.synchronize gather.stream)

end Gather

end DeviceBatch.Local
