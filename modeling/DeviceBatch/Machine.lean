import DeviceBatch.Action
import DeviceBatch.Event
import DeviceBatch.Memory
import DeviceBatch.Metrics
import DeviceBatch.Platform
import DeviceBatch.Stats

/-!
# Machines

A machine is a platform at work: the memory, the table of live device allocations, the queues of the
streams, and all that has been counted and reported.

Storage is released in one of two ways. Device storage is released only after all queued work has
been done (`drainAll`); host storage is released at once. Draining a queue releases the guards that
it retained, and a guard may itself be device storage. While `drainAll` runs no queue is left to be
drained, so there a guard is released by `releaseIdle`, which does not look at the queues.
-/

namespace DeviceBatch

/-! ## What a machine holds -/

/-- Owned storage: the block it occupies and where it was asked for. -/
structure Allocation where
  block : Nat
  bytes : Nat
  location : Location
  device : Nat
  deriving DecidableEq, Repr

/-- The start of owned storage. -/
def Allocation.pointer (a : Allocation) : Pointer := ⟨a.block, 0⟩

/-- An entry of the table of live device allocations. -/
structure DeviceAllocation where
  block : Nat
  bytes : Nat
  device : Nat
  deriving DecidableEq, Repr

/-- A copy that waits for its stream. -/
structure PendingCopy where
  dst : Pointer
  src : Pointer
  bytes : Nat
  deriving DecidableEq, Repr

/-- The storage on both sides of a copy is live. -/
def PendingCopy.isLive (c : PendingCopy) (memory : Memory) : Bool :=
  memory.holds c.dst c.bytes && memory.holds c.src c.bytes

/-- What a stream keeps alive until it is synchronized. -/
inductive Guard where
  | storage (allocation : Allocation)
  /-- A reference to something that belongs to the caller. -/
  | token (name : String)
  deriving DecidableEq, Repr

/-- The work that waits for a stream: copies in issue order, and what they need. -/
structure StreamQueue where
  copies : List PendingCopy := []
  guards : List Guard := []
  deriving DecidableEq, Repr

/-- The queues of the streams that have one, each once. -/
abbrev Queues := List (Stream × StreamQueue)

/-- A platform at work. -/
structure Machine where
  platform : Platform
  memory : Memory
  /-- The live device allocations. -/
  live : List DeviceAllocation
  /-- The bytes in use, device by device. -/
  used : List Nat
  queues : Queues
  stats : Stats
  metrics : Metrics
  events : Array Event
  /-- The copies that were performed although storage of theirs was not live. What comes of such a
  copy is undefined, so nothing looks at these. -/
  strays : List PendingCopy
  deriving Repr

/-! ## Queues -/

namespace Queues

/-- The queue of a stream, empty if the stream has none. -/
def get (qs : Queues) (s : Stream) : StreamQueue := (qs.lookup s).getD {}

/-- Changes the queue of a stream, which gets one if it had none. -/
def update (s : Stream) (f : StreamQueue → StreamQueue) : Queues → Queues
  | [] => [(s, f {})]
  | (t, q) :: rest => if s = t then (t, f q) :: rest else (t, q) :: update s f rest

/-- Takes the queue of a stream away. -/
def remove (qs : Queues) (s : Stream) : Queues := qs.filter fun p => p.1 ≠ s

end Queues

namespace Machine

/-- A machine that has done nothing yet. -/
def start (platform : Platform) : Machine where
  platform := platform
  memory := .empty
  live := []
  used := List.replicate platform.deviceCount 0
  queues := []
  stats := {}
  metrics := {}
  events := #[]
  strays := []

/-- Reports an event. -/
def emit (m : Machine) (event : Event) : Machine := { m with events := m.events.push event }

/-- The bytes in use on a device; none on a device that does not exist. -/
def bytesInUse (m : Machine) (device : Nat) : Nat := m.used[device]?.getD 0

/-- The references to a token that the queues hold. -/
def tokenCount (m : Machine) (name : String) : Nat :=
  Size.total (m.queues.map fun p => p.2.guards.count (.token name))

/-! ## Counting -/

def recordAllocation (m : Machine) (location : Location) (bytes : Nat) : Machine :=
  { m with
    stats := m.stats.recordAllocation bytes
    metrics := m.metrics.recordAllocation location bytes }

def recordCopy (m : Machine) (kind : CopyKind) (bytes : Nat) : Machine :=
  { m with
    stats := m.stats.recordCopy bytes
    metrics := m.metrics.recordCopy kind bytes }

def recordSynchronization (m : Machine) : Machine :=
  { m with
    stats := m.stats.recordSynchronization
    metrics := m.metrics.recordSynchronization }

/-! ## Allocating -/

/-- The host allocator has no block of this size or more. -/
def hostBlockLimit : Nat := 1 <<< 60

/-- A new block of zero bytes. -/
def hostBlock (m : Machine) (bytes : Nat) : Except Error (Nat × Machine) :=
  if bytes = 0 then .error (.allocation 0 .host 0 .zeroSized)
  else if hostBlockLimit ≤ bytes then .error (.allocation bytes .host 0 .hostExhausted)
  else .ok (m.memory.next, { m with memory := m.memory.alloc (List.replicate bytes 0) })

/-- A new block of zero bytes within the capacity of a device, entered into the table. -/
def deviceBlock (m : Machine) (devices : SimulatedDevices) (bytes device : Nat) :
    Except Error (Nat × Machine) :=
  match m.used[device]? with
  | none => .error (.allocation bytes .device device .noSuchDevice)
  | some used =>
    if devices.capacity < used + bytes then
      .error (.allocation bytes .device device (.outOfDeviceMemory (devices.capacity - used)))
    else
      match m.hostBlock bytes with
      | .error e => .error e
      | .ok (block, m) =>
        .ok (block,
          { m with
            live := m.live ++ [⟨block, bytes, device⟩]
            used := m.used.set device (used + bytes) })

/-- Asks the platform for a block; if it is refused, nothing has changed. -/
def allocate (m : Machine) (bytes : Nat) (location : Location) (device : Nat) :
    Except Error (Nat × Machine) :=
  let found :=
    match location, m.platform with
    | .host, _ => m.hostBlock bytes
    | .device, .host => .error (.allocation bytes .device device .hostOnly)
    | .device, .simulated devices => m.deviceBlock devices bytes device
  match found with
  | .error e => .error e
  | .ok (block, m) => .ok (block, m.recordAllocation location bytes)

/-- Asks for owned storage. Storage of no bytes is given out without asking the platform. -/
def acquire (bytes : Nat) (location : Location) (device : Nat) (m : Machine) :
    Except Error (Allocation × Machine) :=
  if Size.storageLimit < bytes then
    .error (.allocation Size.maximum location device .sizeOverflow)
  else if location.isDevice && !m.platform.hasDeviceMemory then
    .error (.allocation bytes location device (.noDeviceSupport m.platform.name))
  else if bytes = 0 then .ok (⟨Pointer.dangling.block, 0, location, device⟩, m)
  else
    match m.allocate bytes location device with
    | .error e => .error e
    | .ok (block, m) => .ok (⟨block, bytes, location, device⟩, m)

/-! ## Releasing -/

/-- Gives the block of storage back and counts that. -/
def reclaimBlock (m : Machine) (a : Allocation) : Machine :=
  { m with
    memory := m.memory.free a.block
    stats := m.stats.recordDeallocation a.bytes }

/-- Gives storage back without regard to queued work. Device storage must start a live device
allocation. -/
def reclaim (m : Machine) (a : Allocation) : Except Error Machine :=
  match a.location, m.platform with
  | .host, _ => .ok (m.reclaimBlock a)
  | .device, .host => .error (.internalConsistency .hostOnlyRelease)
  | .device, .simulated _ =>
    match m.live.find? fun entry => entry.block == a.block with
    | none => .error (.internalConsistency .unknownAllocation)
    | some entry =>
      .ok ({ m with
        live := m.live.eraseP fun entry => entry.block == a.block
        used := m.used.modify entry.device (· - entry.bytes) }.reclaimBlock a)

/-- Releases storage while no queue holds any work. Storage of no bytes was never asked for, and a
refusal is only reported. -/
def releaseIdle (m : Machine) (a : Allocation) : Machine :=
  if a.bytes = 0 then m
  else
    match m.reclaim a with
    | .ok m => m
    | .error e => m.emit (.releaseFailed e a.bytes a.location)

/-- Lets go of what a stream has kept alive, while no queue holds any work. -/
def dropGuardIdle (m : Machine) : Guard → Machine
  | .storage a => m.releaseIdle a
  | .token _ => m

/-- Performs copies in their order. No copy ends or begins the life of storage, so it can be said
beforehand which of them are strays. -/
def runCopies (m : Machine) (copies : List PendingCopy) : Machine :=
  { m with
    memory := copies.foldl (fun memory c => memory.copy c.dst c.src c.bytes) m.memory
    strays := m.strays ++ copies.filter fun c => !c.isLive m.memory }

/-- Does the work of a queue that has been taken away, while no queue holds any work. -/
def drainIdle (m : Machine) (q : StreamQueue) : Machine :=
  q.guards.foldl dropGuardIdle (m.runCopies q.copies)

/-- Does all queued work, queue by queue. -/
def drainAll (m : Machine) : Machine :=
  (m.queues.map Prod.snd).foldl drainIdle { m with queues := [] }

/-- Waits for all queued work before device storage is given back. -/
def settleFor (m : Machine) (location : Location) : Machine :=
  match location with
  | .host => m
  | .device => m.drainAll

/-- Gives storage back. The queued work is done even if the storage is then refused. -/
def deallocate (a : Allocation) : Action Machine Unit := fun m =>
  let m := m.settleFor a.location
  match m.reclaim a with
  | .ok m => .ok () m
  | .error e => .error e m

/-- Releases storage at the end of its life. -/
def release (m : Machine) (a : Allocation) : Machine :=
  if a.bytes = 0 then m else (m.settleFor a.location).releaseIdle a

/-- Lets go of what a stream has kept alive. -/
def dropGuard (m : Machine) : Guard → Machine
  | .storage a => m.release a
  | .token _ => m

/-! ## Copying and waiting -/

/-- The range lies in one live device allocation. A range that is as long as some storage ends at an
address; one that ends beyond all addresses is not told from others here (`overruns`). -/
def inDeviceAllocation (m : Machine) (p : Pointer) (bytes : Nat) : Bool :=
  match m.live.find? fun entry => entry.block == p.block with
  | none => false
  | some entry => p.offset + bytes ≤ entry.bytes

/-- The range begins in a live device allocation and ends beyond all addresses, wherever that lies,
as no storage starts at address 0. The sum that the check of the range takes is then no machine
word. -/
def overruns (m : Machine) (p : Pointer) (bytes : Nat) : Bool :=
  (m.live.any fun entry => entry.block == p.block && p.offset < entry.bytes) &&
    Size.maximum ≤ p.offset + bytes

/-- A copy does not come to an end: a build that checks its arithmetic stops at the sum. The source
is looked at only if the destination passes, and so large a range of a device does not. -/
def stopsCopy (m : Machine) (kind : CopyKind) (dst src : Pointer) (bytes : Nat) : Bool :=
  if kind.destination.isDevice then m.overruns dst bytes
  else kind.source.isDevice && m.overruns src bytes

/-- Puts a copy at the end of the queue of a stream. -/
def enqueue (m : Machine) (stream : Stream) (c : PendingCopy) : Machine :=
  { m with queues := Queues.update stream (fun q => { q with copies := q.copies ++ [c] }) m.queues }

/-- Asks the platform for a copy; if it is refused, nothing has changed. -/
def copy (kind : CopyKind) (dst src : Pointer) (bytes : Nat) (stream : Stream) (m : Machine) :
    Except Error Machine :=
  match m.platform with
  | .host =>
    if kind.touchesDevice then .error (.platform (.hostOnlyCopy kind))
    else .ok ((m.runCopies [⟨dst, src, bytes⟩]).recordCopy kind bytes)
  | .simulated _ =>
    if bytes = 0 then .ok m
    else if kind.destination.isDevice && !m.inDeviceAllocation dst bytes then
      .error (.platform (.invalidDeviceRange bytes))
    else if kind.source.isDevice && !m.inDeviceAllocation src bytes then
      .error (.platform (.invalidDeviceRange bytes))
    else if m.platform.defers kind then
      .ok ((m.enqueue stream ⟨dst, src, bytes⟩).recordCopy kind bytes)
    else .ok ((m.runCopies [⟨dst, src, bytes⟩]).recordCopy kind bytes)

/-- Does the work that waits for a stream. -/
def drain (m : Machine) (stream : Stream) : Machine :=
  match m.queues.lookup stream with
  | none => m
  | some q =>
    let m := m.emit (.drainedStream stream q.copies.length)
    q.guards.foldl dropGuard ({ m with queues := m.queues.remove stream }.runCopies q.copies)

/-- Waits until all work on a stream is done. -/
def synchronize (m : Machine) (stream : Stream) : Machine :=
  (m.drain stream).recordSynchronization

/-- Keeps something alive until a stream is synchronized. The host platform has nothing to wait for
and lets go at once. -/
def retain (m : Machine) (stream : Stream) (guard : Guard) : Machine :=
  match m.platform with
  | .host => m.dropGuard guard
  | .simulated _ =>
    { m with
      queues := Queues.update stream (fun q => { q with guards := q.guards ++ [guard] }) m.queues }

end Machine

end DeviceBatch
