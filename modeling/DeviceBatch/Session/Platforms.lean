import DeviceBatch.Session.Reply

/-!
# Commands on the platform

What can be asked of the platform itself, past all buffers: storage without an owner, copies in any
direction whatever the storage really is, waiting for streams, and guards.
-/

namespace DeviceBatch

/-- A command on the platform. -/
inductive PlatformCommand where
  | describe
  | synchronize (stream : Stream)
  | allocate (raw : String) (bytes : Nat) (location : Location) (device : Nat)
  /-- Gives storage back, if need be as if it had been allocated elsewhere. -/
  | deallocate (raw : String) (location : Option Location)
  /-- Names the storage of a buffer. -/
  | storageOf (raw : String) (place : Place)
  | write (raw : String) (index : Nat) (bytes : List UInt8)
  | read (raw : String)
  | copy (dst : String) (dstIndex : Nat) (src : String) (srcIndex : Nat) (kind : CopyKind)
      (bytes : Nat) (stream : Stream)
  /-- Lets a stream keep one more reference to a guard. -/
  | retain (guard : String) (stream : Stream)
  | references (guard : String)
  deriving DecidableEq, Repr

namespace PlatformCommand

open Session

/-- Puts storage under a name. -/
def keepRaw (raw : String) (storage : RawStorage) : Action Session Reply := do
  Action.change fun s => { s with raws := s.raws.put raw storage }
  return .done

/-- The storage of that name. -/
def rawNamed (raw : String) : Action Session RawStorage := consult fun s => s.raws.find raw

/-- Performs a command. -/
def run : PlatformCommand → Action Session Reply
  | describe => do
    let s ← get
    return .platform s.machine.platform s.device s.machine.stats.liveAllocations
  | synchronize stream => do
    changeMachine (Machine.synchronize · stream)
    return .done
  | allocate raw bytes location device => do
    let block ← onMachine (Action.attempt (Machine.allocate · bytes location device))
    keepRaw raw ⟨⟨block, 0⟩, bytes, location, device⟩
  | deallocate raw location => do
    let storage ← rawNamed raw
    let allocation := { storage with location := location.getD storage.location }.allocation
    onMachine (Machine.deallocate allocation)
    return .done
  | storageOf raw place => do
    keepRaw raw (.ofBuffer (← bufferAt place))
  | write raw index bytes => do
    let storage ← rawNamed raw
    changeMachine fun m =>
      { m with memory := m.memory.write (storage.data.advance index) bytes }
    return .done
  | read raw => do
    let storage ← rawNamed raw
    return .bytes ((← get).machine.memory.read storage.data storage.bytes)
  | copy dst dstIndex src srcIndex kind bytes stream => do
    let target ← rawNamed dst
    let source ← rawNamed src
    onMachine (Action.step (Machine.copy kind (target.data.advance dstIndex)
      (source.data.advance srcIndex) bytes stream))
    return .done
  | retain guard stream => do
    changeMachine (Machine.retain · stream (.token guard))
    return .count ((← get).machine.tokenCount guard)
  | references guard => return .count ((← get).machine.tokenCount guard)

/-- The program does not get past the command: a build that checks its arithmetic stops in the check
of a device range. -/
def stops (s : Session) : PlatformCommand → Bool
  | copy dst dstIndex src srcIndex kind bytes _ =>
    match s.raws.find dst, s.raws.find src with
    | .ok target, .ok source => s.machine.stopsCopy kind (target.data.advance dstIndex)
      (source.data.advance srcIndex) bytes
    | _, _ => false
  | _ => false

end PlatformCommand

end DeviceBatch
