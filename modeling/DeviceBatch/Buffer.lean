import DeviceBatch.Machine

/-!
# Buffers

A buffer is a contiguous range of elements of one type in host or device memory. It owns its
storage, which is then released with the buffer, or borrows storage of somebody else. Where the
storage lies is part of the storage: nothing else says so.

Work on a buffer is issued on its stream. A copy between buffers first brings the destination onto
the stream of the source, so that all work on a buffer is always on the stream that it is bound to.
-/

namespace DeviceBatch

/-- Storage with its ownership. -/
inductive Storage where
  /-- Storage of somebody else, who keeps it alive and says where it lies. -/
  | borrowed (location : Location) (data : Pointer)
  /-- Storage that goes with the buffer. -/
  | owned (allocation : Allocation)
  deriving DecidableEq, Repr

/-- A range of elements in memory. -/
structure Buffer where
  storage : Storage
  dtype : ElementType
  /-- The number of elements. -/
  size : Nat
  device : Nat
  stream : Stream
  deriving DecidableEq, Repr

/-! ## What a buffer is -/

namespace Storage

def location : Storage → Location
  | borrowed location _ => location
  | owned allocation => allocation.location

/-- Where the first element lies. -/
def data : Storage → Pointer
  | borrowed _ data => data
  | owned allocation => allocation.pointer

def isOwned : Storage → Bool
  | borrowed .. => false
  | owned _ => true

/-- Borrowed before owned, host before device, counted from 0. -/
def tag : Storage → Nat
  | borrowed .host _ => 0
  | borrowed .device _ => 1
  | owned ⟨_, _, .host, _⟩ => 2
  | owned ⟨_, _, .device, _⟩ => 3

end Storage

namespace Buffer

def location (b : Buffer) : Location := b.storage.location

def data (b : Buffer) : Pointer := b.storage.data

def byteSize (b : Buffer) : Nat := b.size * b.dtype.width

def isEmpty (b : Buffer) : Bool := b.size == 0

/-- The position of an element. -/
def position (b : Buffer) (index : Nat) : Pointer := b.data.advance (index * b.dtype.width)

/-- The text of a buffer on a platform of the given name. -/
def text (b : Buffer) (platform : String) : String :=
  "Buffer \x7b dtype: \"" ++ b.dtype.name ++ "\", size: " ++ toString b.size ++ ", location: " ++
    b.location.title ++ ", owned: " ++ Event.flag b.storage.isOwned ++ ", device_id: " ++
    toString b.device ++ ", stream: " ++ b.stream.text ++ ", platform: \"" ++ platform ++ "\" \x7d"

/-- A buffer over storage of somebody else. -/
def borrow (dtype : ElementType) (location : Location) (data : Pointer) (size device : Nat)
    (stream : Stream) : Buffer :=
  ⟨.borrowed location data, dtype, size, device, stream⟩

/-! ## Allocating and releasing -/

/-- A buffer that owns new storage, which holds zeros. -/
def allocate (dtype : ElementType) (size : Nat) (location : Location) (device : Nat)
    (stream : Stream) : Action Machine Buffer := do
  let allocation ← Action.attempt (Machine.acquire (size * dtype.width) location device)
  Action.change (Machine.emit · (.allocatedBuffer size dtype location device))
  return ⟨.owned allocation, dtype, size, device, stream⟩

/-- Ends the life of a buffer; borrowed storage stays. -/
def release (b : Buffer) (m : Machine) : Machine :=
  match b.storage with
  | .borrowed .. => m
  | .owned allocation => m.release allocation

/-! ## Contents -/

/-- The bytes of a buffer as they are now, wherever it lies. -/
def bytes (b : Buffer) (m : Machine) : List UInt8 := m.memory.read b.data b.byteSize

/-- The elements of a buffer as they are now, wherever it lies. -/
def contents (b : Buffer) (m : Machine) : List b.dtype.Value := b.dtype.decode (b.bytes m)

/-- Only host storage can be looked at or written directly. -/
def ensureHost (b : Buffer) : Except Error Unit :=
  match b.location with
  | .host => .ok ()
  | .device => .error (.notHostAccessible .device)

/-- The elements of a host buffer as they are now; nothing is waited for. -/
def peek (b : Buffer) : Action Machine (List b.dtype.Value) := do
  Action.ofExcept b.ensureHost
  return b.contents (← get)

/-- Overwrites the bytes of a buffer from an element on. -/
def storeBytes (b : Buffer) (index : Nat) (bytes : List UInt8) (m : Machine) : Machine :=
  { m with memory := m.memory.write (b.position index) bytes }

/-- Overwrites the elements of a host buffer from `index` on; nothing is waited for, and elements
that do not fit are not written. -/
def poke (b : Buffer) (index : Nat) (xs : List b.dtype.Value) : Action Machine Unit := do
  Action.ofExcept b.ensureHost
  if index + xs.length ≤ b.size then
    Action.change (b.storeBytes index (b.dtype.encode xs))

/-! ## Streams -/

/-- Binds a buffer to another stream, after all work on the present one is done. -/
def rebind (b : Buffer) (stream : Stream) (m : Machine) : Buffer × Machine :=
  ({ b with stream }, (m.emit (.reboundStream b.stream stream)).synchronize b.stream)

/-! ## Copies -/

/-- Issues the copy of a range of bytes; an empty range is not even reported. -/
def transfer (dst : Location) (dstData : Pointer) (src : Location) (srcData : Pointer)
    (bytes : Nat) (stream : Stream) : Action Machine Unit :=
  if bytes = 0 then pure ()
  else do
    let kind := CopyKind.between dst src
    Action.change (Machine.emit · (.bufferCopy kind bytes stream))
    Action.step (Machine.copy kind dstData srcData bytes stream)

/-- A new owned buffer with the same elements, on the same stream. The storage is always new, also
where the location is the same. -/
def copyTo (b : Buffer) (location : Location) (device : Nat) : Action Machine Buffer := do
  let result ← allocate b.dtype b.size location device b.stream
  (transfer location result.data b.location b.data b.byteSize b.stream).orElseTidy result.release
  return result

/-- A new owned buffer with the same elements in the same place. -/
def clone (b : Buffer) : Action Machine Buffer := b.copyTo b.location b.device

/-- Lets go of the source of a copy. A source that a waiting copy still has to read is kept by its
stream. -/
def retire (b : Buffer) (kind : CopyKind) (m : Machine) : Machine :=
  if 0 < b.size && m.platform.defers kind then
    match b.storage with
    | .borrowed .. => m
    | .owned allocation => m.retain b.stream (.storage allocation)
  else b.release m

/-- The same elements in another location; the buffer itself is used up, also on failure. Where the
location is the same, the buffer is its own result. -/
def moveTo (b : Buffer) (location : Location) : Action Machine Buffer :=
  if b.location = location then pure b
  else do
    let result ← (b.copyTo location b.device).orElseTidy b.release
    Action.change (b.retire (CopyKind.between location b.location))
    return result

/-- A new buffer that holds the given bytes, which are elements of the given type. They are staged
on the host first, so that nobody else has to keep them. -/
def ofBytes (dtype : ElementType) (size : Nat) (bytes : List UInt8) (location : Location)
    (device : Nat) (stream : Stream) : Action Machine Buffer := do
  let staged ← allocate dtype size .host device stream
  Action.change (staged.storeBytes 0 bytes)
  staged.moveTo location

/-- A new buffer that holds the given elements. -/
def ofList (dtype : ElementType) (xs : List dtype.Value) (location : Location) (device : Nat)
    (stream : Stream) : Action Machine Buffer :=
  ofBytes dtype xs.length (dtype.encode xs) location device stream

/-- The bytes of a buffer after the work on its stream is done. -/
def fetchBytes (b : Buffer) : Action Machine (List UInt8) :=
  match b.location with
  | .host => do
    Action.change (Machine.synchronize · b.stream)
    return b.bytes (← get)
  | .device => do
    let host ← b.copyTo .host b.device
    Action.change (Machine.synchronize · b.stream)
    let bytes := host.bytes (← get)
    Action.change host.release
    return bytes

/-- The elements of a buffer after the work on its stream is done. -/
def toList (b : Buffer) : Action Machine (List b.dtype.Value) := do
  return b.dtype.decode (← b.fetchBytes)

/-- The source range lies in the source and fits into the destination after the offset. -/
def inRange (dst src : Buffer) (dstOffset srcOffset srcEnd : Nat) : Bool :=
  srcOffset ≤ srcEnd && srcEnd ≤ src.size && dstOffset ≤ dst.size &&
    srcEnd - srcOffset ≤ dst.size - dstOffset

/-- Copies the elements `srcOffset` to `srcEnd` of `src` into the destination from `dstOffset` on.
The destination is the buffer in the state: it is first bound to the stream of the source, and stays
so even if the platform then refuses the copy. -/
def copyRange (src : Buffer) (dstOffset srcOffset srcEnd : Nat) :
    Action (Machine × Buffer) Unit := fun (m, dst) =>
  if !inRange dst src dstOffset srcOffset srcEnd then
    .error (.range dstOffset srcOffset srcEnd src.size dst.size) (m, dst)
  else
    let (dst, m) := if dst.stream = src.stream then (dst, m) else dst.rebind src.stream m
    let issued := transfer dst.location (dst.position dstOffset) src.location
      (src.position srcOffset) ((srcEnd - srcOffset) * src.dtype.width) dst.stream
    Action.onFirst issued (m, dst)

end Buffer

end DeviceBatch
