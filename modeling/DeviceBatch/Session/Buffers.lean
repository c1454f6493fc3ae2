import DeviceBatch.Session.Reply

/-!
# Commands on buffers and tensors

What can be done to buffers and tensors that have names. A command that uses a buffer up takes it
out of its slot before anything else, so it is gone even if the command fails.
-/

namespace DeviceBatch

/-- A command on buffers and tensors. -/
inductive BufferCommand where
  | allocate (slot : String) (dtype : ElementType) (size : Nat) (location : Location)
      (device : Nat) (stream : Stream)
  | ofList (slot : String) (dtype : ElementType) (xs : List Int) (location : Location)
      (device : Nat) (stream : Stream)
  | copyTo (slot : String) (src : Place) (location : Location) (device : Nat)
  | clone (slot : String) (src : Place)
  | moveTo (slot src : String) (location : Location)
  /-- A buffer over elements of another one, which may claim to lie elsewhere. -/
  | borrow (slot : String) (src : Place) (offset size : Nat) (location : Option Location)
      (device : Nat) (stream : Stream)
  | release (slot : String)
  | describe (place : Place)
  | text (place : Place)
  /-- Both start with the same byte of memory. -/
  | sameData (a b : Place)
  | peek (place : Place)
  | toList (place : Place)
  | poke (place : Place) (index : Nat) (xs : List Int)
  | rebind (place : Place) (stream : Stream)
  /-- Copies a range of elements, or all of them if no range is given. -/
  | copy (dst src : Place) (dstOffset : Nat) (range : Option (Nat × Nat))
  | allocateTensor (slot : String) (dtype : ElementType) (shape : Shape) (location : Location)
      (device : Nat) (stream : Stream)
  | toTensor (slot src : String) (shape : Shape)
  | toBuffer (slot src : String)
  deriving DecidableEq, Repr

namespace BufferCommand

open Session

/-- Puts a new buffer into a slot. -/
def keepBuffer (slot : String) (act : Action Session Buffer) : Action Session Reply := do
  let b ← act
  store slot (.buffer b)
  return .buffer b

/-- Puts a new tensor into a slot. -/
def keepTensor (slot : String) (act : Action Session Tensor) : Action Session Reply := do
  let t ← act
  store slot (.tensor t)
  return .tensor t

/-- Copies between two places. The destination is bound to the stream of the source also if the
platform then refuses the copy. -/
def copyBetween (dst src : Place) (dstOffset : Nat) (range : Option (Nat × Nat)) :
    Action Session Reply := do
  let target ← bufferAt dst
  let source ← bufferAt src
  let (srcOffset, srcEnd) := range.getD (0, source.size)
  (source.copyRange dstOffset srcOffset srcEnd).within (fun s => (s.machine, target))
    fun (machine, target) s => bindAt dst target.stream { s with machine }
  return .stream (← bufferAt dst).stream

/-- Performs a command. -/
def run : BufferCommand → Action Session Reply
  | allocate slot dtype size location device stream =>
    keepBuffer slot (onMachine (Buffer.allocate dtype size location device stream))
  | ofList slot dtype xs location device stream =>
    keepBuffer slot (onMachine (Buffer.ofList dtype (xs.map dtype.ofInt) location device stream))
  | copyTo slot src location device => keepBuffer slot do
    onMachine ((← bufferAt src).copyTo location device)
  | clone slot src => keepBuffer slot do onMachine (← bufferAt src).clone
  | moveTo slot src location => keepBuffer slot do
    onMachine ((← take src).data.moveTo location)
  | borrow slot src offset size location device stream => keepBuffer slot do
    let source ← bufferAt src
    return .borrow source.dtype (location.getD source.location) (source.position offset) size
      device stream
  | release slot => do
    changeMachine (← take slot).data.release
    return .done
  | describe place => return .ofResource (← consult (resourceAt place))
  | text place => do
    let r ← consult (resourceAt place)
    return .text (r.text (← get).machine.platform.name)
  | sameData a b => return .flag ((← bufferAt a).data == (← bufferAt b).data)
  | peek place => do
    let b ← bufferAt place
    return .elements b.dtype (← onMachine b.peek)
  | toList place => do
    let b ← bufferAt place
    return .elements b.dtype (← onMachine b.toList)
  | poke place index xs => do
    let b ← bufferAt place
    onMachine (b.poke index (xs.map b.dtype.ofInt))
    return .done
  | rebind place stream => do
    let b ← bufferAt place
    changeMachine fun m => (b.rebind stream m).2
    Action.change (bindAt place stream)
    return .stream stream
  | copy dst src dstOffset range => copyBetween dst src dstOffset range
  | allocateTensor slot dtype shape location device stream =>
    keepTensor slot (onMachine (Tensor.allocate dtype shape location device stream))
  | toTensor slot src shape => keepTensor slot do
    onMachine (Tensor.adopt shape (← take src).data)
  | toBuffer slot src => keepBuffer slot do return (← take src).data

end BufferCommand

end DeviceBatch
