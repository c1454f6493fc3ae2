import DeviceBatch.Buffer

/-!
# Tensors

A tensor is a buffer with a shape that has as many elements as the buffer holds; this is part of the
type. Location, device and stream are those of the buffer.
-/

namespace DeviceBatch

/-- A buffer with a shape for its elements. -/
structure Tensor where
  shape : Shape
  buffer : Buffer
  /-- The shape has as many elements as the buffer. -/
  holds : shape.product? = some buffer.size

namespace Tensor

/-- The text of a tensor on a platform of the given name. -/
def text (t : Tensor) (platform : String) : String :=
  "Tensor \x7b shape: " ++ t.shape.text ++ ", buffer: " ++ t.buffer.text platform ++ " \x7d"

/-- The same tensor bound to a stream, with no regard to work on the present one. -/
def withStream (t : Tensor) (stream : Stream) : Tensor :=
  { t with buffer := { t.buffer with stream } }

/-- The buffer with a shape, if their counts agree. -/
def ofBuffer (shape : Shape) (buffer : Buffer) : Except Error Tensor :=
  match h : shape.product? with
  | none => .error (.shapeMismatch (.countOverflow shape))
  | some count =>
    if hc : count = buffer.size then .ok ⟨shape, buffer, by rw [h, hc]⟩
    else .error (.shapeMismatch (.countMismatch shape count buffer.size))

/-- The same for a buffer that is given away: on failure it is released. -/
def adopt (shape : Shape) (buffer : Buffer) : Action Machine Tensor :=
  (Action.ofExcept (ofBuffer shape buffer)).orElseTidy buffer.release

/-- A tensor that owns new storage, which holds zeros. -/
def allocate (dtype : ElementType) (shape : Shape) (location : Location) (device : Nat)
    (stream : Stream) : Action Machine Tensor :=
  match shape.product? with
  | none => throw (.shapeMismatch (.countOverflow shape))
  | some count => do
    let buffer ← Buffer.allocate dtype count location device stream
    adopt shape buffer

/-- Ends the life of a tensor. -/
def release (t : Tensor) (m : Machine) : Machine := t.buffer.release m

end Tensor

end DeviceBatch
