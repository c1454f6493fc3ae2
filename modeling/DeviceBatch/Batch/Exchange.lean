import DeviceBatch.Tensor

/-!
# Exchanges

A batch leaves to its exchange what depends on how requests are represented: the shapes of their
inputs, gathering an input of all requests into one range of memory, and scattering an output to
their responses. The gathering and the scattering side keep a state of their own, of type `τ`, for
the life of a batch.

Here `ρ` is the type of requests and `σ` that of responses.
-/

namespace DeviceBatch

/-- A request for the data of one input of all requests. -/
structure InputQuery where
  name : String
  /-- The byte length that the combined shape asks for. -/
  byteSize : Nat
  location : Location
  device : Nat
  stream : Stream
  deriving DecidableEq, Repr

/-- Where the data of an input lies. -/
structure CollectedInput where
  /-- The first byte; none if there is nowhere to look. -/
  data : Option Pointer
  byteSize : Nat
  location : Location
  device : Nat
  deriving DecidableEq, Repr

/-- A filled output as the scattering side sees it. -/
structure OutputView where
  name : String
  shape : Shape
  dtype : ElementType
  elementSize : Nat
  data : Option Pointer
  byteSize : Nat
  location : Location
  device : Nat
  stream : Stream
  deriving DecidableEq, Repr

/-- What gathers inputs and scatters outputs. -/
structure Exchange (ρ σ τ : Type) where
  /-- The shape of an input of a request. -/
  inputShape : ρ → String → Except Error Shape
  /-- The response to a request before any output is there. -/
  createResponse : ρ → Except Error σ
  /-- Gets the gathering side ready. -/
  openInputs (pinned : Bool) (stream : Stream) : Action (Machine × τ) Unit
  /-- Gets the scattering side ready. -/
  openOutputs (pinned : Bool) (maximum : Nat) (stream : Stream) : Action (Machine × τ) Unit
  /-- Brings an input of all requests into one range of memory. -/
  collect : List ρ → InputQuery → Action (Machine × τ) CollectedInput
  /-- Hands an output to the responses. -/
  scatter : List ρ → OutputView → Action (Machine × τ × List σ) Unit
  /-- Ends the scattering; the answer says whether the stream has to be waited for. -/
  finish : List ρ → Action (Machine × τ × List σ) Bool
  /-- Gives back what both sides hold. -/
  close : τ → Machine → Machine
  /-- Gives back what a response holds. -/
  dropResponse : σ → Machine → Machine

namespace CollectedInput

/-- The collected data as a borrowed buffer of the queried type, if it lies where it was asked for
and can be read as a whole number of elements. -/
def toBuffer (c : CollectedInput) (dtype : ElementType) (query : InputQuery) :
    Except Error Buffer :=
  if c.location ≠ query.location ∨ query.location = .device ∧ c.device ≠ query.device then
    .error (.internalConsistency
      (.misplacedInput query.name c.location c.device query.location query.device))
  else if c.byteSize = 0 then
    .ok (.borrow dtype c.location .dangling 0 c.device query.stream)
  else
    match c.data with
    | none => .error (.internalConsistency (.nullInput query.name))
    | some data =>
      if data.offset % dtype.width ≠ 0 then
        .error (.internalConsistency (.misalignedInput query.name dtype))
      else if c.byteSize % dtype.width ≠ 0 then
        .error (.shapeMismatch (.partialElement query.name c.byteSize dtype))
      else
        .ok (.borrow dtype c.location data (c.byteSize / dtype.width) c.device query.stream)

end CollectedInput

namespace OutputView

/-- The view of a filled tensor under its name. -/
def ofTensor (name : String) (t : Tensor) : OutputView where
  name := name
  shape := t.shape
  dtype := t.buffer.dtype
  elementSize := t.buffer.dtype.width
  data := some t.buffer.data
  byteSize := t.buffer.byteSize
  location := t.buffer.location
  device := t.buffer.device
  stream := t.buffer.stream

end OutputView

end DeviceBatch
