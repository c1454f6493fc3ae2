import DeviceBatch.Batch.Exchange
import DeviceBatch.Batch.Settings
import DeviceBatch.Shape.Combined

/-!
# Batches

A batch joins several requests into one call of a model. Its inputs are read through `getInput`,
which gathers one input of all requests; its outputs are made by `getOutput` and filled by the
model. `finalize` hands the filled outputs to the responses, in the order in which they were made.

A batch is open until the first `finalize`, whatever comes of it, and finalized ever after; a
finalized batch gives out neither inputs nor outputs.
-/

namespace DeviceBatch

/-- Whether a batch still takes inputs and outputs. -/
inductive BatchState where
  | opened
  | finalized
  deriving DecidableEq, Repr

/-- An output that a batch has given out. -/
structure RecordedOutput where
  name : String
  tensor : Tensor

/-- Several requests on their way through one call of a model. -/
structure Batch (ρ σ τ : Type) where
  requests : List ρ
  responses : List σ
  /-- The state of the exchange for this batch. -/
  held : τ
  /-- The outputs given out, in order. -/
  outputs : List RecordedOutput
  stream : Stream
  state : BatchState

namespace Batch

variable {ρ σ τ : Type}

/-- Batches have random identifiers, which are UUIDs of this version. -/
def identifierVersion : Nat := 4

/-! ## Opening -/

/-- Opens a batch over requests. The state is that of the machine and the exchange. -/
def create (X : Exchange ρ σ τ) (requests : List ρ) (settings : BatchSettings) (stream : Stream) :
    Action (Machine × τ) (Batch ρ σ τ) := do
  if requests.isEmpty then throw .emptyBatch
  if settings.requestLimit < requests.length then
    throw (.batchTooLarge requests.length settings.requestLimit)
  let responses ← Action.ofExcept (requests.mapM X.createResponse)
  X.openInputs settings.pinnedInput stream
  (X.openOutputs settings.pinnedOutput settings.maximum stream).orElseTidy
    fun (m, held) => (X.close held m, held)
  let (m, held) ← get
  let m := m.emit (.openedSpan requests.length stream)
  let m := m.emit (.openedBatch m.platform.name)
  set (m, held)
  return { requests, responses, held, outputs := [], stream, state := .opened }

/-! ## Parts of the state -/

/-- An action of the gathering side, on behalf of a batch. -/
def onInputs {α : Type} (act : Action (Machine × τ) α) : Action (Machine × Batch ρ σ τ) α :=
  act.within (fun (m, b) => (m, b.held)) fun (m, held) (_, b) => (m, { b with held })

/-- An action of the scattering side, on behalf of a batch. -/
def onOutputs {α : Type} (act : Action (Machine × τ × List σ) α) :
    Action (Machine × Batch ρ σ τ) α :=
  act.within (fun (m, b) => (m, b.held, b.responses))
    fun (m, held, responses) (_, b) => (m, { b with held, responses })

/-- Refuses a batch that has been finalized. -/
def ensureOpen (b : Batch ρ σ τ) : Except Error Unit :=
  match b.state with
  | .opened => .ok ()
  | .finalized => .error .batchFinalized

section EnsureOpen

variable {b : Batch ρ σ τ}

theorem ensureOpen_eq_ok : b.ensureOpen = .ok () ↔ b.state = .opened := by
  unfold ensureOpen
  cases b.state <;> simp

theorem ensureOpen_eq_error {e : Error} :
    b.ensureOpen = .error e ↔ b.state = .finalized ∧ e = .batchFinalized := by
  unfold ensureOpen
  cases b.state <;> simp [eq_comm]

end EnsureOpen

/-! ## Inputs -/

/-- The shape of an input over all requests. -/
def combinedShape (X : Exchange ρ σ τ) (b : Batch ρ σ τ) (name : String) : Except Error Shape := do
  b.ensureOpen
  let shapes ← b.requests.mapM fun request => X.inputShape request name
  Shape.combine name shapes

section CombinedShape

variable {X : Exchange ρ σ τ} {b : Batch ρ σ τ} {name : String}

theorem combinedShape_of_opened (h : b.state = .opened) : b.combinedShape X name =
    (b.requests.mapM fun request => X.inputShape request name).bind (Shape.combine name) := by
  unfold combinedShape
  rw [ensureOpen_eq_ok.mpr h]
  rfl

theorem combinedShape_of_finalized (h : b.state = .finalized) :
    b.combinedShape X name = .error .batchFinalized := by
  unfold combinedShape
  rw [ensureOpen_eq_error.mpr ⟨h, rfl⟩]
  rfl

/-- Only an open batch has shapes of its inputs. -/
theorem opened_of_combinedShape {shape : Shape} (h : b.combinedShape X name = .ok shape) :
    b.state = .opened := by
  cases hs : b.state with
  | opened => rfl
  | finalized =>
    rw [combinedShape_of_finalized hs] at h
    cases h

end CombinedShape

/-- The byte length of an input of that shape. -/
def inputBytes (name : String) (dtype : ElementType) (shape : Shape) : Except Error Nat :=
  match shape.product? with
  | none => .error (.shapeMismatch (.inputCountOverflow name))
  | some count =>
    match Size.mul? count dtype.width with
    | none => .error (.shapeMismatch (.inputBytesOverflow name))
    | some bytes => .ok bytes

/-- An input of all requests as one tensor, which borrows the storage that the exchange holds. -/
def getInput (X : Exchange ρ σ τ) (name : String) (dtype : ElementType) (location : Location)
    (device : Nat) : Action (Machine × Batch ρ σ τ) Tensor := do
  let (_, b) ← get
  let shape ← Action.ofExcept (b.combinedShape X name)
  let byteSize ← Action.ofExcept (inputBytes name dtype shape)
  let query : InputQuery := { name, byteSize, location, device, stream := b.stream }
  let collected ← onInputs (X.collect b.requests query)
  let buffer ← Action.ofExcept (collected.toBuffer dtype query)
  Action.change fun (m, b) =>
    (m.emit (.collectedInput name shape collected.byteSize location), b)
  Action.ofExcept (Tensor.ofBuffer shape buffer)

/-! ## Outputs -/

/-- A new output of the batch, to be filled by the model. -/
def getOutput (name : String) (dtype : ElementType) (shape : Shape) (location : Location)
    (device : Nat) : Action (Machine × Batch ρ σ τ) Tensor := do
  let (_, b) ← get
  Action.ofExcept b.ensureOpen
  if b.outputs.any (fun o => o.name == name) then throw (.duplicateOutput name)
  let tensor ← (Tensor.allocate dtype shape location device b.stream).onFirst
  Action.change fun (m, b) =>
    (m.emit (.allocatedOutput name shape location),
      { b with outputs := b.outputs ++ [⟨name, tensor⟩] })
  return tensor

/-- The output of that name. -/
def output? (b : Batch ρ σ τ) (name : String) : Option Tensor :=
  (b.outputs.find? fun o => o.name == name).map RecordedOutput.tensor

/-- The batch with an output bound to a stream, with no regard to work on the present one. -/
def withOutputStream (b : Batch ρ σ τ) (name : String) (stream : Stream) : Batch ρ σ τ :=
  { b with
    outputs := b.outputs.map fun o =>
      if o.name = name then { o with tensor := o.tensor.withStream stream } else o }

/-! ## Finalizing -/

/-- Hands all outputs to the responses; the answer says whether the stream has to be waited for. -/
def scatterAll (X : Exchange ρ σ τ) (requests : List ρ) :
    List RecordedOutput → Action (Machine × τ × List σ) Bool
  | [] => X.finish requests
  | o :: rest => do
    X.scatter requests (.ofTensor o.name o.tensor)
    scatterAll X requests rest

/-- Delivers the outputs and waits for the stream of the batch if that is needed, which it always is
after a failure. -/
def flush (X : Exchange ρ σ τ) : Action (Machine × Batch ρ σ τ) Bool := fun (m, b) =>
  match onOutputs (scatterAll X b.requests b.outputs) (m, b) with
  | .ok false (m, b) => .ok false (m, b)
  | .ok true (m, b) => .ok true (m.synchronize b.stream, b)
  | .error e (m, b) => .error e (m.synchronize b.stream, b)

/-- What is recorded of a batch that was delivered. -/
def reportSuccess (requests outputs : Nat) (synchronized : Bool) (m : Machine) : Machine :=
  let m := m.emit (.spanRecord .succeeded)
  let m := m.emit (.spanRecord (.synchronized synchronized))
  let m := { m with metrics := m.metrics.recordFinalized requests synchronized }
  m.emit (.finalizedBatch outputs synchronized)

/-- What is recorded of a batch that could not be delivered. -/
def reportFailure (e : Error) (m : Machine) : Machine :=
  let m := m.emit (.spanRecord .failed)
  let m := m.emit (.spanRecord (.errorMessage e))
  let m := { m with metrics := m.metrics.recordFailure }
  m.emit (.finalizeFailed e)

/-- Delivers the outputs to the responses. A batch is finalized once. -/
def finalize (X : Exchange ρ σ τ) : Action (Machine × Batch ρ σ τ) Unit := fun (m, b) =>
  match b.state with
  | .finalized => .error .doubleFinalize (m, b)
  | .opened =>
    match flush X (m, { b with state := .finalized }) with
    | .ok synchronized (m, b) =>
      .ok () (reportSuccess b.requests.length b.outputs.length synchronized m, b)
    | .error e (m, b) => .error e (reportFailure e m, b)

/-! ## The end of a batch -/

/-- Gives back all that a batch holds besides its responses. -/
def releaseRest (X : Exchange ρ σ τ) (b : Batch ρ σ τ) (m : Machine) : Machine :=
  b.outputs.foldl (fun m o => o.tensor.release m) (X.close b.held m)

/-- Gives back all that a batch holds. -/
def release (X : Exchange ρ σ τ) (b : Batch ρ σ τ) (m : Machine) : Machine :=
  b.releaseRest X (b.responses.foldl (fun m response => X.dropResponse response m) m)

end Batch

end DeviceBatch
