import DeviceBatch.Local.Request

/-!
# Scattering outputs

An output of a batch is cut along its outermost dimension: each request gets as many rows as it
brought, in the order of the requests. The slices lie one behind the other and cover the output.
A model that does not batch serves one request, which gets the whole output whatever its shape.
-/

namespace DeviceBatch.Local

/-- The part of an output that belongs to one request, in bytes. -/
structure Slice where
  start : Nat
  length : Nat
  shape : Shape
  deriving DecidableEq, Repr

/-- The scattering side of a batch. -/
structure Scatter where
  pinned : Bool := false
  /-- The most requests of one batch; 0 if the model does not batch. -/
  maximum : Nat := 8
  stream : Stream := .standard
  /-- A copy was issued that waits for its stream. -/
  waiting : Bool := false
  deriving DecidableEq, Repr

namespace Scatter

/-- Slices of the given numbers of rows, one behind the other from `start` on. -/
def slicesFrom (rowBytes : Nat) (row : Shape) (start : Nat) : List Nat → List Slice
  | [] => []
  | rows :: rest =>
    ⟨start, rows * rowBytes, rows :: row⟩ ::
      slicesFrom rowBytes row (start + rows * rowBytes) rest

/-- How an output is cut for requests with the given numbers of rows.

All rows together must be below `Size.wordLimit`; only requests with inputs that have no elements
can bring more. The bytes of a row are below it if the output has rows, for they are not more than
the bytes of the output. If it has none their number is only multiplied by 0, but a build that checks
its arithmetic stops where it is no size. -/
def slices (scatter : Scatter) (rows : List Nat) (output : OutputView) :
    Except Error (List Slice) :=
  if scatter.maximum = 0 then .ok [⟨0, output.byteSize, output.shape⟩]
  else
    match output.shape with
    | [] => .error (.shapeMismatch (.scalarOutput output.name))
    | leading :: row =>
      if Size.total rows ≠ leading then
        .error (.shapeMismatch (.rowMismatch output.name leading (Size.total rows)))
      else .ok (slicesFrom ((Shape.product? row).getD 0 * output.elementSize) row 0 rows)

/-- Copies one slice of an output into a new buffer. -/
def copySlice (source : Buffer) (slice : Slice) (location : Location) (device : Nat) :
    Action Machine Buffer := do
  let target ← Buffer.allocate .uint8 slice.length location device source.stream
  fun m =>
    match source.copyRange 0 slice.start (slice.start + slice.length) (m, target) with
    | .ok () (m, target) => .ok target m
    | .error e (m, target) => .error e (target.release m)

/-- Hands its slice of an output to the response with the given number, if the request wants it. -/
def deliver (output : OutputView) (source : Buffer) (index : Nat) (request : Request)
    (slice : Slice) : Action (Machine × Scatter × List Response) Unit := do
  match request.wants output.name with
  | none => pure ()
  | some (location, device) =>
    let data ← (copySlice source slice location device).onFirst
    Action.change fun (m, scatter, responses) =>
      let deferred := m.platform.defers (CopyKind.between location output.location)
      let entry : DeliveredOutput := ⟨output.name, slice.shape, output.dtype, data⟩
      (m, { scatter with waiting := scatter.waiting || (0 < slice.length && deferred) },
        responses.modify index fun r => { r with outputs := r.outputs ++ [entry] })

/-- Hands the slices of an output to the responses from number `index` on. -/
def deliverFrom (output : OutputView) (source : Buffer) (index : Nat) :
    List (Request × Slice) → Action (Machine × Scatter × List Response) Unit
  | [] => pure ()
  | (request, slice) :: rest => do
    deliver output source index request slice
    deliverFrom output source (index + 1) rest

/-- Hands an output to the responses of the requests that want it. -/
def process (requests : List Request) (output : OutputView) :
    Action (Machine × Scatter × List Response) Unit := do
  match output.data with
  | none => throw (.internalConsistency (.nullOutput output.name))
  | some data =>
    let (_, scatter, responses) ← get
    let source := Buffer.borrow .uint8 output.location data output.byteSize output.device
      output.stream
    let slices ← Action.ofExcept (scatter.slices (requests.map Request.rows) output)
    deliverFrom output source 0 ((requests.zip slices).take responses.length)
    Action.change fun (m, rest) =>
      (m.emit (.scatteredOutput output.name requests.length scatter.pinned), rest)

/-- Ends the scattering: the answer says whether a copy still waits for its stream. -/
def finish : Action (Machine × Scatter × List Response) Bool := do
  let (_, scatter, _) ← get
  Action.change fun (m, scatter, responses) => (m, { scatter with waiting := false }, responses)
  return scatter.waiting

end Scatter

end DeviceBatch.Local
