import DeviceBatch.Batch.Exchange

/-!
# Requests and responses in memory

A request that stores its inputs in buffers of its own, and a response that collects its outputs in
buffers of its own. A stored input keeps its bytes and its shape, not its element type.

A request says which outputs it wants, and where; one that says nothing wants them all on the host.
The number of rows of a request is the outermost dimension of its first input.
-/

namespace DeviceBatch.Local

/-! ## Requests -/

/-- An input as a request stores it. -/
structure StoredInput where
  name : String
  shape : Shape
  data : Buffer

/-- An output that a request wants, and where. -/
structure WantedOutput where
  name : String
  location : Location
  device : Nat
  deriving DecidableEq, Repr

/-- A request with its inputs. -/
structure Request where
  id : Nat
  inputs : List StoredInput := []
  wanted : List WantedOutput := []

namespace Request

/-- Ends the life of a request. -/
def release (r : Request) (m : Machine) : Machine :=
  r.inputs.foldl (fun m input => input.data.release m) m

/-- Stores an input; on failure the whole request is given up. The data is there when this is
done. -/
def addInput (r : Request) (name : String) (dtype : ElementType) (shape : Shape)
    (xs : List dtype.Value) (location : Location) (device : Nat) : Action Machine Request :=
  Action.orElseTidy
    (if shape.product? ≠ some xs.length then
      throw (.shapeMismatch (.inputData name shape xs.length))
    else do
      let bytes := dtype.encode xs
      let data ← Buffer.ofBytes .uint8 bytes.length bytes location device .standard
      Action.change (Machine.synchronize · data.stream)
      return { r with inputs := r.inputs ++ [⟨name, shape, data⟩] })
    r.release

/-- Asks for an output in a place. -/
def addOutput (r : Request) (name : String) (location : Location) (device : Nat) : Request :=
  { r with wanted := r.wanted ++ [⟨name, location, device⟩] }

/-- The number of rows that the request adds to a batch. -/
def rows (r : Request) : Nat :=
  match r.inputs with
  | { shape := rows :: _, .. } :: _ => rows
  | _ => 1

/-- Where the request wants an output, if it wants it. -/
def wants (r : Request) (output : String) : Option (Location × Nat) :=
  match r.wanted with
  | [] => some (.host, 0)
  | wanted => (wanted.find? fun w => w.name == output).map fun w => (w.location, w.device)

/-- The first input of that name. -/
def input (r : Request) (name : String) : Except Error StoredInput :=
  match r.inputs.find? fun i => i.name == name with
  | some i => .ok i
  | none => .error (.missingInput name (some r.id))

/-- The shape of the first input of that name. -/
def inputShape (r : Request) (name : String) : Except Error Shape :=
  (r.input name).map StoredInput.shape

end Request

/-! ## Responses -/

/-- The part of an output that belongs to one request. -/
structure DeliveredOutput where
  name : String
  shape : Shape
  dtype : ElementType
  /-- The bytes of the elements. -/
  data : Buffer

/-- The response to a request. -/
structure Response where
  request : Nat
  outputs : List DeliveredOutput := []

namespace DeliveredOutput

/-- The elements of an output, which have to be read as what they are. -/
def toList (o : DeliveredOutput) (dtype : ElementType) : Action Machine (List dtype.Value) := do
  if dtype ≠ o.dtype then throw (.internalConsistency (.outputType o.dtype dtype))
  return dtype.decode (← o.data.fetchBytes)

end DeliveredOutput

namespace Response

/-- The response to a request before anything is delivered. -/
def empty (r : Request) : Response := { request := r.id }

/-- The first output of that name. -/
def output? (r : Response) (name : String) : Option DeliveredOutput :=
  r.outputs.find? fun o => o.name == name

/-- Ends the life of a response. -/
def release (r : Response) (m : Machine) : Machine :=
  r.outputs.foldl (fun m o => o.data.release m) m

end Response

end DeviceBatch.Local
