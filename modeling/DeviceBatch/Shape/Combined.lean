import DeviceBatch.Error

/-!
# The shape of a batched input

The inputs of several requests are laid one after the other along the outermost dimension. Their
shapes must agree in all other dimensions; the combined shape has the sum of the outermost
dimensions in front of the common rest.

The shapes are taken one request at a time, so that a fault names the first request at which the
prefix stops being combinable. A shape is compared with what has been combined before it.
-/

namespace DeviceBatch.Shape

/-- Puts the shape of request `index` after what the requests before it combine to. A combined
shape is never a scalar, so it is kept as the number of rows and the shape of a row. -/
def extend (input : String) (index : Nat) :
    Option (Nat × Shape) → Shape → Except Error (Nat × Shape)
  | _, [] => .error (.shapeMismatch (.scalarInput input index))
  | none, rows :: row => .ok (rows, row)
  | some (total, common), rows :: row =>
    if common ≠ row then
      .error (.shapeMismatch (.incompatibleInput input index (rows :: row) (total :: common)))
    else
      match Size.add? total rows with
      | some total => .ok (total, common)
      | none => .error (.shapeMismatch (.rowOverflow input))

/-- Combines the shapes of the requests from number `index` on. -/
def combineFrom (input : String) (index : Nat) (combined : Option (Nat × Shape)) :
    List Shape → Except Error Shape
  | [] =>
    match combined with
    | none => .error .emptyBatch
    | some (total, common) => .ok (total :: common)
  | shape :: shapes =>
    match extend input index combined shape with
    | .error e => .error e
    | .ok next => combineFrom input (index + 1) (some next) shapes

/-- The shape of the batched input whose requests have the given shapes. -/
def combine (input : String) (shapes : List Shape) : Except Error Shape :=
  combineFrom input 0 none shapes

end DeviceBatch.Shape
