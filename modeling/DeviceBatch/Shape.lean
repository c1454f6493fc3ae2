import DeviceBatch.Size

/-!
# Shapes

The shape of a tensor lists its dimensions, outermost first. The outermost dimension of a batched
tensor counts its rows.

`Shape.product?` multiplies the dimensions from the left and gives up as soon as an intermediate
product is no size, even where a later dimension is zero.
-/

namespace DeviceBatch

/-- The dimensions of a tensor, outermost first; no dimensions make a scalar. -/
abbrev Shape := List Nat

namespace Shape

/-- The number of elements, unless a product on the way is no size. -/
def product? (shape : Shape) : Option Nat := shape.foldlM Size.mul? 1

/-- The text of a shape: its dimensions between brackets. -/
def text (shape : Shape) : String := "[" ++ ", ".intercalate (shape.map toString) ++ "]"

@[simp] theorem product?_nil : product? [] = some 1 := rfl

end Shape

end DeviceBatch
