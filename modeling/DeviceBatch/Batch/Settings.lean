/-!
# Batch settings
-/

namespace DeviceBatch

/-- How batches are put together. -/
structure BatchSettings where
  /-- Inputs are staged in pinned memory. -/
  pinnedInput : Bool := false
  /-- Outputs are staged in pinned memory. -/
  pinnedOutput : Bool := false
  /-- The most requests of one batch; 0 if the model does not batch at all. -/
  maximum : Nat := 8
  deriving DecidableEq, Repr, Inhabited

namespace BatchSettings

/-- The most requests that a batch takes: a model that does not batch still takes one. -/
def requestLimit (s : BatchSettings) : Nat := max s.maximum 1

end BatchSettings

end DeviceBatch
