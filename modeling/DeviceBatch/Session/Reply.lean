import DeviceBatch.Session.Basic

/-!
# Replies
-/

namespace DeviceBatch

/-- What a command of a session answers. -/
inductive Reply where
  | done
  | count (n : Nat)
  | flag (b : Bool)
  | text (s : String)
  | bytes (bytes : List UInt8)
  | elements (dtype : ElementType) (xs : List dtype.Value)
  | shape (shape : Shape)
  | stream (s : Stream)
  | buffer (b : Buffer)
  | tensor (t : Tensor)
  | platform (platform : Platform) (device live : Nat)
  /-- A request, the shapes of some inputs, and where it wants outputs of the same names. -/
  | request (r : Local.Request) (shapes : List (Except Error Shape))
      (wants : List (Option (Location × Nat)))
  | batch (b : Local.Batch)
  | names (names : List String)
  | responses (responses : List Local.Response)
  /-- What came of gathering an input, and the staging buffers that there are now. -/
  | collected (outcome : Except Error CollectedInput) (staged : Nat)
  /-- There is no such thing. -/
  | absent

namespace Reply

/-- What a slot holds, as a reply. -/
def ofResource : Resource → Reply
  | .buffer b => buffer b
  | .tensor t | .input t => tensor t

end Reply

end DeviceBatch
