/-!
# Execution streams

A stream is a named queue of copies; the number is opaque and only tells streams apart. Stream 0 is
the one a platform uses when nothing else is asked for.
-/

namespace DeviceBatch

/-- The handle of an ordered queue of copies. -/
structure Stream where
  id : Nat
  deriving DecidableEq, Repr, Inhabited

namespace Stream

/-- The stream used when none is named. -/
def standard : Stream := ⟨0⟩

def isStandard (s : Stream) : Bool := s.id == 0

/-- The name used in events. -/
def label (s : Stream) : String := "stream#" ++ toString s.id

/-- The name as it stands in the text of a value. -/
def text (s : Stream) : String := "Stream(" ++ toString s.id ++ ")"

end Stream

end DeviceBatch
