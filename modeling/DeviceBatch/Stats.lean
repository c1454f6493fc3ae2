/-!
# Statistics

What a platform has counted since it was made. Each `record` function counts one event; nothing
else changes a counter.
-/

namespace DeviceBatch

/-- The counters of a platform. -/
@[ext] structure Stats where
  allocations : Nat := 0
  deallocations : Nat := 0
  /-- The bytes allocated and not yet released. -/
  liveBytes : Nat := 0
  copies : Nat := 0
  copiedBytes : Nat := 0
  synchronizations : Nat := 0
  deriving DecidableEq, Repr, Inhabited

namespace Stats

def recordAllocation (s : Stats) (bytes : Nat) : Stats :=
  { s with allocations := s.allocations + 1, liveBytes := s.liveBytes + bytes }

def recordDeallocation (s : Stats) (bytes : Nat) : Stats :=
  { s with deallocations := s.deallocations + 1, liveBytes := s.liveBytes - bytes }

def recordCopy (s : Stats) (bytes : Nat) : Stats :=
  { s with copies := s.copies + 1, copiedBytes := s.copiedBytes + bytes }

def recordSynchronization (s : Stats) : Stats :=
  { s with synchronizations := s.synchronizations + 1 }

/-- The allocations not yet released; none if more releases than allocations were counted. -/
def liveAllocations (s : Stats) : Nat := s.allocations - s.deallocations

end Stats

end DeviceBatch
