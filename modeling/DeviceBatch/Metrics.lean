import DeviceBatch.Location

/-!
# Metrics

Counters with labels, and the histogram of batch sizes. A counter comes into being when it is first
incremented, also by zero.
-/

namespace DeviceBatch

/-- The counters, with the values of their labels. -/
inductive Counter where
  | allocations (location : Location)
  | allocatedBytes (location : Location)
  | copies (kind : CopyKind)
  | copiedBytes (kind : CopyKind)
  | synchronizations
  /-- Batches finalized, told apart by whether the stream was waited for. -/
  | finalized (synchronized : Bool)
  | failures
  deriving DecidableEq, Repr

namespace Counter

/-- The name of a counter without its label. -/
def name : Counter → String
  | allocations _ => "gg_batch_allocations_total"
  | allocatedBytes _ => "gg_batch_allocated_bytes_total"
  | copies _ => "gg_batch_copies_total"
  | copiedBytes _ => "gg_batch_copied_bytes_total"
  | synchronizations => "gg_batch_stream_syncs_total"
  | finalized _ => "gg_batch_finalized_total"
  | failures => "gg_batch_failures_total"

/-- The label of a counter: its key and its value. -/
def label? : Counter → Option (String × String)
  | allocations location | allocatedBytes location => some ("location", location.name)
  | copies kind | copiedBytes kind => some ("kind", kind.label)
  | finalized synchronized => some ("async", if synchronized then "true" else "false")
  | synchronizations | failures => none

end Counter

/-- The recorded metrics: each counter once, in the order of its first increment. -/
structure Metrics where
  counters : List (Counter × Nat) := []
  /-- The number of requests of each batch finalized without an error. -/
  batchSizes : List Nat := []
  deriving DecidableEq, Repr, Inhabited

namespace Metrics

/-- The name of the histogram of batch sizes. -/
def batchSizesName : String := "gg_batch_requests"

/-- The count of a counter; one that was never incremented counts nothing. -/
def value (m : Metrics) (c : Counter) : Nat := (m.counters.lookup c).getD 0

/-- Adds to one counter of a list of counters. -/
def bump (c : Counter) (n : Nat) : List (Counter × Nat) → List (Counter × Nat)
  | [] => [(c, n)]
  | (d, k) :: rest => if c = d then (d, k + n) :: rest else (d, k) :: bump c n rest

/-- Adds to a counter. -/
def increment (m : Metrics) (c : Counter) (n : Nat) : Metrics :=
  { m with counters := bump c n m.counters }

def recordAllocation (m : Metrics) (location : Location) (bytes : Nat) : Metrics :=
  (m.increment (.allocations location) 1).increment (.allocatedBytes location) bytes

def recordCopy (m : Metrics) (kind : CopyKind) (bytes : Nat) : Metrics :=
  (m.increment (.copies kind) 1).increment (.copiedBytes kind) bytes

def recordSynchronization (m : Metrics) : Metrics := m.increment .synchronizations 1

/-- Counts a batch finalized without an error. -/
def recordFinalized (m : Metrics) (requests : Nat) (synchronized : Bool) : Metrics :=
  let m := m.increment (.finalized synchronized) 1
  { m with batchSizes := m.batchSizes ++ [requests] }

/-- Counts a batch whose finalizing failed. -/
def recordFailure (m : Metrics) : Metrics := m.increment .failures 1

theorem lookup_bump (c d : Counter) (n : Nat) (counters : List (Counter × Nat)) :
    ((bump c n counters).lookup d).getD 0 =
      (counters.lookup d).getD 0 + if d = c then n else 0 := by
  induction counters with
  | nil =>
    by_cases h : d = c
    · simp [bump, h]
    · simp [bump, List.lookup_cons, beq_false_of_ne h, h]
  | cons p rest ih =>
    obtain ⟨e, k⟩ := p
    by_cases hce : c = e
    · subst hce
      by_cases hdc : d = c
      · simp [bump, hdc]
      · simp [bump, List.lookup_cons, beq_false_of_ne hdc, hdc]
    · by_cases hde : d = e
      · subst hde
        have hdc : d ≠ c := fun h => hce h.symm
        simp [bump, hce, hdc]
      · simp [bump, hce, List.lookup_cons, beq_false_of_ne hde, ih]

/-- An increment adds to its own counter and to no other. -/
@[simp] theorem value_increment (m : Metrics) (c d : Counter) (n : Nat) :
    (m.increment c n).value d = m.value d + if d = c then n else 0 :=
  lookup_bump c d n m.counters

end Metrics

end DeviceBatch
