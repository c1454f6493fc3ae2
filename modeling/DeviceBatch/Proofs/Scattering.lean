import DeviceBatch.Proofs.Gathering
import DeviceBatch.Proofs.Products

/-!
# Scattered outputs

Each request gets its rows of an output in a buffer of its own. If the copy is put off, that buffer
will hold what the output will hold; otherwise it holds what the output held when it was scattered,
although copies into the output may still wait (`Local.Scatter.part`).
-/

namespace DeviceBatch

/-! ## Sums of sizes -/

theorem Size.total_eq_sum (sizes : List Nat) : Size.total sizes = sizes.sum := rfl

/-! ## Counters of batches -/

/-- The counters that say what came of batches. -/
def Counter.isOfBatches : Counter → Bool
  | finalized _ | failures => true
  | _ => false

/-- What the metrics say of batches is the same. -/
def Metrics.SameBatches (μ μ' : Metrics) : Prop :=
  (∀ c : Counter, c.isOfBatches → μ'.value c = μ.value c) ∧ μ'.batchSizes = μ.batchSizes

namespace Metrics.SameBatches

variable {μ μ' μ'' : Metrics}

theorem refl (μ : Metrics) : μ.SameBatches μ := ⟨fun _ _ => rfl, rfl⟩

theorem trans (h : μ.SameBatches μ') (h' : μ'.SameBatches μ'') : μ.SameBatches μ'' :=
  ⟨fun c hc => (h'.1 c hc).trans (h.1 c hc), h'.2.trans h.2⟩

/-- Another counter says nothing of batches. -/
theorem increment (μ : Metrics) {c : Counter} (hc : c.isOfBatches = false) (n : Nat) :
    μ.SameBatches (μ.increment c n) := by
  refine ⟨fun d hd => ?_, rfl⟩
  rw [value_increment, if_neg, Nat.add_zero]
  rintro rfl
  cases hd.symm.trans hc

/-- Neither does what is recorded of storage that is asked for, or of a copy. -/
theorem recordAllocation (μ : Metrics) (location : Location) (bytes : Nat) :
    μ.SameBatches (μ.recordAllocation location bytes) :=
  (increment μ rfl 1).trans (increment _ rfl bytes)

theorem recordCopy (μ : Metrics) (kind : CopyKind) (bytes : Nat) :
    μ.SameBatches (μ.recordCopy kind bytes) :=
  (increment μ rfl 1).trans (increment _ rfl bytes)

end Metrics.SameBatches

/-- Storage that was given out is below the limit of the host allocator. -/
theorem Buffer.lt_hostBlockLimit_of_allocate {m m' : Machine} {dtype : ElementType} {size : Nat}
    {location : Location} {device : Nat} {stream : Stream} {b : Buffer}
    (h : Buffer.allocate dtype size location device stream m = .ok b m') :
    size * dtype.width < Machine.hostBlockLimit := by
  unfold Buffer.allocate at h
  cases ha : Machine.acquire (size * dtype.width) location device m with
  | error e =>
    rw [Action.bind_of_error (Action.attempt_of_error ha)] at h
    cases h
  | ok p => exact Machine.lt_hostBlockLimit_of_acquire ha

/-- What was asked for is what a new buffer is, and nothing is queued for it. -/
theorem Buffer.eq_of_allocate {m m' : Machine} {dtype : ElementType} {size : Nat}
    {location : Location} {device : Nat} {stream : Stream} {b : Buffer}
    (h : Buffer.allocate dtype size location device stream m = .ok b m') :
    (∃ a : Allocation, a.location = location ∧ b = ⟨.owned a, dtype, size, device, stream⟩) ∧
      m'.platform = m.platform ∧ m'.queues = m.queues ∧ m.metrics.SameBatches m'.metrics := by
  unfold Buffer.allocate at h
  cases ha : Machine.acquire (size * dtype.width) location device m with
  | error e => cases (Action.bind_of_error (Action.attempt_of_error ha)).symm.trans h
  | ok p =>
    obtain ⟨a, m₁⟩ := p
    cases (Action.bind_of_ok (Action.attempt_of_ok ha)).symm.trans h
    rcases Machine.acquire_eq_ok ha with ⟨-, rfl, rfl⟩ | ⟨-, rfl, hm⟩
    · exact ⟨⟨_, rfl, rfl⟩, rfl, rfl, .refl _⟩
    · refine ⟨⟨_, rfl, rfl⟩, hm.platform, hm.queues, ?_⟩
      exact hm.metrics ▸ .recordAllocation ..

/-- A copy leaves the platform as it is, and the queues if it is not put off. It is no batch. -/
theorem Buffer.queues_of_transfer {m m' : Machine} {dst src : Location} {p q : Pointer} {n : Nat}
    {s : Stream} (h : Buffer.transfer dst p src q n s m = .ok () m') :
    m'.platform = m.platform ∧
      ((0 < n && m.platform.defers (.between dst src)) = false → m'.queues = m.queues) ∧
      m.metrics.SameBatches m'.metrics := by
  unfold Buffer.transfer at h
  by_cases hn : n = 0
  · rw [if_pos hn] at h
    cases h
    exact ⟨rfl, fun _ => rfl, .refl _⟩
  · rw [if_neg hn, Action.change_bind] at h
    unfold Action.step at h
    split at h
    · next m₁ hcopy =>
      cases h
      refine ⟨?_, fun hnow => ?_, ?_⟩
      · rw [Machine.copy_eq_ok hcopy hn]
        split <;> rfl
      · rw [decide_eq_true (Nat.pos_of_ne_zero hn), Bool.true_and] at hnow
        rw [Machine.copy_eq_of_not_defers hcopy hn hnow]
        rfl
      · rw [Machine.copy_eq_ok hcopy hn]
        split <;> exact .recordCopy ..
    · cases h

namespace Local.Scatter

/-! ## Slices -/

/-- The slice with number `i` starts behind the rows of the slices before it. -/
theorem getElem?_slicesFrom (rowBytes : Nat) (row : Shape) (start : Nat) (rows : List Nat)
    (i : Nat) :
    (slicesFrom rowBytes row start rows)[i]? = rows[i]?.map fun k =>
      ⟨start + (rows.take i).sum * rowBytes, k * rowBytes, k :: row⟩ := by
  induction rows generalizing start i with
  | nil => rfl
  | cons k rows ih =>
    cases i with
    | zero => simp [slicesFrom]
    | succ i =>
      rw [slicesFrom, List.getElem?_cons_succ, ih, List.getElem?_cons_succ, List.take_succ_cons,
        List.sum_cons, Nat.add_mul, Nat.add_assoc]

theorem length_slicesFrom (rowBytes : Nat) (row : Shape) (start : Nat) (rows : List Nat) :
    (slicesFrom rowBytes row start rows).length = rows.length := by
  induction rows generalizing start with
  | nil => rfl
  | cons k rows ih => rw [slicesFrom, List.length_cons, ih, List.length_cons]

/-- The part of an output that is meant for the request with number `i`: the rows behind those of
the requests before it, or all if there is one request only because the model does not batch. -/
def sliceOf (maximum : Nat) (rows : List Nat) (y : Tensor) (i : Nat) : Slice :=
  if maximum = 0 then ⟨0, y.buffer.byteSize, y.shape⟩
  else
    let rowBytes := (Shape.product? y.shape.tail).getD 0 * y.buffer.dtype.width
    ⟨(rows.take i).sum * rowBytes, rows.getD i 0 * rowBytes, rows.getD i 0 :: y.shape.tail⟩

theorem fits_of_mem_slicesFrom {rowBytes start : Nat} {row : Shape} {rows : List Nat}
    {slice : Slice} (hs : slice ∈ slicesFrom rowBytes row start rows) :
    slice.start + slice.length ≤ start + rows.sum * rowBytes := by
  induction rows generalizing start with
  | nil => cases hs
  | cons k rows ih =>
    rw [List.sum_cons, Nat.add_mul, ← Nat.add_assoc]
    rcases List.mem_cons.mp hs with rfl | hs
    · exact Nat.le_add_right _ _
    · exact ih hs

/-- The rows of an output fill it. -/
theorem byteSize_of_rows {y : Tensor} {leading : Nat} {row : Shape}
    (hshape : y.shape = leading :: row) :
    y.buffer.byteSize = leading * ((Shape.product? row).getD 0 * y.buffer.dtype.width) := by
  have hholds := y.holds
  rw [hshape] at hholds
  rw [← Nat.mul_assoc, ← Shape.product?_cons hholds]
  rfl

/-- Without batching an output is one slice. Otherwise it must have the rows of the requests, and is
cut into them. -/
theorem slices_cases (scatter : Scatter) (rows : List Nat) (name : String) (y : Tensor) :
    scatter.maximum = 0 ∧ scatter.slices rows (.ofTensor name y) =
      .ok [⟨0, y.buffer.byteSize, y.shape⟩] ∨
    scatter.maximum ≠ 0 ∧ y.shape.head? ≠ some rows.sum ∧
      (∃ fault, scatter.slices rows (.ofTensor name y) = .error (.shapeMismatch fault)) ∨
    scatter.maximum ≠ 0 ∧ ∃ row, y.shape = rows.sum :: row ∧
      scatter.slices rows (.ofTensor name y) =
        .ok (slicesFrom ((Shape.product? row).getD 0 * y.buffer.dtype.width) row 0 rows) := by
  unfold slices
  by_cases hmax : scatter.maximum = 0
  · exact .inl ⟨hmax, if_pos hmax⟩
  · rw [if_neg hmax, show (OutputView.ofTensor name y).shape = y.shape from rfl]
    refine .inr ?_
    cases hshape : y.shape with
    | nil => exact .inl ⟨hmax, Option.some_ne_none _ ∘ Eq.symm, _, rfl⟩
    | cons leading row =>
      dsimp only
      rw [Size.total_eq_sum]
      by_cases hsum : rows.sum = leading
      · rw [if_neg (not_not.mpr hsum), hsum]
        exact .inr ⟨hmax, row, rfl, rfl⟩
      · rw [if_pos hsum]
        exact .inl ⟨hmax, fun heq => hsum (Option.some.inj heq).symm, _, rfl⟩

/-- If an output can be cut, each request is meant to get one slice, which lies in the output. -/
theorem slices_eq_ok {scatter : Scatter} {rows : List Nat} {name : String} {y : Tensor}
    {cut : List Slice} (h : scatter.slices rows (.ofTensor name y) = .ok cut)
    (hsingle : scatter.maximum = 0 → rows.length ≤ 1) :
    (∀ i < rows.length, cut[i]? = some (sliceOf scatter.maximum rows y i)) ∧
      ∀ slice ∈ cut, slice.start + slice.length ≤ y.buffer.byteSize := by
  rcases slices_cases scatter rows name y with
    ⟨hmax, hcut⟩ | ⟨-, -, fault, hcut⟩ | ⟨hmax, row, hshape, hcut⟩ <;> cases h.symm.trans hcut
  · refine ⟨fun i hi => ?_, fun slice hslice => ?_⟩
    · have := hsingle hmax
      obtain rfl : i = 0 := by omega
      rw [sliceOf, if_pos hmax]
      rfl
    · rw [List.mem_singleton.mp hslice]
      exact Nat.le_of_eq (Nat.zero_add _)
  · refine ⟨fun i hi => ?_, fun slice hslice => ?_⟩
    · rw [getElem?_slicesFrom, List.getElem?_eq_getElem hi, Option.map_some, sliceOf,
        if_neg hmax, hshape, Nat.zero_add, List.getD_eq_getElem?_getD, List.getElem?_eq_getElem hi]
      rfl
    · rw [byteSize_of_rows hshape, ← Nat.zero_add (rows.sum * _)]
      exact fits_of_mem_slicesFrom hslice

/-! ## Copying a slice -/

variable {m m' : Machine} {T : List Holding} {y : Buffer} {slice : Slice} {location : Location}

/-- The bytes of an output that lie in a slice. -/
def cut (slice : Slice) (bytes : List UInt8) : List UInt8 :=
  (bytes.drop slice.start).take slice.length

/-- The bytes that are handed out for a slice of an output: those that it will hold if the copy is
put off, and those that it holds at the moment otherwise. -/
def part (m : Machine) (y : Buffer) (slice : Slice) (location : Location) : List UInt8 :=
  if m.platform.defers (.between location y.location) then cut slice (y.outlookBytes m.outlook)
  else cut slice (y.bytes m)

/-- An output as it is copied from. -/
def bytesView (y : Buffer) : Buffer :=
  .borrow .uint8 y.location y.data y.byteSize y.device y.stream

/-- A slice was copied into a new buffer. -/
structure Sliced (m : Machine) (T : List Holding) (y : Buffer) (slice : Slice)
    (location : Location) (device : Nat) (m' : Machine) (d : Buffer) : Prop where
  machine : m.Adds T m' (d.holdings (.bound d.stream) ++ T)
  proper : d.Proper
  dtype : d.dtype = .uint8
  size : d.size = slice.length
  placed : d.location = location ∧ d.device = device
  stream : d.stream = y.stream
  bytes : d.outlookBytes m'.outlook = part m y slice location
  settled : m.platform.defers (.between location y.location) = false → d.byteSize ≠ 0 →
    m'.Unwritten d.data.block
  limit : d.byteSize < Machine.hostBlockLimit
  batches : m.metrics.SameBatches m'.metrics

theorem readable_bytesView (hy : y.Readable T) : (bytesView y).Readable T := by
  intro hn
  have hwidth : (bytesView y).byteSize = y.byteSize := Nat.mul_one _
  rw [hwidth] at hn ⊢
  exact hy hn

/-- The copy of a slice of an output into a buffer. -/
def sliceCopy (d y : Buffer) (slice : Slice) : PendingCopy :=
  ⟨d.data, y.data.advance slice.start, slice.length * ElementType.uint8.width⟩

theorem rangeCopy_bytesView (d y : Buffer) (slice : Slice) :
    Buffer.rangeCopy d (bytesView y) 0 slice.start (slice.start + slice.length) =
      sliceCopy d y slice := by
  unfold Buffer.rangeCopy sliceCopy
  rw [Nat.add_sub_cancel_left]
  congr 1
  · exact congrArg d.data.advance (Nat.zero_mul _)
  · exact congrArg y.data.advance (Nat.mul_one _)

theorem length_part (h : m.Keeps T) (hy : y.Readable T)
    (hfit : slice.start + slice.length ≤ y.byteSize) (location : Location) :
    (part m y slice location).length = slice.length * ElementType.uint8.width := by
  have hlen := hy.length_outlookBytes h
  have hlen' := hy.length_bytes h
  unfold part cut
  rw [show slice.length * ElementType.uint8.width = slice.length from Nat.mul_one _]
  split <;> rw [List.length_take, List.length_drop] <;> omega

/-- A slice is copied by a copy into a new buffer. -/
theorem copySlice_eq_ok {source d : Buffer} {device : Nat}
    (h : copySlice source slice location device m = .ok d m') :
    (d.location = location ∧ d.device = device ∧ d.byteSize = slice.length) ∧
      m'.platform = m.platform ∧
      ((0 < slice.length * source.dtype.width &&
        m.platform.defers (.between location source.location)) = false →
          m'.queues = m.queues) ∧
      m.metrics.SameBatches m'.metrics := by
  unfold copySlice at h
  cases ha : Buffer.allocate .uint8 slice.length location device source.stream m with
  | error e m₁ => cases (Action.bind_of_error ha).symm.trans h
  | ok b m₁ =>
    have h := (Action.bind_of_ok ha).symm.trans h
    obtain ⟨⟨a, hlocation, rfl⟩, hplatform, hqueues, hbatches⟩ := Buffer.eq_of_allocate ha
    cases hc : source.copyRange 0 slice.start (slice.start + slice.length)
        (m₁, ⟨.owned a, .uint8, slice.length, device, source.stream⟩) with
    | error e q =>
      rw [hc] at h
      cases h
    | ok u q =>
      rw [hc] at h
      cases h
      -- The new buffer is on the stream of the source already, so it is not bound to another.
      unfold Buffer.copyRange at hc
      dsimp only at hc
      rw [if_pos rfl] at hc
      split at hc
      · cases hc
      · unfold Action.onFirst Action.within at hc
        dsimp only at hc
        split at hc
        · next htransfer =>
          cases hc
          obtain ⟨hsame, hnow, hbatches'⟩ := Buffer.queues_of_transfer htransfer
          rw [show (Buffer.mk (.owned a) .uint8 slice.length device source.stream).location =
            location from hlocation] at hnow
          refine ⟨⟨hlocation, rfl, Nat.mul_one _⟩, hsame.trans hplatform, fun hn => ?_,
            hbatches.trans hbatches'⟩
          rw [← hqueues]
          refine hnow ?_
          rw [Nat.add_sub_cancel_left, hplatform]
          exact hn
        · cases hc

section NewBuffer

variable {device : Nat} {d : Buffer} {m₁ : Machine}

/-- A slice is copied into the new buffer at once or later. -/
theorem copyRange_slice (hy : y.Readable T) (hfit : slice.start + slice.length ≤ y.byteSize)
    (hd : d = Buffer.fresh m.memory.next .uint8 slice.length location device y.stream)
    (hp : m.Progress T (Effect.allocs (slice.length * ElementType.uint8.width)) True m₁
      (d.holdings (.bound y.stream) ++ T)) :
    ∃ m' p, (bytesView y).copyRange 0 slice.start (slice.start + slice.length) (m₁, d) =
        .ok () (m', d) ∧
      m₁.Progress (d.holdings (.bound y.stream) ++ T) (Effect.copies (sliceCopy d y slice)) p m'
        (d.holdings (.bound y.stream) ++ T) ∧
      (m.platform.defers (.between location y.location) = true → p) ∧
      (m.platform.defers (.between location y.location) = false →
        m'.memory = (m₁.runCopies [sliceCopy d y slice]).memory ∧ m'.queues = m₁.queues) := by
  have hproper : d.Proper := by rw [hd]; exact Buffer.fresh_proper ..
  have hin : Buffer.inRange d (bytesView y) 0 slice.start
      (slice.start + slice.length) = true := by
    rw [Buffer.inRange_eq_true, hd]
    exact ⟨Nat.le_add_right _ _, hfit, Nat.zero_le _,
      Nat.le_of_eq (Nat.add_sub_cancel_left _ _)⟩
  have hplaced : m₁.platform.defers (.between d.location y.location) =
      m.platform.defers (.between location y.location) := by
    rw [hp.platform, hd]
    rfl
  have hstream : d.stream = y.stream := by rw [hd]; rfl
  obtain ⟨m', hrun, hprog⟩ := Buffer.copyRange_of_stream_eq hp.keeps hin hstream
    (by rw [hd]; rfl) fun hb hn => by
      obtain ⟨t, ht, huse, htloc, hspan, -⟩ := hproper.holding (List.subset_append_left _ T) hb
      obtain ⟨u, hu, huspan, huloc, hgive⟩ := readable_bytesView hy hn
      refine ⟨t, ht, u, List.mem_append_right _ hu, htloc, huloc, hspan, huspan, ?_, hgive, ?_⟩
      · rw [huse]
        rfl
      · rw [huse]
        exact fun _ hf => hf.elim
  rw [rangeCopy_bytesView] at hprog
  refine ⟨m', _, hrun, hprog, fun hdef _ hndef => ?_, fun hndef => ?_⟩
  · exact absurd (hdef.symm.trans (hplaced.symm.trans hndef)) Bool.true_eq_false.mp
  · have hcopied := Buffer.copyRange_eq_of_not_defers hin hstream hrun (hplaced.trans hndef)
    rw [rangeCopy_bytesView] at hcopied
    exact hcopied

/-- Whether the copy is put off or not, the new buffer will hold its part. -/
theorem outlook_memory_of_slice (h : m.Keeps T) (hy : y.Readable T)
    (hfit : slice.start + slice.length ≤ y.byteSize)
    (hd : d = Buffer.fresh m.memory.next .uint8 slice.length location device y.stream)
    (hp : m.Progress T (Effect.allocs (slice.length * ElementType.uint8.width)) True m₁
      (d.holdings (.bound y.stream) ++ T))
    {p : Prop} (hp' : m₁.Progress (d.holdings (.bound y.stream) ++ T)
      (Effect.copies (sliceCopy d y slice)) p m' (d.holdings (.bound y.stream) ++ T))
    (hexact : m.platform.defers (.between location y.location) = true → p)
    (hrun : m.platform.defers (.between location y.location) = false →
      m'.memory = (m₁.runCopies [sliceCopy d y slice]).memory ∧ m'.queues = m₁.queues) :
    m'.outlook.memory = (m.outlook.afterAll
      (Effect.allocs (slice.length * ElementType.uint8.width) ++
        Effect.writes d.data (part m y slice location))).memory := by
  have hlt : slice.length * ElementType.uint8.width ≠ 0 →
      (y.data.advance slice.start).block < m.memory.next := by
    intro hn
    refine (hy.block_outlook h fun hz => hn ?_).1
    rw [hz] at hfit
    exact (Nat.mul_one _).trans (by omega)
  unfold part
  -- A copy that runs at once takes what the output holds, one that is put off what it will hold.
  cases hdefers : m.platform.defers (.between location y.location) with
  | false =>
    obtain ⟨hm, hq⟩ := hrun hdefers
    subst hd
    rw [Buffer.outlook_memory_filled h hp hlt hm hq]
    show _ = (m.outlook.afterAll (_ ++ Effect.writes _
      (((m.memory.read y.data y.byteSize).drop slice.start).take slice.length))).memory
    rw [← Memory.read_advance _ _ hfit,
      show slice.length * ElementType.uint8.width = slice.length from Nat.mul_one _]
  | true =>
    rw [hp'.outlook (hexact hdefers), hp.outlook trivial, if_pos rfl, Outlook.afterAll_append]
    have hread : (m.outlook.afterAll
        (Effect.allocs (slice.length * ElementType.uint8.width))).memory.read
          (y.data.advance slice.start) (slice.length * ElementType.uint8.width) =
        cut slice (y.outlookBytes m.outlook) := by
      refine Eq.trans ?_ (Memory.read_advance m.outlook.memory y.data hfit)
      rw [show slice.length * ElementType.uint8.width = slice.length from Nat.mul_one _] at hlt ⊢
      exact Memory.read_congr_of_ne_zero fun hn => Machine.block?_outlook_afterAll
        (fun e he => (Effect.sparesBelow_allocs _).keepsBelow e he _ (hlt hn)) (hlt hn)
    rw [← hread]
    unfold Effect.copies Effect.writes
    split
    · next hn =>
      have hzero : slice.length * ElementType.uint8.width = 0 := hn
      rw [if_pos (by rw [hzero, Memory.read_zero])]
    · next hn =>
      rw [if_neg]
      · rfl
      · intro hnil
        have hlen := congrArg List.length (hread.symm.trans hnil)
        rw [cut, List.length_take, List.length_drop, hy.length_outlookBytes h,
          List.length_nil] at hlen
        refine hn ((Nat.mul_one _).trans ?_)
        omega

/-- All other storage is as it was. -/
theorem adds_of_slice (h : m.Keeps T) (hy : y.Readable T)
    (hfit : slice.start + slice.length ≤ y.byteSize)
    (hd : d = Buffer.fresh m.memory.next .uint8 slice.length location device y.stream)
    {p : Prop} (hp : m.Progress T (Effect.allocs (slice.length * ElementType.uint8.width) ++
      Effect.copies (sliceCopy d y slice)) p m' (d.holdings (.bound y.stream) ++ T))
    (hmemory : m'.outlook.memory = (m.outlook.afterAll
      (Effect.allocs (slice.length * ElementType.uint8.width) ++
        Effect.writes d.data (part m y slice location))).memory) :
    m.Adds T m' (d.holdings (.bound y.stream) ++ T) := by
  have hnew : slice.length * ElementType.uint8.width ≠ 0 → m.memory.next ≤ d.data.block :=
    fun hn => Nat.le_of_eq (by rw [hd, Buffer.fresh_data hn])
  have halloc := (Effect.sparesBelow_allocs (n := m.memory.next)
    (slice.length * ElementType.uint8.width)).keepsBelow
  have hkeeps := halloc.append (Effect.keepsBelow_copies (c := sliceCopy d y slice) hnew)
  have hwrites : Effect.SparesBelow m.memory.next
      (Effect.writes d.data (part m y slice location)) :=
    Effect.sparesBelow_writes fun hne => hnew fun hz =>
      hne (List.length_eq_zero_iff.mp ((length_part h hy hfit location).trans hz))
  have hwritten := halloc.append hwrites.keepsBelow
  refine ⟨hp.extends h hkeeps, fun b hb => ?_, fun b hb => ?_⟩
  · rw [hmemory]
    exact Machine.block?_outlook_afterAll (fun e he => hwritten e he b hb) hb
  · refine hp.memory (fun e he => ?_) b hb fun e he => hkeeps e he b hb
    exact (List.mem_append.mp he).elim (Effect.not_maySettle_allocs e)
      (Effect.not_maySettle_copies e)

end NewBuffer

/-- One slice is copied into a new buffer, or there is no storage for it. -/
theorem copySlice_cases (h : m.Keeps T) (hy : y.Readable T)
    (hfit : slice.start + slice.length ≤ y.byteSize) (location : Location) (device : Nat) :
    (∃ e, e.IsAllocation ∧ copySlice (bytesView y) slice location device m = .error e m) ∨
    ∃ d m', copySlice (bytesView y) slice location device m = .ok d m' ∧
      Sliced m T y slice location device m' d := by
  rcases Buffer.allocate_cases .uint8 slice.length location device y.stream h with
    ⟨e, he, ha⟩ | ⟨m₁, ha, hp⟩
  · exact .inl ⟨e, he, Action.bind_of_error ha⟩
  · have hp := hp (.bound y.stream)
    obtain ⟨d, hd⟩ : ∃ d, d = Buffer.fresh m.memory.next .uint8 slice.length location device
      y.stream := ⟨_, rfl⟩
    rw [← hd] at ha hp
    obtain ⟨m', p, hrun, hprog, hexact, hnow⟩ := copyRange_slice hy hfit hd hp
    have hmemory := outlook_memory_of_slice h hy hfit hd hp hprog hexact hnow
    have hbytes : d.byteSize = slice.length * ElementType.uint8.width := by rw [hd]; rfl
    have hcopied : copySlice (bytesView y) slice location device m = .ok d m' := by
      refine (Action.bind_of_ok ha).trans ?_
      rw [hrun]
    refine .inr ⟨d, m', hcopied, ?_⟩
    exact {
        machine := by
          rw [show d.stream = y.stream by rw [hd]; rfl]
          exact adds_of_slice h hy hfit hd (hp.trans hprog) hmemory
        proper := by rw [hd]; exact Buffer.fresh_proper ..
        dtype := by rw [hd]; rfl
        size := by rw [hd]; rfl
        placed := by rw [hd]; exact ⟨rfl, rfl⟩
        stream := by rw [hd]; rfl
        bytes := by
          have hfilled := Buffer.outlookBytes_written m.outlook (length_part h hy hfit location)
            location device y.stream
          rw [Machine.next_outlook, ← hd] at hfilled
          refine Eq.trans ?_ hfilled
          unfold Buffer.outlookBytes
          rw [hmemory]
        settled := fun hndef hn s c hc => by
          rw [Machine.Pending, (hnow hndef).2] at hc
          rw [hd, Buffer.fresh_data (hbytes ▸ hn)]
          exact (Buffer.untouched_fresh h hp Buffer.not_copiesAt_allocs).unwritten s c hc
        limit := by
          rw [hbytes]
          exact Buffer.lt_hostBlockLimit_of_allocate ha
        batches := (copySlice_eq_ok hcopied).2.2.2 }

end Local.Scatter

end DeviceBatch
