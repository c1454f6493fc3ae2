import Mathlib.Algebra.BigOperators.Ring.Finset
import Mathlib.Data.Fintype.Sets
import DeviceBatch.Proofs.Books
import DeviceBatch.Proofs.Progress

/-!
# What a machine has done

Whatever is done to a machine is a succession of small steps (`Machine.Does`): storage is asked for
or given back, a copy is issued, a stream has been waited for, a batch is reported, or something
happens that is not counted at all. A step that is counted is a `Posting`. The postings between two
machines (`Machine.Works`) say what the metrics have gone up by, counter by counter
(`Machine.Tells`), and the statistics go up along with the metrics (`Machine.Agrees`).

Copies that are performed late are no postings: a copy is counted when it is issued.
-/

namespace DeviceBatch

/-! ## Labels -/

instance : Fintype Location where
  elems := {.host, .device}
  complete location := by cases location <;> decide

instance : Fintype CopyKind where
  elems := {.hostToHost, .hostToDevice, .deviceToHost, .deviceToDevice}
  complete kind := by cases kind <;> decide

/-! ## The bytes in memory -/

namespace Memory

variable {m : Memory}

/-- The bytes of a block; one that is not live has none. -/
def extent (m : Memory) (block : Nat) : Nat := (m.block? block).elim 0 List.length

/-- The bytes of all live blocks. -/
def size (m : Memory) : Nat := ∑ block ∈ Finset.range m.next, m.extent block

theorem extent_of_le {block : Nat} (h : m.next ≤ block) : m.extent block = 0 := by
  unfold extent
  cases hb : m.block? block with
  | none => rfl
  | some bytes => exact absurd (lt_next_of_block? hb) (Nat.not_lt.mpr h)

theorem extent_of_length {m' : Memory} {block : Nat}
    (h : (m'.block? block).map List.length = (m.block? block).map List.length) :
    m'.extent block = m.extent block := by
  unfold extent
  cases hb : m.block? block <;> cases hb' : m'.block? block <;> simp_all

/-- Writing makes no block longer or shorter. -/
theorem size_write (m : Memory) (p : Pointer) (bytes : List UInt8) :
    (m.write p bytes).size = m.size := by
  unfold size
  rw [next_write]
  refine Finset.sum_congr rfl fun block _ => extent_of_length ?_
  rw [block?_write]
  split
  · cases m.block? block <;> simp
  · rfl

theorem size_run (m : Memory) (cs : List PendingCopy) : (m.run cs).size = m.size := by
  unfold size
  rw [next_run]
  exact Finset.sum_congr rfl fun block _ => extent_of_length (length_block?_run m cs block)

theorem size_alloc (m : Memory) (bytes : List UInt8) :
    (m.alloc bytes).size = m.size + bytes.length := by
  have hlast : (m.alloc bytes).extent m.next = bytes.length := by
    unfold extent
    rw [block?_alloc, if_pos rfl, Option.elim_some]
  unfold size
  rw [next_alloc, Finset.sum_range_succ, hlast]
  refine congrArg (· + bytes.length) (Finset.sum_congr rfl fun block hb => ?_)
  unfold extent
  rw [block?_alloc, if_neg (Nat.ne_of_lt (Finset.mem_range.mp hb))]

/-- A block that is given up takes its bytes with it. -/
theorem size_free (m : Memory) (block : Nat) : (m.free block).size + m.extent block = m.size := by
  -- Nothing changes at the other blocks, so the two sums differ by one summand.
  have hsplit : ∀ b, (m.free block).extent b + (if b = block then m.extent block else 0) =
      m.extent b := fun b => by
    unfold extent
    rw [block?_free]
    by_cases hb : b = block
    · subst hb
      rw [if_pos rfl, if_pos rfl, Option.elim_none, Nat.zero_add]
    · rw [if_neg hb, if_neg hb, Nat.add_zero]
  have hone : (∑ b ∈ Finset.range m.next, if b = block then m.extent block else 0) =
      m.extent block := by
    rw [Finset.sum_ite_eq']
    split
    · rfl
    · next hout => exact (extent_of_le (Nat.not_lt.mp (mt Finset.mem_range.mpr hout))).symm
  unfold size
  rw [next_free, ← hone, ← Finset.sum_add_distrib]
  exact Finset.sum_congr rfl fun b _ => hsplit b

end Memory

/-- If the books are balanced, the live bytes that are counted are those of the blocks in memory. -/
theorem Machine.Balanced.size_eq {m : Machine} {A : Multiset Allocation} (h : m.Balanced A) :
    m.memory.size = m.stats.liveBytes := by
  have hblocks : (A.map Allocation.bytes) =
      (A.map Allocation.block).map m.memory.extent := by
    rw [Multiset.map_map]
    refine Multiset.map_congr rfl fun a ha => ?_
    obtain ⟨bytes, hb, hlen⟩ := Option.map_eq_some_iff.mp (h.occupied a ha)
    show a.bytes = m.memory.extent a.block
    unfold Memory.extent
    rw [hb, Option.elim_some, hlen]
  -- No two entries of the books share a block, and a block that none of them names has no bytes.
  let owned : Finset Nat := ⟨A.map Allocation.block, h.distinct⟩
  have howned : ((A.map Allocation.block).map m.memory.extent).sum =
      ∑ block ∈ owned, m.memory.extent block := rfl
  rw [h.liveBytes, hblocks, howned]
  refine (Finset.sum_subset (fun b hb => ?_) fun b _ hb => ?_).symm
  · obtain ⟨a, ha, rfl⟩ := Multiset.mem_map.mp hb
    obtain ⟨bytes, hbytes, -⟩ := Option.map_eq_some_iff.mp (h.occupied a ha)
    exact Finset.mem_range.mpr (Memory.lt_next_of_block? hbytes)
  · unfold Memory.extent
    rw [h.vacant b hb, Option.elim_none]

/-! ## Postings -/

/-- A step that is counted, as it is posted to the recorders. -/
inductive Posting where
  | allocated (location : Location) (bytes : Nat)
  /-- Storage was given back, and its block had that many bytes. -/
  | released (bytes : Nat)
  /-- A copy was issued; it was put into a queue, or performed at once. -/
  | copied (kind : CopyKind) (bytes : Nat) (queued : Bool)
  | synchronized
  /-- A batch was delivered, and its stream was waited for or not. -/
  | delivered (requests : Nat) (waited : Bool)
  /-- A batch could not be delivered. -/
  | failed
  deriving DecidableEq, Repr

namespace Posting

/-- What a posting adds to a counter. -/
def credit (c : Counter) : Posting → Nat
  | allocated location bytes =>
    (if c = .allocations location then 1 else 0) + if c = .allocatedBytes location then bytes else 0
  | copied kind bytes _ =>
    (if c = .copies kind then 1 else 0) + if c = .copiedBytes kind then bytes else 0
  | synchronized => if c = .synchronizations then 1 else 0
  | delivered _ waited => if c = .finalized waited then 1 else 0
  | failed => if c = .failures then 1 else 0
  | released _ => 0

/-- What a posting adds to the histogram of batch sizes. -/
def sample? : Posting → Option Nat
  | delivered requests _ => some requests
  | _ => none

/-- The bytes that were given back. -/
def releasedBytes : Posting → Nat
  | released bytes => bytes
  | _ => 0

/-- The posting is that a batch was reported. -/
def isReport : Posting → Bool
  | delivered .. | failed => true
  | _ => false

/-- The posting is a copy that was performed at once. -/
def isDirect : Posting → Bool
  | copied _ _ queued => !queued
  | _ => false

/-- The bytes of a copy that was performed at once. -/
def directBytes : Posting → Nat
  | copied _ bytes false => bytes
  | _ => 0

/-- What is one for some postings and nothing for all others adds up to their number. -/
theorem sum_map_eq_countP {postings : List Posting} {f : Posting → Nat}
    {p : Posting → Bool} (h : ∀ d ∈ postings, f d = if p d then 1 else 0) :
    (postings.map f).sum = postings.countP p := by
  induction postings with
  | nil => rfl
  | cons d postings ih =>
    have hd := h d List.mem_cons_self
    rw [List.map_cons, List.sum_cons, List.countP_cons, hd,
      ih fun d hd => h d (List.mem_cons_of_mem _ hd), Nat.add_comm]

end Posting

namespace Metrics

theorem value_recordAllocation (m : Metrics) (location : Location) (bytes : Nat) (c : Counter) :
    (m.recordAllocation location bytes).value c =
      m.value c + (Posting.allocated location bytes).credit c := by
  simp [recordAllocation, Posting.credit, Nat.add_assoc]

theorem value_recordCopy (m : Metrics) (kind : CopyKind) (bytes : Nat) (queued : Bool)
    (c : Counter) :
    (m.recordCopy kind bytes).value c =
      m.value c + (Posting.copied kind bytes queued).credit c := by
  simp [recordCopy, Posting.credit, Nat.add_assoc]

theorem value_recordSynchronization (m : Metrics) (c : Counter) :
    m.recordSynchronization.value c = m.value c + Posting.synchronized.credit c :=
  value_increment ..

theorem value_recordFinalized (m : Metrics) (requests : Nat) (waited : Bool) (c : Counter) :
    (m.recordFinalized requests waited).value c =
      m.value c + (Posting.delivered requests waited).credit c :=
  value_increment ..

theorem value_recordFailure (m : Metrics) (c : Counter) :
    m.recordFailure.value c = m.value c + Posting.failed.credit c :=
  value_increment ..

end Metrics

/-- A queue that gets a copy is no longer what it was. -/
theorem Queues.update_ne {s : Stream} {f : StreamQueue → StreamQueue} (h : ∀ q, f q ≠ q)
    (qs : Queues) : Queues.update s f qs ≠ qs := by
  induction qs with
  | nil => exact List.cons_ne_nil _ _
  | cons p rest ih =>
    obtain ⟨t, q⟩ := p
    unfold Queues.update
    split
    · exact fun heq => h q (Prod.mk.inj (List.cons.inj heq).1).2
    · exact fun heq => ih (List.cons.inj heq).2

namespace Machine

/-- One step of a machine, and the posting that it is, if it is counted. -/
inductive Does : Machine → List Posting → Machine → Prop
  | emits (m : Machine) (event : Event) : Does m [] (m.emit event)
  | writes (m : Machine) (p : Pointer) (bytes : List UInt8) :
    Does m [] { m with memory := m.memory.write p bytes }
  /-- Queues are emptied. -/
  | takes (m : Machine) {queues : Queues} (h : queues ⊆ m.queues) : Does m [] { m with queues }
  /-- What was in them is performed. -/
  | performs (m : Machine) (copies : List PendingCopy) : Does m [] (m.runCopies copies)
  | keeps (m : Machine) (stream : Stream) (guard : Guard) : Does m []
    { m with
      queues := Queues.update stream (fun q => { q with guards := q.guards ++ [guard] }) m.queues }
  | allocates {m m' : Machine} {bytes device block : Nat} {location : Location}
    (h : m.allocate bytes location device = .ok (block, m')) :
    Does m [.allocated location bytes] m'
  | releases {m m' : Machine} {a : Allocation} (h : m.reclaim a = .ok m') :
    Does m [.released (m.memory.extent a.block)] m'
  | copies {m m' : Machine} {kind : CopyKind} {dst src : Pointer} {bytes : Nat} {stream : Stream}
    (h : copy kind dst src bytes stream m = .ok m') (hne : m' ≠ m) :
    Does m [.copied kind bytes (decide (m'.queues ≠ m.queues))] m'
  | synchronizes (m : Machine) : Does m [.synchronized] m.recordSynchronization
  | delivers (m : Machine) (requests : Nat) (waited : Bool) : Does m [.delivered requests waited]
    { m with metrics := m.metrics.recordFinalized requests waited }
  | fails (m : Machine) : Does m [.failed] { m with metrics := m.metrics.recordFailure }

/-- Some steps one after the other, and the postings among them. -/
inductive Works : Machine → List Posting → Machine → Prop
  | nothing (m : Machine) : Works m [] m
  | step {m m' m'' : Machine} {postings more : List Posting} (h : Works m postings m')
    (hd : Does m' more m'') : Works m (postings ++ more) m''

variable {m m' m'' : Machine} {postings more : List Posting}

theorem Works.trans (h : m.Works postings m') (h' : m'.Works more m'') :
    m.Works (postings ++ more) m'' := by
  induction h' with
  | nothing => rwa [List.append_nil]
  | step _ hd ih =>
    rw [← List.append_assoc]
    exact ih.step hd

/-! ## Steps taken apart -/

/-- A copy that is accepted is issued, unless it is one of no bytes. -/
theorem issued_of_copy {kind : CopyKind} {dst src : Pointer} {bytes : Nat} {stream : Stream}
    (h : copy kind dst src bytes stream m = .ok m') :
    m' = m ∨ m' = (if m.platform.defers kind then m.enqueue stream ⟨dst, src, bytes⟩
      else m.runCopies [⟨dst, src, bytes⟩]).recordCopy kind bytes := by
  by_cases hb : bytes = 0
  · unfold copy at h
    cases hp : m.platform with
    | host =>
      rw [hp] at h
      dsimp only at h
      split at h
      · cases h
      · cases h
        exact .inr rfl
    | simulated devices =>
      rw [hp] at h
      dsimp only at h
      rw [if_pos hb] at h
      cases h
      exact .inl rfl
  · exact .inr (copy_eq_ok h hb)

/-- A copy that changes anything is counted; it is in a queue then if the platform defers it. -/
theorem counted_of_copy {kind : CopyKind} {dst src : Pointer} {bytes : Nat} {stream : Stream}
    (h : copy kind dst src bytes stream m = .ok m') (hne : m' ≠ m) :
    m'.platform = m.platform ∧ m'.memory.size = m.memory.size ∧
      m'.stats = m.stats.recordCopy bytes ∧ m'.metrics = m.metrics.recordCopy kind bytes ∧
      decide (m'.queues ≠ m.queues) = m.platform.defers kind := by
  obtain rfl := (issued_of_copy h).resolve_left hne
  cases hd : m.platform.defers kind with
  | true =>
    have hqueued : Queues.update stream
        (fun q => { q with copies := q.copies ++ [⟨dst, src, bytes⟩] }) m.queues ≠ m.queues :=
      Queues.update_ne (fun q heq => by
        have hlen := congrArg (fun q => q.copies.length) heq
        simp at hlen) m.queues
    exact ⟨rfl, rfl, rfl, rfl, decide_eq_true hqueued⟩
  | false =>
    exact ⟨rfl, Memory.size_run m.memory [⟨dst, src, bytes⟩], rfl, rfl,
      decide_eq_false (not_not.mpr rfl)⟩

/-! ## What the metrics tell -/

/-- The metrics tell of these postings and of no others, and so do the bytes in memory. -/
structure Tells (m : Machine) (postings : List Posting) : Prop where
  value : ∀ c, m.metrics.value c = (postings.map (Posting.credit c)).sum
  batchSizes : m.metrics.batchSizes = postings.filterMap Posting.sample?
  /-- What was allocated and not given back is in memory. -/
  size : ∑ location, m.metrics.value (.allocatedBytes location) =
    m.memory.size + (postings.map Posting.releasedBytes).sum
  /-- The copies that were queued are those that the platform defers. -/
  queued : ∀ kind bytes queued, .copied kind bytes queued ∈ postings →
    queued = m.platform.defers kind

/-- The statistics have the sums of the metrics. -/
structure Agrees (m : Machine) : Prop where
  allocations : ∑ location, m.metrics.value (.allocations location) = m.stats.allocations
  copies : ∑ kind, m.metrics.value (.copies kind) = m.stats.copies
  copiedBytes : ∑ kind, m.metrics.value (.copiedBytes kind) = m.stats.copiedBytes
  synchronizations : m.metrics.value .synchronizations = m.stats.synchronizations

theorem tells_start (platform : Platform) : (start platform).Tells [] where
  value _ := rfl
  batchSizes := rfl
  size := rfl
  queued _ _ _ h := absurd h List.not_mem_nil

theorem agrees_start (platform : Platform) : (start platform).Agrees := ⟨rfl, rfl, rfl, rfl⟩

/-- A step that is not counted. -/
theorem Tells.silent (h : m.Tells postings) (hp : m'.platform = m.platform)
    (hm : m'.metrics = m.metrics) (hs : m'.memory.size = m.memory.size) :
    m'.Tells (postings ++ []) := by
  rw [List.append_nil]
  refine ⟨?_, ?_, ?_, ?_⟩
  · rw [hm]
    exact h.value
  · rw [hm]
    exact h.batchSizes
  · rw [hm, hs]
    exact h.size
  · rw [hp]
    exact h.queued

/-- One more posting. -/
theorem Tells.posting (h : m.Tells postings) {d : Posting} (hp : m'.platform = m.platform)
    (hv : ∀ c, m'.metrics.value c = m.metrics.value c + d.credit c)
    (hb : m'.metrics.batchSizes = m.metrics.batchSizes ++ d.sample?.toList)
    (hs : m'.memory.size + d.releasedBytes =
      m.memory.size + ∑ location, d.credit (.allocatedBytes location))
    (hq : ∀ kind bytes queued, .copied kind bytes queued = d → queued = m.platform.defers kind) :
    m'.Tells (postings ++ [d]) where
  value c := by
    rw [hv, h.value, List.map_append, List.sum_append, List.map_singleton, List.sum_singleton]
  batchSizes := by
    rw [hb, h.batchSizes, List.filterMap_append]
    cases hd : d.sample? <;> simp [hd]
  size := by
    simp only [hv]
    rw [Finset.sum_add_distrib, h.size, List.map_append, List.sum_append, List.map_singleton,
      List.sum_singleton]
    omega
  queued kind bytes queued hin := by
    rw [hp]
    rcases List.mem_append.mp hin with hin | hin
    · exact h.queued kind bytes queued hin
    · exact hq kind bytes queued (List.mem_singleton.mp hin)

/-- Each step is told as the posting that it is. -/
theorem Tells.does (h : m.Tells postings) (hd : m.Does more m') : m'.Tells (postings ++ more) := by
  cases hd with
  | emits | takes | keeps => exact h.silent rfl rfl rfl
  | writes => exact h.silent rfl rfl (Memory.size_write ..)
  | performs => exact h.silent rfl rfl (Memory.size_run ..)
  | allocates ha =>
    obtain ⟨-, -, ha⟩ := allocate_eq_ok ha
    refine h.posting ha.platform (fun c => ?_) ?_ ?_ nofun
    · rw [ha.metrics, Metrics.value_recordAllocation]
    · rw [ha.metrics]
      exact (List.append_nil _).symm
    · rw [ha.memory, Memory.size_alloc, List.length_replicate]
      simp [Posting.credit, Posting.releasedBytes]
  | releases hr =>
    have hr := reclaim_eq_ok hr
    refine h.posting hr.platform (fun c => ?_) ?_ ?_ nofun
    · rw [hr.metrics]
      rfl
    · rw [hr.metrics]
      exact (List.append_nil _).symm
    · rw [hr.memory]
      exact (Memory.size_free ..).trans (Nat.add_zero _).symm
  | copies hc hne =>
    obtain ⟨hp, hmem, -, hm, hq⟩ := counted_of_copy hc hne
    refine h.posting hp (fun c => ?_) ?_ ?_ fun kind bytes queued heq => ?_
    · rw [hm, Metrics.value_recordCopy]
    · rw [hm]
      exact (List.append_nil _).symm
    · rw [hmem]
      simp [Posting.credit, Posting.releasedBytes]
    · cases heq
      exact hq
  | synchronizes =>
    exact h.posting rfl (Metrics.value_recordSynchronization _) (List.append_nil _).symm rfl nofun
  | delivers => exact h.posting rfl (Metrics.value_recordFinalized _ _ _) rfl rfl nofun
  | fails =>
    exact h.posting rfl (Metrics.value_recordFailure _) (List.append_nil _).symm rfl nofun

/-- One more posting. What it adds to the metrics is summed over the labels of a counter. -/
theorem Agrees.posting (h : m.Agrees) {d : Posting}
    (hv : ∀ c, m'.metrics.value c = m.metrics.value c + d.credit c)
    (hallocations : m'.stats.allocations =
      m.stats.allocations + ∑ location, d.credit (.allocations location))
    (hcopies : m'.stats.copies = m.stats.copies + ∑ kind, d.credit (.copies kind))
    (hbytes : m'.stats.copiedBytes = m.stats.copiedBytes + ∑ kind, d.credit (.copiedBytes kind))
    (hsyncs : m'.stats.synchronizations = m.stats.synchronizations + d.credit .synchronizations) :
    m'.Agrees := by
  refine ⟨?_, ?_, ?_, ?_⟩ <;> simp only [hv]
  · rw [Finset.sum_add_distrib, h.allocations, hallocations]
  · rw [Finset.sum_add_distrib, h.copies, hcopies]
  · rw [Finset.sum_add_distrib, h.copiedBytes, hbytes]
  · rw [h.synchronizations, hsyncs]

/-- Each step counts alike in the statistics and in the metrics. -/
theorem Agrees.does (h : m.Agrees) (hd : m.Does more m') : m'.Agrees := by
  cases hd with
  | emits | takes | keeps | writes | performs =>
    exact ⟨h.allocations, h.copies, h.copiedBytes, h.synchronizations⟩
  | @allocates _ bytes _ _ location ha =>
    obtain ⟨-, -, ha⟩ := allocate_eq_ok ha
    refine h.posting (d := .allocated location bytes) (fun c => ?_) ?_ ?_ ?_ ?_
    · rw [ha.metrics, Metrics.value_recordAllocation]
    all_goals rw [ha.stats]; simp [Posting.credit, Stats.recordAllocation]
  | releases hr =>
    have hr := reclaim_eq_ok hr
    refine h.posting (d := .released 0) (fun c => ?_) ?_ ?_ ?_ ?_
    · rw [hr.metrics]
      rfl
    all_goals rw [hr.stats]; simp [Posting.credit, Stats.recordDeallocation]
  | @copies _ kind _ _ bytes _ hc hne =>
    obtain ⟨-, -, hs, hm, -⟩ := counted_of_copy hc hne
    refine h.posting (d := .copied kind bytes true) (fun c => ?_) ?_ ?_ ?_ ?_
    · rw [hm, Metrics.value_recordCopy]
    all_goals rw [hs]; simp [Posting.credit, Stats.recordCopy]
  | synchronizes =>
    exact h.posting (Metrics.value_recordSynchronization _) rfl rfl rfl rfl
  | delivers => exact h.posting (Metrics.value_recordFinalized _ _ _) rfl rfl rfl rfl
  | fails => exact h.posting (Metrics.value_recordFailure _) rfl rfl rfl rfl

/-! ## All steps since the start -/

theorem Works.tells {platform : Platform} (h : (start platform).Works postings m) :
    m.Tells postings := by
  -- The last step is told after all others, as the steps are taken.
  generalize hm₀ : start platform = m₀ at h
  induction h with
  | nothing => exact hm₀ ▸ tells_start platform
  | step _ hd ih => exact ih.does hd

theorem Works.agrees {platform : Platform} (h : (start platform).Works postings m) : m.Agrees := by
  generalize hm₀ : start platform = m₀ at h
  induction h with
  | nothing => exact hm₀ ▸ agrees_start platform
  | step _ hd ih => exact ih.does hd

theorem Does.platform (h : m.Does more m') : m'.platform = m.platform := by
  cases h with
  | allocates ha => exact (allocate_eq_ok ha).2.2.platform
  | releases hr => exact (reclaim_eq_ok hr).platform
  | copies hc hne => exact (counted_of_copy hc hne).1
  | _ => rfl

theorem Works.platform (h : m.Works postings m') : m'.platform = m.platform := by
  induction h with
  | nothing => rfl
  | step _ hd ih => exact hd.platform.trans ih

/-- The histogram has as many samples as batches were delivered. -/
theorem Tells.delivered (h : m.Tells postings) :
    m.metrics.value (.finalized true) + m.metrics.value (.finalized false) =
      m.metrics.batchSizes.length := by
  rw [h.value, h.value, h.batchSizes, List.length_filterMap_eq_countP, ← List.sum_map_add]
  refine Posting.sum_map_eq_countP fun d _ => ?_
  cases d with
  | delivered requests waited => cases waited <;> rfl
  | _ => rfl

/-- A batch that was reported is counted as delivered or as failed. -/
theorem Tells.reports (h : m.Tells postings) :
    m.metrics.value (.finalized true) + m.metrics.value (.finalized false) +
      m.metrics.value .failures = postings.countP Posting.isReport := by
  rw [h.value, h.value, h.value, ← List.sum_map_add, ← List.sum_map_add]
  refine Posting.sum_map_eq_countP fun d _ => ?_
  cases d with
  | delivered requests waited => cases waited <;> rfl
  | _ => rfl

/-- Where copies are deferred, those from host to host are the ones that were never queued. -/
theorem Tells.direct (h : m.Tells postings) (hp : m.platform.isDeferred = true) :
    (∀ kind bytes queued, .copied kind bytes queued ∈ postings →
      (kind = .hostToHost ↔ queued = false)) ∧
    m.metrics.value (.copies .hostToHost) = postings.countP Posting.isDirect ∧
    m.metrics.value (.copiedBytes .hostToHost) = (postings.map Posting.directBytes).sum := by
  have hkind : ∀ kind bytes queued, .copied kind bytes queued ∈ postings →
      (kind = .hostToHost ↔ queued = false) := fun kind bytes queued hin => by
    rw [h.queued kind bytes queued hin, Platform.defers_eq, hp]
    cases kind <;> decide
  have hcredit : ∀ d ∈ postings,
      d.credit (.copies .hostToHost) = (if d.isDirect then 1 else 0) ∧
        d.credit (.copiedBytes .hostToHost) = d.directBytes := fun d hin => by
    cases d with
    | copied kind bytes queued =>
      have hdirect := hkind kind bytes queued hin
      cases queued with
      | false =>
        obtain rfl := hdirect.mpr rfl
        exact ⟨rfl, Nat.zero_add _⟩
      | true =>
        have hne : CopyKind.hostToHost ≠ kind := fun heq => by cases hdirect.mp heq.symm
        simp [Posting.credit, Posting.isDirect, Posting.directBytes, hne]
    | _ => exact ⟨rfl, rfl⟩
  rw [h.value, h.value]
  exact ⟨hkind, Posting.sum_map_eq_countP fun d hin => (hcredit d hin).1,
    congrArg List.sum (List.map_congr_left fun d hin => (hcredit d hin).2)⟩

end Machine

end DeviceBatch
