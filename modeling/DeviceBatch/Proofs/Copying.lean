import DeviceBatch.Proofs.Accounting
import DeviceBatch.Proofs.Refusals
import DeviceBatch.Proofs.Returns

/-!
# Copies of ranges

What a copy between two buffers does, for every machine and all offsets. It fails if the ranges do
not fit, before anything has happened (`Buffer.rangeTest_eq`). Otherwise the destination is brought
onto the stream of the source, and the platform is asked. Between buffers that lie in live storage,
where they say that they lie, it does not refuse: what waiting for the old stream gives back is
nobody's storage but that of guards (`Buffer.Lives.synchronize`). So the copy is counted once, and
performed at once or put behind those that wait for the stream (`Buffer.copyRange_copies`).

Where a buffer lies elsewhere than it says, the platform does refuse, and then the destination has
already changed its stream and the old stream has been waited for (`Buffer.copyRange_fails`).
-/

namespace DeviceBatch

/-! ## Bytes that are copied -/

namespace Memory

variable {m : Memory} {p q : Pointer} {n k l : Nat}

/-- There is a live block behind bytes that are held. -/
theorem exists_block_of_holds (h : m.holds p n = true) (hn : n ≠ 0) :
    ∃ bytes, m.block? p.block = some bytes ∧ p.offset + n ≤ bytes.length := by
  unfold holds at h
  rw [Bool.or_eq_true, beq_iff_eq, or_iff_right hn] at h
  cases hb : m.block? p.block with
  | none =>
    rw [hb] at h
    cases h
  | some bytes =>
    rw [hb] at h
    exact ⟨bytes, rfl, of_decide_eq_true h⟩

/-- Only the lengths of blocks matter. -/
theorem holds_congr {m' : Memory}
    (h : (m'.block? p.block).map List.length = (m.block? p.block).map List.length) :
    m'.holds p n = m.holds p n := by
  unfold holds
  congr 1
  cases hb : m.block? p.block <;> cases hb' : m'.block? p.block <;> rw [hb, hb'] at h
  · cases h
  · cases h
  · show decide _ = decide _
    rw [Option.some.inj h]

/-- A part of bytes that are held. -/
theorem holds_advance (h : m.holds p n = true) (hk : k + l ≤ n) :
    m.holds (p.advance k) l = true := by
  by_cases hl : l = 0
  · rw [holds, hl]
    rfl
  · obtain ⟨bytes, hb, hfit⟩ := exists_block_of_holds h (by omega)
    unfold holds
    rw [show (p.advance k).block = p.block from rfl, hb, Bool.or_eq_true]
    refine .inr (decide_eq_true ?_)
    show p.offset + k + l ≤ _
    omega

/-- The bytes that were copied are read in their new place. -/
theorem read_copy_self (hp : m.holds p n = true) (hq : m.holds q n = true) :
    (m.copy p q n).read p n = m.read q n := by
  by_cases hn : n = 0
  · rw [hn]
    exact List.take_zero.trans List.take_zero.symm
  · obtain ⟨old, hold, hfit⟩ := exists_block_of_holds hp hn
    obtain ⟨bytes, hbytes, hfit'⟩ := exists_block_of_holds hq hn
    have hlen : (m.read q n).length = n := length_read hbytes hfit'
    have hself : (m.copy p q n).read p (m.read q n).length = m.read q n :=
      read_write_self hold (by rw [hlen]; exact hfit)
    rw [hlen] at hself
    exact hself

/-- Bytes beside those that are written are as before. -/
theorem read_copy_of_apart (h : q.Apart k p n) (src : Pointer) :
    (m.copy p src n).read q k = m.read q k :=
  read_write_of_apart m (h.mono (Nat.le_refl k) (length_read_le ..))

end Memory

/-! ## What a platform says to a copy -/

namespace Machine

variable {m : Machine} {p : Pointer} {n : Nat}

/-- A platform that refuses a copy says so. -/
theorem copy_eq_error {kind : CopyKind} {dst src : Pointer} {n : Nat}
    {s : Stream} {e : Error} (h : m.copy kind dst src n s = .error e) : e.RefusesCopy := by
  unfold copy at h
  split at h
  · split at h
    · cases h
      exact ⟨_, rfl⟩
    · cases h
  · split at h
    · cases h
    · split at h
      · cases h
        exact ⟨_, rfl⟩
      · split at h
        · cases h
          exact ⟨_, rfl⟩
        · split at h <;> cases h

/-- A part of a range in a device allocation lies in it. -/
theorem inDeviceAllocation_advance {k l : Nat} (h : m.inDeviceAllocation p n = true)
    (hk : k + l ≤ n) : m.inDeviceAllocation (p.advance k) l = true := by
  unfold inDeviceAllocation at h ⊢
  rw [show (p.advance k).block = p.block from rfl]
  cases hfind : m.live.find? fun e => e.block == p.block with
  | none =>
    rw [hfind] at h
    cases h
  | some e =>
    rw [hfind] at h
    refine decide_eq_true ?_
    have hfit : p.offset + n ≤ e.bytes := of_decide_eq_true h
    show p.offset + k + l ≤ e.bytes
    omega

/-- Between storage that is where the copy goes the platform accepts it. -/
theorem copy_of_inDeviceAllocation {dst src : Location} {q : Pointer} (s : Stream) (hn : n ≠ 0)
    (hdst : dst = .device → m.platform.hasDeviceMemory = true ∧ m.inDeviceAllocation p n = true)
    (hsrc : src = .device → m.platform.hasDeviceMemory = true ∧ m.inDeviceAllocation q n = true) :
    m.copy (.between dst src) p q n s =
      .ok ((if m.platform.defers (.between dst src) then m.enqueue s ⟨p, q, n⟩
        else m.runCopies [⟨p, q, n⟩]).recordCopy (.between dst src) n) := by
  have hdst' : (dst.isDevice && !m.inDeviceAllocation p n) = false := by
    cases dst with
    | host => rfl
    | device => rw [(hdst rfl).2]; rfl
  have hsrc' : (src.isDevice && !m.inDeviceAllocation q n) = false := by
    cases src with
    | host => rfl
    | device => rw [(hsrc rfl).2]; rfl
  unfold copy
  cases hp : m.platform with
  | host =>
    rw [hp] at hdst hsrc
    cases dst with
    | device => cases (hdst rfl).1
    | host =>
      cases src with
      | device => cases (hsrc rfl).1
      | host => rfl
  | simulated devices =>
    simp only [CopyKind.destination_between, CopyKind.source_between, hn, hdst', hsrc', if_false,
      Bool.false_eq_true]
    split <;> rfl

/-- A copy that is put behind those of a stream is performed after them. -/
theorem performed_enqueue (m : Machine) (s : Stream) (c : PendingCopy) :
    (m.enqueue s c).performed s = (m.performed s).run [c] := by
  unfold performed enqueue
  rw [Queues.get_update, if_pos rfl]
  exact Memory.run_append ..

end Machine

/-- The difference, if nothing is taken from a smaller number. -/
def Size.sub? (a b : Nat) : Option Nat := if b ≤ a then some (a - b) else none

namespace Buffer

variable {m m' : Machine} {dst dst' src b : Buffer} {dstOffset srcOffset srcEnd : Nat} {e : Error}
  {memory : Memory}

/-! ## Buffers in live storage -/

/-- The elements lie in live storage, which no stream is about to give back, and where the buffer
says that they lie. -/
structure Lives (b : Buffer) (m : Machine) : Prop where
  holds : m.memory.holds b.data b.byteSize = true
  unkept : b.byteSize ≠ 0 → m.Unkept b.data.block
  table : b.byteSize ≠ 0 → b.location = .device →
    m.platform.hasDeviceMemory = true ∧ m.inDeviceAllocation b.data b.byteSize = true

/-- No bytes need no storage. -/
theorem Lives.of_empty (hb : b.byteSize = 0) : b.Lives m := by
  refine ⟨?_, fun hn => absurd hb hn, fun hn => absurd hb hn⟩
  rw [Memory.holds, hb]
  rfl

/-- Storage lasts when a stream is waited for. -/
theorem Lives.synchronize (h : b.Lives m) (s : Stream) : b.Lives (m.synchronize s) := by
  have hreturns := Machine.returns_drain m s
  by_cases hb : b.byteSize = 0
  · exact .of_empty hb
  · have hkept := h.unkept hb
    refine ⟨?_, fun hn => (h.unkept hn).synchronize s, fun hn hl => ?_⟩
    · show (m.drain s).memory.holds _ _ = true
      rw [Memory.holds_congr (hreturns.blocks _ hkept)]
      exact h.holds
    · show (m.drain s).platform.hasDeviceMemory = true ∧ (m.drain s).inDeviceAllocation _ _ = true
      rw [hreturns.platform, Machine.inDeviceAllocation, hreturns.table _ hkept]
      exact h.table hn hl

theorem Lives.joined (h : b.Lives m) (dst src : Buffer) : b.Lives (joined dst src m) := by
  unfold Buffer.joined
  split
  · exact h
  · exact Lives.synchronize (m := m.emit _) ⟨h.holds, h.unkept, h.table⟩ _

/-- What is given out and lies where it says that it lies lives. -/
theorem Lives.of_accounts {A : Multiset Allocation} {a : Allocation} (h : m.Accounts A)
    (ha : a ∈ A) (hdata : b.data.block = a.block) (hfit : b.data.offset + b.byteSize ≤ a.bytes)
    (hloc : b.location = a.location) : b.Lives m := by
  have hbooks : a ∈ A + m.queues.owned := Multiset.mem_add.mpr (.inl ha)
  obtain ⟨bytes, hblock, hlen⟩ := Option.map_eq_some_iff.mp (h.balanced.occupied a hbooks)
  refine ⟨?_, fun _ hkept => ?_, fun hn hl => ?_⟩
  · unfold Memory.holds
    rw [hdata, hblock, Bool.or_eq_true]
    refine .inr (decide_eq_true ?_)
    rw [hlen]
    exact hfit
  · -- No two allocations in the books share a block.
    have hd := h.balanced.distinct
    rw [Multiset.map_add, Multiset.nodup_add] at hd
    exact Multiset.disjoint_left.mp hd.2.2 (hdata ▸ Multiset.mem_map_of_mem _ ha) hkept
  · have hdevice : a.location = .device := hloc.symm.trans hl
    refine ⟨?_, ?_⟩
    · exact decide_eq_true (Nat.lt_of_le_of_lt (Nat.zero_le _)
        (h.balanced.placed a hbooks hdevice))
    · obtain ⟨l, hl⟩ := Quotient.exists_rep (A + m.queues.owned)
      have hb : m.Balanced (l : Multiset Allocation) := by
        rw [show (l : Multiset Allocation) = A + m.queues.owned from hl]
        exact h.balanced
      have hmem : a.plain ∈ l.map Allocation.plain := List.mem_map_of_mem (by
        rw [← hl] at hbooks
        exact Multiset.mem_coe.mp hbooks)
      exact hb.orderly.inDeviceAllocation hmem hdevice ⟨hdata.symm, hfit⟩

/-! ## Ranges -/

/-- The test of the ranges, one condition after the other, where every difference has to be one. -/
def rangeTest (dst src : Buffer) (dstOffset srcOffset srcEnd : Nat) : Option Bool :=
  if srcEnd < srcOffset then some false
  else if src.size < srcEnd then some false
  else if dst.size < dstOffset then some false
  else do
    let length ← Size.sub? srcEnd srcOffset
    let room ← Size.sub? dst.size dstOffset
    return length ≤ room

/-- No difference is taken that there is not. -/
theorem rangeTest_eq (dst src : Buffer) (dstOffset srcOffset srcEnd : Nat) :
    rangeTest dst src dstOffset srcOffset srcEnd =
      some (inRange dst src dstOffset srcOffset srcEnd) := by
  unfold rangeTest inRange
  by_cases h1 : srcEnd < srcOffset
  · simp [h1]
  · by_cases h2 : src.size < srcEnd
    · simp [h2]
    · by_cases h3 : dst.size < dstOffset
      · simp [h3]
      · have h1' : srcOffset ≤ srcEnd := by omega
        have h2' : srcEnd ≤ src.size := by omega
        have h3' : dstOffset ≤ dst.size := by omega
        simp [h1, h2, h3, h1', h2', h3', Size.sub?]

/-- The ranges do not fit, with differences that are meant exactly. -/
def Misfit (dst src : Buffer) (dstOffset srcOffset srcEnd : Nat) : Prop :=
  srcEnd < srcOffset ∨ src.size < srcEnd ∨ dst.size < dstOffset ∨
    (dst.size : Int) - dstOffset < (srcEnd : Int) - srcOffset

instance (dst src : Buffer) (dstOffset srcOffset srcEnd : Nat) :
    Decidable (Misfit dst src dstOffset srcOffset srcEnd) := inferInstanceAs (Decidable (_ ∨ _))

theorem inRange_eq_false : inRange dst src dstOffset srcOffset srcEnd = false ↔
    Misfit dst src dstOffset srcOffset srcEnd := by
  rw [Bool.eq_false_iff, ne_eq, inRange_eq_true, Misfit]
  omega

/-! ## Copies that fail -/

/-- A copy that is refused is only reported. -/
theorem transfer_eq_error {loc loc' : Location} {p q : Pointer} {n : Nat} {s : Stream}
    (h : transfer loc p loc' q n s m = .error e m') :
    e.RefusesCopy ∧ ∃ event, m' = m.emit event := by
  unfold transfer at h
  split at h
  · cases h
  · rw [Action.change_bind] at h
    unfold Action.step at h
    split at h
    · cases h
    · next e' hcopy =>
      cases h
      exact ⟨Machine.copy_eq_error hcopy, _, rfl⟩

/-- A copy that fails because the ranges do not fit has done nothing. One that the platform refuses
has reported it, and if the streams differed, the destination is on the stream of the source
nevertheless, and its own stream has been waited for. -/
theorem copyRange_fails
    (h : src.copyRange dstOffset srcOffset srcEnd (m, dst) = .error e (m', dst')) :
    (e = .range dstOffset srcOffset srcEnd src.size dst.size ∧ m' = m ∧ dst' = dst) ∨
    (e.RefusesCopy ∧ dst.stream = src.stream ∧ dst' = dst ∧ ∃ event, m' = m.emit event) ∨
    (e.RefusesCopy ∧ dst.stream ≠ src.stream ∧ dst' = (dst.rebind src.stream m).1 ∧
      ∃ event, m' = (dst.rebind src.stream m).2.emit event) := by
  cases hin : inRange dst src dstOffset srcOffset srcEnd with
  | false =>
    rw [copyRange_of_not_inRange m hin] at h
    cases h
    exact .inl ⟨rfl, rfl, rfl⟩
  | true =>
    rw [copyRange_of_inRange m hin] at h
    cases ht : transfer dst.location (dst.position dstOffset) src.location
        (src.position srcOffset) ((srcEnd - srcOffset) * src.dtype.width) src.stream
        (joined dst src m) with
    | ok _ m₁ =>
      rw [Action.onFirst_of_ok ht] at h
      cases h
    | error e' m₁ =>
      rw [Action.onFirst_of_error ht] at h
      cases h
      obtain ⟨hrefused, event, rfl⟩ := transfer_eq_error ht
      unfold joined
      by_cases hs : dst.stream = src.stream
      · rw [if_pos hs, ← hs]
        exact .inr (.inl ⟨hrefused, rfl, rfl, event, rfl⟩)
      · rw [if_neg hs]
        exact .inr (.inr ⟨hrefused, hs, rfl, event, rfl⟩)

open Session in
/-- A copy from a device waits, and then host storage on another stream poses as device memory. -/
def posing : List Step := [
  .perform (.buffer (.ofList "far" .uint8 [7] .device 0 ⟨1⟩)),
  .perform (.buffer (.allocate "near" .uint8 1 .host 0 ⟨1⟩)),
  .perform (.buffer (.copy (.slot "near") (.slot "far") 0 none)),
  .perform (.buffer (.ofList "other" .uint8 [9] .host 0 ⟨2⟩)),
  .perform (.buffer (.borrow "posing" (.slot "other") 0 1 (some .device) 0 ⟨2⟩))]

open Session in
/-- The copy from the posing range is refused, on either stream. -/
theorem posing_fails :
    let m := (posing.foldl after (start (.simulated ⟨1, 64, true⟩) 0)).machine
    let near : Buffer := ⟨.owned ⟨3, 1, .host, 0⟩, .uint8, 1, 0, ⟨1⟩⟩
    ∀ stream ∈ [Stream.mk 1, ⟨2⟩],
      let posed : Buffer := borrow .uint8 .device ⟨4, 0⟩ 1 0 stream
      ∃ e m' near', posed.copyRange 0 0 1 (m, near) = .error e (m', near') ∧
        ((e = .range 0 0 1 1 1 ∧ m' = m ∧ near' = near) ∨
        (e.RefusesCopy ∧ near.stream = stream ∧ near' = near ∧ ∃ event, m' = m.emit event) ∨
        (e.RefusesCopy ∧ near.stream ≠ stream ∧ near' = (near.rebind stream m).1 ∧
          ∃ event, m' = (near.rebind stream m).2.emit event)) := by
  intro m near stream hstream posed
  have hrefused : (match posed.copyRange 0 0 1 (m, near) with
      | .ok .. => true
      | .error .. => false) = false := by
    rcases List.mem_pair.mp hstream with rfl | rfl <;> decide +kernel
  cases h : posed.copyRange 0 0 1 (m, near) with
  | ok u p =>
    rw [h] at hrefused
    cases hrefused
  | error e p => exact ⟨e, p.1, p.2, rfl, copyRange_fails h⟩

open Session in
/-- The destination is on the other stream afterwards, and the copy that waited has been performed,
though the copy that was asked for has been refused. -/
theorem posing_rebinds :
    let s := posing.foldl after (start (.simulated ⟨1, 64, true⟩) 0)
    let refused := s.perform (.buffer (.copy (.slot "near") (.slot "posing") 0 none))
    let near : Buffer := ⟨.owned ⟨3, 1, .host, 0⟩, .uint8, 1, 0, ⟨1⟩⟩
    (start (.simulated ⟨1, 64, true⟩) 0).Allows posing ∧
      (s.slots.lookup "near").map Resource.data = some near ∧
      (refused.2.slots.lookup "near").map Resource.data = some { near with stream := ⟨2⟩ } ∧
      refused.1.isOk = false ∧
      near.bytes s.machine = [0] ∧ near.bytes refused.2.machine = [7] ∧
      ((s.machine.queues.get ⟨1⟩).copies.length, (s.machine.queues.get ⟨1⟩).guards.length) =
        (2, 1) ∧
      refused.2.machine.queues.get ⟨1⟩ = {} ∧
      s.machine.stats.synchronizations = 0 ∧ refused.2.machine.stats.synchronizations = 1 ∧
      s.machine.stats.deallocations = 0 ∧ refused.2.machine.stats.deallocations = 1 := by
  refine ⟨⟨List.not_mem_nil, ?_, trivial, ?_, ?_, trivial⟩, by decide +kernel, by decide +kernel,
    by decide +kernel, by decide +kernel, by decide +kernel, by decide +kernel, by decide +kernel,
    by decide +kernel, by decide +kernel, by decide +kernel, by decide +kernel⟩
  · show "near" ∉ _
    decide +kernel
  · show "other" ∉ _
    decide +kernel
  · show "posing" ∉ _
    decide +kernel

/-! ## Copies that are accepted -/

/-- The bytes of the element with that number. -/
def element (b : Buffer) (memory : Memory) (k : Nat) : List UInt8 :=
  memory.read (b.position k) b.dtype.width

/-- Between two memories a range of elements was copied, and nothing else has changed. -/
structure Copied (dst src : Buffer) (dstOffset srcOffset length : Nat) (before after : Memory) :
    Prop where
  copied : ∀ k < length, dst.element after (dstOffset + k) = src.element before (srcOffset + k)
  others : ∀ k < dst.size, k < dstOffset ∨ dstOffset + length ≤ k →
    dst.element after k = dst.element before k
  source : ∀ k < src.size, src.element after k = src.element before k
  /-- No other byte of any storage has changed. -/
  frame : ∀ p n, p.Apart n (dst.position dstOffset) (length * dst.dtype.width) →
    after.read p n = before.read p n
  lengths : ∀ k, (after.block? k).map List.length = (before.block? k).map List.length

/-- The elements of a range one by one. -/
theorem element_add (b : Buffer) (memory : Memory) {i k n : Nat} (hk : k < n) :
    b.element memory (i + k) =
      ((memory.read (b.position i) (n * b.dtype.width)).drop (k * b.dtype.width)).take
        b.dtype.width := by
  have hle : (k + 1) * b.dtype.width ≤ n * b.dtype.width := Nat.mul_le_mul_right _ hk
  rw [Nat.succ_mul] at hle
  rw [← Memory.read_advance memory (b.position i) hle, element]
  congr 1
  simp only [position, Pointer.advance, Nat.add_mul, Nat.add_assoc]

/-- A range of elements that are held. -/
theorem holds_position (h : memory.holds b.data b.byteSize = true) {i n : Nat}
    (hfit : i + n ≤ b.size) : memory.holds (b.position i) (n * b.dtype.width) = true := by
  refine Memory.holds_advance h ?_
  rw [← Nat.add_mul]
  exact Nat.mul_le_mul_right _ hfit

/-- An element lies apart from what its buffer lies apart from. -/
theorem apart_position {p : Pointer} {n : Nat} (h : b.data.Apart b.byteSize p n) {i k : Nat}
    (hfit : i + k ≤ b.size) : (b.position i).Apart (k * b.dtype.width) p n := by
  intro hblock
  have hle : (i + k) * b.dtype.width ≤ b.size * b.dtype.width := Nat.mul_le_mul_right _ hfit
  rw [Nat.add_mul] at hle
  have hapart := h hblock
  simp only [byteSize] at hapart
  simp only [position, Pointer.advance]
  omega

/-- A copy between buffers that are held, wherever it is performed. -/
theorem copied_rangeCopy (hin : inRange dst src dstOffset srcOffset srcEnd = true)
    (hty : dst.dtype = src.dtype) (hapart : dst.data.Apart dst.byteSize src.data src.byteSize)
    (hdst : memory.holds dst.data dst.byteSize = true)
    (hsrc : memory.holds src.data src.byteSize = true) :
    Copied dst src dstOffset srcOffset (srcEnd - srcOffset) memory
      (memory.run [rangeCopy dst src dstOffset srcOffset srcEnd]) := by
  obtain ⟨h1, h2, h3, h4⟩ := inRange_eq_true.mp hin
  have hroom : dstOffset + (srcEnd - srcOffset) ≤ dst.size := by omega
  have hself := Memory.read_copy_self (holds_position hdst hroom)
    (hty ▸ holds_position hsrc (i := srcOffset) (n := srcEnd - srcOffset) (by omega))
  have hrun : memory.run [rangeCopy dst src dstOffset srcOffset srcEnd] =
      memory.copy (dst.position dstOffset) (src.position srcOffset)
        ((srcEnd - srcOffset) * dst.dtype.width) := by
    rw [hty]
    rfl
  have hframe : ∀ p n, p.Apart n (dst.position dstOffset)
      ((srcEnd - srcOffset) * dst.dtype.width) →
      (memory.run [rangeCopy dst src dstOffset srcOffset srcEnd]).read p n = memory.read p n := by
    intro p n hp
    rw [hrun]
    exact Memory.read_copy_of_apart hp _
  refine ⟨fun k hk => ?_, fun k hk hout => ?_, fun k hk => ?_, hframe,
    Memory.length_block?_run memory _⟩
  · rw [element_add dst _ hk, hrun, hself, element_add src _ hk, hty]
  · -- Elements beside the range are no part of it.
    refine hframe _ _ fun _ => ?_
    simp only [position, Pointer.advance]
    rcases hout with hout | hout
    · have hle := Nat.mul_le_mul_right dst.dtype.width (show k + 1 ≤ dstOffset from hout)
      rw [Nat.succ_mul] at hle
      omega
    · have hle := Nat.mul_le_mul_right dst.dtype.width hout
      rw [Nat.add_mul] at hle
      omega
  · have hsrc' := apart_position (apart_position hapart hroom).symm (i := k) (k := 1) hk
    rw [Nat.one_mul] at hsrc'
    exact hframe _ _ hsrc'

/-! ## What a copy comes to -/

/-- Where the elements of a range lie, if there are any. -/
theorem Lives.table_position (h : b.Lives m) {i n : Nat} (hfit : i + n ≤ b.size)
    (hn : n * b.dtype.width ≠ 0) (hl : b.location = .device) :
    m.platform.hasDeviceMemory = true ∧
      m.inDeviceAllocation (b.position i) (n * b.dtype.width) = true := by
  have hle : (i + n) * b.dtype.width ≤ b.byteSize := Nat.mul_le_mul_right _ hfit
  rw [Nat.add_mul] at hle
  obtain ⟨hp, hin⟩ := h.table (by omega) hl
  exact ⟨hp, Machine.inDeviceAllocation_advance hin hle⟩

/-- The machine once the copy of a range has been issued. -/
def issued (dst src : Buffer) (dstOffset srcOffset srcEnd : Nat) (m : Machine) : Machine :=
  let kind := CopyKind.between dst.location src.location
  let c := rangeCopy dst src dstOffset srcOffset srcEnd
  let m := m.emit (.bufferCopy kind c.bytes src.stream)
  (if m.platform.defers kind then m.enqueue src.stream c else m.runCopies [c]).recordCopy kind
    c.bytes

/-- The copy of a range of live storage is issued, unless the range is empty. -/
theorem copyRange_of_lives (hdst : dst.Lives m) (hsrc : src.Lives m) (hty : dst.dtype = src.dtype)
    (hin : inRange dst src dstOffset srcOffset srcEnd = true) :
    src.copyRange dstOffset srcOffset srcEnd (m, dst) =
      .ok () (if srcOffset = srcEnd then joined dst src m
        else issued dst src dstOffset srcOffset srcEnd (joined dst src m),
        { dst with stream := src.stream }) := by
  obtain ⟨h1, h2, h3, h4⟩ := inRange_eq_true.mp hin
  rw [copyRange_of_inRange m hin]
  by_cases hz : srcOffset = srcEnd
  · rw [if_pos hz, hz, Nat.sub_self, Nat.zero_mul]
    rfl
  · rw [if_neg hz]
    have hn : (srcEnd - srcOffset) * src.dtype.width ≠ 0 :=
      Nat.mul_ne_zero (by omega) (Nat.ne_of_gt src.dtype.width_pos)
    refine Action.onFirst_of_ok ?_ _
    unfold transfer
    rw [if_neg hn, Action.change_bind]
    unfold Action.step
    rw [Machine.copy_of_inDeviceAllocation (m := (joined dst src m).emit _) src.stream hn
      (fun hl => ?_) fun hl => ?_]
    · rfl
    · rw [← hty] at hn ⊢
      exact (hdst.joined dst src).table_position (by omega) hn hl
    · exact (hsrc.joined dst src).table_position (by omega) hn hl

/-- A copy that succeeds has been issued, unless the range is empty. -/
theorem copyRange_eq_ok
    (h : src.copyRange dstOffset srcOffset srcEnd (m, dst) = .ok () (m', dst')) :
    dst' = { dst with stream := src.stream } ∧
      m' = if (srcEnd - srcOffset) * src.dtype.width = 0 then joined dst src m
        else issued dst src dstOffset srcOffset srcEnd (joined dst src m) := by
  cases hin : inRange dst src dstOffset srcOffset srcEnd with
  | false =>
    rw [copyRange_of_not_inRange m hin] at h
    cases h
  | true =>
    rw [copyRange_of_inRange m hin] at h
    obtain ⟨ht, hdst⟩ := Action.onFirst_eq_ok h
    refine ⟨hdst, ?_⟩
    unfold transfer at ht
    split at ht
    · next hz =>
      rw [if_pos hz]
      exact (EStateM.Result.ok.inj ht).2.symm
    · next hn =>
      rw [if_neg hn]
      rw [Action.change_bind] at ht
      unfold Action.step at ht
      split at ht
      · next m₂ hcopy =>
        cases ht
        exact Machine.copy_eq_ok hcopy hn
      · cases ht

/-- What a copy of ranges that fit has done, from `m` to `m'`. All that changes besides is what
waiting for the old stream of the destination changes, if that is another one. -/
structure Issues (dst src : Buffer) (dstOffset srcOffset srcEnd : Nat) (m m' : Machine) : Prop where
  waited : m'.stats.synchronizations =
    m.stats.synchronizations + if dst.stream = src.stream then 0 else 1
  drained : dst.stream ≠ src.stream → m'.queues.get dst.stream = {}
  tables : m'.platform = m.platform ∧ m'.live = (joined dst src m).live ∧
    m'.used = (joined dst src m).used
  /-- An empty range is not copied. -/
  nothing : srcOffset = srcEnd → m' = joined dst src m
  /-- The copy is counted once. -/
  counted : srcOffset < srcEnd →
    let bytes := (srcEnd - srcOffset) * src.dtype.width
    m'.stats = (joined dst src m).stats.recordCopy bytes ∧
      m'.stats.copies = m.stats.copies + 1 ∧
      m'.stats.copiedBytes = m.stats.copiedBytes + bytes ∧
      m'.metrics = (joined dst src m).metrics.recordCopy (.between dst.location src.location) bytes
  /-- A copy that is deferred is the last one of its stream. -/
  queued : srcOffset < srcEnd → m.platform.defers (.between dst.location src.location) = true →
    m'.memory = (joined dst src m).memory ∧
      ∀ s, m'.queues.get s =
        let q := (joined dst src m).queues.get s
        if s = src.stream then
          { q with copies := q.copies ++ [rangeCopy dst src dstOffset srcOffset srcEnd] }
        else q
  /-- After those before it, the copy is performed when its stream is waited for. -/
  settled : srcOffset < srcEnd →
    m.platform.defers (.between dst.location src.location) = true →
    Copied dst src dstOffset srcOffset (srcEnd - srcOffset)
        ((joined dst src m).performed src.stream) (m'.performed src.stream) ∧
      ((∀ a, .storage a ∈ (m'.queues.get src.stream).guards → a.location = .host) →
        ∀ p n, m'.Unkept p.block →
          (m'.synchronize src.stream).memory.read p n = (m'.performed src.stream).read p n)
  /-- Any other copy is performed at once. -/
  performed : srcOffset < srcEnd →
    m.platform.defers (.between dst.location src.location) = false →
    m'.queues = (joined dst src m).queues ∧
      Copied dst src dstOffset srcOffset (srcEnd - srcOffset) (joined dst src m).memory m'.memory

/-- What is counted when the streams differ. -/
theorem stats_joined (dst src : Buffer) (m : Machine) :
    (joined dst src m).stats = { m.stats with
      deallocations := (joined dst src m).stats.deallocations
      liveBytes := (joined dst src m).stats.liveBytes
      synchronizations :=
        m.stats.synchronizations + if dst.stream = src.stream then 0 else 1 } := by
  unfold joined
  split
  · rfl
  · unfold rebind Machine.synchronize Machine.recordSynchronization
    dsimp only
    rw [(Machine.returns_drain (m.emit _) dst.stream).counted]
    rfl

theorem platform_joined (dst src : Buffer) (m : Machine) :
    (joined dst src m).platform = m.platform := by
  unfold joined
  split
  · rfl
  · exact (Machine.returns_drain (m.emit _) dst.stream).platform

/-- The old stream of the destination has no work left. -/
theorem get_joined (h : dst.stream ≠ src.stream) :
    (joined dst src m).queues.get dst.stream = {} := by
  unfold joined
  rw [if_neg h]
  exact Machine.get_synchronize _ _

theorem issued_of_defers {m : Machine}
    (hd : m.platform.defers (.between dst.location src.location) = true) :
    issued dst src dstOffset srcOffset srcEnd m =
      (((m.emit (.bufferCopy (.between dst.location src.location)
        ((srcEnd - srcOffset) * src.dtype.width) src.stream)).enqueue src.stream
          (rangeCopy dst src dstOffset srcOffset srcEnd)).recordCopy
            (.between dst.location src.location) ((srcEnd - srcOffset) * src.dtype.width)) :=
  congrArg (Machine.recordCopy · _ _) (if_pos hd)

theorem issued_of_not_defers {m : Machine}
    (hd : m.platform.defers (.between dst.location src.location) = false) :
    issued dst src dstOffset srcOffset srcEnd m =
      (((m.emit (.bufferCopy (.between dst.location src.location)
        ((srcEnd - srcOffset) * src.dtype.width) src.stream)).runCopies
          [rangeCopy dst src dstOffset srcOffset srcEnd]).recordCopy
            (.between dst.location src.location) ((srcEnd - srcOffset) * src.dtype.width)) :=
  congrArg (Machine.recordCopy · _ _) (if_neg (ne_true_of_eq_false hd))

/-- Ranges that fit are copied as they should be. -/
theorem issues_copyRange (hdst : dst.Lives m) (hsrc : src.Lives m) (hty : dst.dtype = src.dtype)
    (hapart : dst.data.Apart dst.byteSize src.data src.byteSize)
    (hin : inRange dst src dstOffset srcOffset srcEnd = true) :
    Issues dst src dstOffset srcOffset srcEnd m
      (if srcOffset = srcEnd then joined dst src m
        else issued dst src dstOffset srcOffset srcEnd (joined dst src m)) := by
  have hcounted := stats_joined dst src m
  have hplatform := platform_joined dst src m
  have hdst' := (hdst.joined dst src).holds
  have hsrc' := (hsrc.joined dst src).holds
  by_cases hz : srcOffset = srcEnd
  · have hlt : ¬ srcOffset < srcEnd := by omega
    rw [if_pos hz]
    exact ⟨congrArg Stats.synchronizations hcounted, get_joined, ⟨hplatform, rfl, rfl⟩,
      fun _ => rfl, fun h => absurd h hlt, fun h => absurd h hlt, fun h => absurd h hlt,
      fun h => absurd h hlt⟩
  · rw [if_neg hz]
    cases hd : m.platform.defers (.between dst.location src.location) with
    | true =>
      rw [issued_of_defers (hplatform ▸ hd)]
      have hqueues := fun s => Queues.get_update src.stream s
        (fun q => { q with copies := q.copies ++ [rangeCopy dst src dstOffset srcOffset srcEnd] })
        (joined dst src m).queues
      -- The copies before it change no lengths, so both ranges are still held when it is its turn.
      have hrun := Memory.length_block?_run (joined dst src m).memory
        ((joined dst src m).queues.get src.stream).copies
      have hcopied := copied_rangeCopy hin hty hapart
        ((Memory.holds_congr (hrun _)).trans hdst') ((Memory.holds_congr (hrun _)).trans hsrc')
      exact {
        waited := congrArg Stats.synchronizations hcounted
        drained := fun h => (hqueues dst.stream).trans ((if_neg h).trans (get_joined h))
        tables := ⟨hplatform, rfl, rfl⟩
        nothing := fun h => absurd h hz
        counted := fun _ => ⟨rfl, congrArg (fun s => s.copies + 1) hcounted,
          congrArg (fun s => s.copiedBytes + _) hcounted, rfl⟩
        queued := fun _ _ => ⟨rfl, fun s => (hqueues s).trans (by split <;> simp [*])⟩
        settled := fun _ _ => ⟨Machine.performed_enqueue (joined dst src m) .. ▸ hcopied,
          fun hg p n hp => Machine.read_synchronize hg hp n⟩
        performed := fun _ h => absurd (hd.symm.trans h) (by decide) }
    | false =>
      rw [issued_of_not_defers (hplatform ▸ hd)]
      exact {
        waited := congrArg Stats.synchronizations hcounted
        drained := get_joined
        tables := ⟨hplatform, rfl, rfl⟩
        nothing := fun h => absurd h hz
        counted := fun _ => ⟨rfl, congrArg (fun s => s.copies + 1) hcounted,
          congrArg (fun s => s.copiedBytes + _) hcounted, rfl⟩
        queued := fun _ h => absurd (hd.symm.trans h) (by decide)
        settled := fun _ h => absurd (hd.symm.trans h) (by decide)
        performed := fun _ _ => ⟨rfl, copied_rangeCopy hin hty hapart hdst' hsrc'⟩ }

/-- Between buffers of one type that lie apart in live storage a copy fails exactly if the ranges do
not fit, and then nothing has happened. Otherwise the destination is on the stream of the source,
and the elements are copied, whenever the copy is performed while the storage is live. -/
theorem copyRange_copies (hdst : dst.Lives m) (hsrc : src.Lives m) (hty : dst.dtype = src.dtype)
    (hapart : dst.data.Apart dst.byteSize src.data src.byteSize)
    (dstOffset srcOffset srcEnd : Nat) :
    (∃ fits, rangeTest dst src dstOffset srcOffset srcEnd = some fits ∧
      (fits = false ↔ Misfit dst src dstOffset srcOffset srcEnd)) ∧
    (Misfit dst src dstOffset srcOffset srcEnd →
      src.copyRange dstOffset srcOffset srcEnd (m, dst) =
        .error (.range dstOffset srcOffset srcEnd src.size dst.size) (m, dst)) ∧
    (¬ Misfit dst src dstOffset srcOffset srcEnd →
      (∃ m', src.copyRange dstOffset srcOffset srcEnd (m, dst) =
          .ok () (m', { dst with stream := src.stream }) ∧
        Issues dst src dstOffset srcOffset srcEnd m m') ∧
      ∀ memory : Memory, memory.holds dst.data dst.byteSize = true →
        memory.holds src.data src.byteSize = true →
        Copied dst src dstOffset srcOffset (srcEnd - srcOffset) memory
          (memory.run [rangeCopy dst src dstOffset srcOffset srcEnd])) := by
  refine ⟨⟨_, rangeTest_eq dst src dstOffset srcOffset srcEnd, inRange_eq_false⟩, fun h => ?_,
    fun h => ?_⟩
  · exact copyRange_of_not_inRange m (inRange_eq_false.mpr h)
  · have hin : inRange dst src dstOffset srcOffset srcEnd = true := by
      rwa [← inRange_eq_false, Bool.not_eq_false] at h
    exact ⟨⟨_, copyRange_of_lives hdst hsrc hty hin, issues_copyRange hdst hsrc hty hapart hin⟩,
      fun memory hp hq => copied_rangeCopy hin hty hapart hp hq⟩

open Session in
/-- Two buffers on streams of their own, each with the copy still waiting that fills it. -/
def filling : List Step := [
  .perform (.buffer (.ofList "here" .uint16 [1, 2, 3] .device 0 ⟨1⟩)),
  .perform (.buffer (.ofList "there" .uint16 [4, 5] .device 0 ⟨2⟩))]

open Session in
/-- Two elements fit behind the first one of three, and not behind the second one. -/
theorem filling_copies :
    let m := (filling.foldl after (start (.simulated ⟨1, 64, true⟩) 0)).machine
    let here : Buffer := ⟨.owned ⟨2, 6, .device, 0⟩, .uint16, 3, 0, ⟨1⟩⟩
    let there : Buffer := ⟨.owned ⟨4, 4, .device, 0⟩, .uint16, 2, 0, ⟨2⟩⟩
    here.Lives m ∧ there.Lives m ∧ here.dtype = there.dtype ∧
      here.data.Apart here.byteSize there.data there.byteSize ∧
      (∃ m', there.copyRange 1 0 2 (m, here) = .ok () (m', { here with stream := ⟨2⟩ }) ∧
        Issues here there 1 0 2 m m') ∧
      there.copyRange 2 0 2 (m, here) = .error (.range 2 0 2 2 3) (m, here) := by
  intro m here there
  have hfree : (start (.simulated ⟨1, 64, true⟩) 0).Allows filling := by
    refine ⟨List.not_mem_nil, ?_, trivial⟩
    show "there" ∉ _
    decide +kernel
  have haccounts := ((accounted_start (.simulated ⟨1, 64, true⟩) 0).foldl_after hfree).machine_zero
  have hhere : here.Lives m := .of_accounts (a := ⟨2, 6, .device, 0⟩) haccounts (by decide +kernel)
    rfl (by decide) rfl
  have hthere : there.Lives m := .of_accounts (a := ⟨4, 4, .device, 0⟩) haccounts
    (by decide +kernel) rfl (by decide) rfl
  have hapart : here.data.Apart here.byteSize there.data there.byteSize := .of_ne (by decide)
  have hcopies := fun i => copyRange_copies hhere hthere rfl hapart i 0 2
  exact ⟨hhere, hthere, rfl, hapart, ((hcopies 1).2.2 (by decide)).1, (hcopies 2).2.1 (by decide)⟩

end Buffer

end DeviceBatch
