import DeviceBatch.Proofs.Copying
import DeviceBatch.Proofs.Grounded

/-!
# Moving buffers

A buffer that is moved to where it already lies is its own result. Otherwise it is copied, and then
its storage is given back: at once if the copy has been performed, and otherwise when its stream is
next drained, which keeps the storage until then. The new buffer lies in a block that no copy which
waited before writes and no queue gives back (`Machine.Rests`), so it holds what it would hold if
the source had stayed (`Session.moveTo_moves`).
-/

namespace DeviceBatch

open Local

/-! ## Blocks that are left alone -/

theorem Allocation.block_ne_of_notMem {a : Allocation} {k : Nat}
    (h : k ∉ a.owned.map Allocation.block) (hb : a.bytes ≠ 0) : a.block ≠ k := by
  rintro rfl
  rw [owned_of_ne hb] at h
  exact h (Multiset.mem_map_of_mem _ (Multiset.mem_singleton_self a))

theorem StreamQueue.mem_owned_of_guard {q : StreamQueue} {a : Allocation}
    (h : .storage a ∈ q.guards) (ha : a.bytes ≠ 0) : a ∈ q.owned := by
  obtain ⟨l, r, hguards⟩ := List.append_of_mem h
  unfold owned
  rw [hguards, List.map_append, List.sum_append, List.map_cons, List.sum_cons, Guard.owned,
    Allocation.owned_of_ne ha]
  simp

namespace Machine

variable {m m' : Machine} {A B : Multiset Allocation} {a : Allocation} {k : Nat} {s : Stream}

/-- No copy that waits writes the block, and no queue keeps it alive. -/
structure Rests (m : Machine) (k : Nat) : Prop where
  unwritten : m.Unwritten k
  unkept : m.Unkept k

theorem Rests.of_subset (h : m.Rests k) (hq : m'.queues ⊆ m.queues) : m'.Rests k where
  unwritten := fun s c ⟨q, hmem, hc⟩ => h.unwritten s c ⟨q, hq hmem, hc⟩
  unkept := fun hk => h.unkept (Multiset.map_subset_map (Queues.owned_subset hq) hk)

theorem block?_releaseIdle (m : Machine) (h : k ∉ a.owned.map Allocation.block) :
    (m.releaseIdle a).memory.block? k = m.memory.block? k := by
  unfold releaseIdle
  split
  · rfl
  · next hb =>
    cases hr : m.reclaim a with
    | error e => rfl
    | ok m' =>
      have hne := Allocation.block_ne_of_notMem h hb
      show m'.memory.block? k = _
      rw [(reclaim_eq_ok hr).memory, Memory.block?_free, if_neg (Ne.symm hne)]

/-- Guards that are dropped leave a block alone that none of them keeps, while `P` holds. -/
theorem block?_foldl_guards {P : Machine → Prop} {f : Machine → Guard → Machine}
    (hf : ∀ m g, P m → k ∉ g.owned.map Allocation.block →
      P (f m g) ∧ (f m g).memory.block? k = m.memory.block? k)
    {gs : List Guard} (hgs : k ∉ ((gs.map Guard.owned).sum).map Allocation.block) (h : P m) :
    (gs.foldl f m).memory.block? k = m.memory.block? k := by
  induction gs generalizing m with
  | nil => rfl
  | cons g gs ih =>
    rw [List.map_cons, List.sum_cons, Multiset.map_add, Multiset.mem_add, not_or] at hgs
    obtain ⟨hP, hblock⟩ := hf m g h hgs.1
    exact (ih hgs.2 hP).trans hblock

theorem block?_drainIdle (m : Machine) {q : StreamQueue} (hc : ∀ c ∈ q.copies, c.dst.block ≠ k)
    (hg : k ∉ q.owned.map Allocation.block) :
    (m.drainIdle q).memory.block? k = m.memory.block? k := by
  refine (block?_foldl_guards (P := fun _ => True) (fun m g _ hk => ⟨trivial, ?_⟩) hg trivial).trans
    (Memory.block?_run m.memory hc)
  cases g with
  | storage a => exact block?_releaseIdle m hk
  | token name => rfl

theorem block?_drainAll (h : m.Rests k) : m.drainAll.memory.block? k = m.memory.block? k := by
  have hall : ∀ q ∈ m.queues.map Prod.snd,
      (∀ c ∈ q.copies, c.dst.block ≠ k) ∧ k ∉ q.owned.map Allocation.block := by
    rintro q hq
    obtain ⟨p, hp, rfl⟩ := List.mem_map.mp hq
    refine ⟨fun c hc => h.unwritten p.1 c ⟨p.2, hp, hc⟩, fun hk => h.unkept ?_⟩
    exact Multiset.map_subset_map (fun a ha => Queues.mem_owned.mpr ⟨p, hp, ha⟩) hk
  suffices hfold : ∀ (qs : List StreamQueue) (m : Machine), (∀ q ∈ qs,
      (∀ c ∈ q.copies, c.dst.block ≠ k) ∧ k ∉ q.owned.map Allocation.block) →
      (qs.foldl drainIdle m).memory.block? k = m.memory.block? k from hfold _ _ hall
  intro qs
  induction qs with
  | nil => exact fun m _ => rfl
  | cons q qs ih =>
    intro m hqs
    rw [List.forall_mem_cons] at hqs
    exact (ih _ hqs.2).trans (block?_drainIdle m hqs.1.1 hqs.1.2)

/-- Giving back storage leaves alone what rests elsewhere. -/
theorem block?_release (h : m.Rests k) (ha : k ∉ a.owned.map Allocation.block) :
    (m.release a).memory.block? k = m.memory.block? k := by
  unfold release
  split
  · rfl
  · rw [block?_releaseIdle _ ha]
    cases a.location with
    | host => rfl
    | device => exact block?_drainAll h

theorem Rests.release (h : m.Rests k) (a : Allocation) : (m.release a).Rests k :=
  h.of_subset (queues_dropGuard m (.storage a))

/-- Waiting for a stream leaves alone what rests. -/
theorem block?_synchronize (h : m.Rests k) (s : Stream) :
    (m.synchronize s).memory.block? k = m.memory.block? k := by
  show (m.drain s).memory.block? k = _
  unfold drain
  cases hq : m.queues.lookup s with
  | none => rfl
  | some q =>
    obtain ⟨l, r, hqs, -⟩ := List.lookup_eq_some_iff.mp hq
    have hmem : (s, q) ∈ m.queues := hqs ▸ by simp
    refine (block?_foldl_guards (P := (·.Rests k)) (fun m g hm hk => ?_) ?_ ?_).trans
      (Memory.block?_run m.memory fun c hc => h.unwritten s c ⟨q, hmem, hc⟩)
    · cases g with
      | storage a => exact ⟨hm.release a, block?_release hm hk⟩
      | token name => exact ⟨hm, rfl⟩
    · exact fun hk => h.unkept (Multiset.map_subset_map
        (fun a ha => Queues.mem_owned.mpr ⟨(s, q), hmem, ha⟩) hk)
    · exact h.of_subset (List.filter_subset_self _)

/-! ## Storage that was given back -/

namespace Accounts

/-- The block of storage that the user has is kept by nobody else. -/
theorem notMem (h : m.Accounts (a.owned + A)) (ha : a.bytes ≠ 0) :
    a.block ∉ A.map Allocation.block ∧ m.Unkept a.block := by
  have hd := h.balanced.distinct
  rw [Allocation.owned_of_ne ha, add_assoc, Multiset.singleton_add, Multiset.map_cons,
    Multiset.nodup_cons, Multiset.map_add, Multiset.mem_add, not_or] at hd
  exact hd.1

theorem block_lt (h : m.Accounts A) (ha : a ∈ A + m.queues.owned) : a.block < m.memory.next := by
  obtain ⟨bytes, hblock, -⟩ := Option.map_eq_some_iff.mp (h.balanced.occupied a ha)
  exact Memory.lt_next_of_block? hblock

/-- The block that is given out next rests. -/
theorem rests_next (h : m.Accounts A) (hg : m.Grounded) : m.Rests m.memory.next where
  unwritten := fun s c ⟨q, hq, hc⟩ => Nat.ne_of_lt (hg.waiting (s, q) hq c hc).1
  unkept := fun hk => by
    obtain ⟨a, ha, hblock⟩ := Multiset.mem_map.mp hk
    exact absurd hblock (Nat.ne_of_lt (h.block_lt (Multiset.mem_add.mpr (.inr ha))))

/-- Storage that the user gives back is counted once, after what is given back on the way. -/
theorem deallocations_release (h : m.Accounts (a.owned + A)) (ha : a.bytes ≠ 0) :
    (m.release a).stats.deallocations =
      (m.settleFor a.location).stats.deallocations + 1 := by
  have hsettled := (h.settleFor a.location).balanced
  rw [Allocation.owned_of_ne ha, add_assoc, Multiset.singleton_add] at hsettled
  obtain ⟨m', hr, -⟩ := hsettled.reclaim
  unfold Machine.release Machine.releaseIdle
  rw [if_neg ha, if_neg ha, hr]
  exact congrArg Stats.deallocations (reclaim_eq_ok hr).stats

/-- What is in nobody's hands has been given back. -/
theorem vacant (h : m.Accounts A) (hA : k ∉ A.map Allocation.block) (hk : m.Unkept k) :
    m.memory.block? k = none := by
  refine h.balanced.vacant k fun hmem => ?_
  rw [Multiset.map_add, Multiset.mem_add] at hmem
  exact hmem.elim hA hk

/-- Storage that the user gives back is gone. -/
theorem vacant_release (h : m.Accounts (a.owned + A)) (ha : a.bytes ≠ 0) :
    (m.release a).memory.block? a.block = none := by
  obtain ⟨hA, hk⟩ := h.notMem ha
  exact h.release.vacant hA fun hmem => hk (Multiset.map_subset_map
    (Queues.owned_subset (queues_dropGuard m (.storage a))) hmem)

/-- Storage that a guard keeps lives, and is given back when the queue is drained, alone or with
all others. -/
theorem guarded (h : m.Accounts A) (hg : .storage a ∈ (m.queues.get s).guards)
    (ha : a.bytes ≠ 0) :
    (m.memory.block? a.block).map List.length = some a.bytes ∧
      (m.drain s).memory.block? a.block = none ∧ m.drainAll.memory.block? a.block = none := by
  unfold Queues.get at hg
  cases hq : m.queues.lookup s with
  | none =>
    rw [hq] at hg
    cases hg
  | some q =>
    rw [hq] at hg
    obtain ⟨X, hX⟩ : ∃ X, q.owned = a ::ₘ X :=
      Multiset.exists_cons_of_mem (StreamQueue.mem_owned_of_guard hg ha)
    have hsplit : A + m.queues.owned = a ::ₘ (A + X + Queues.owned (m.queues.remove s)) := by
      rw [Queues.owned_remove hq h.streams, hX, Multiset.cons_add, Multiset.add_cons, add_assoc]
    have hd := h.balanced.distinct
    have hlives := h.balanced.occupied a (by rw [hsplit]; exact Multiset.mem_cons_self a _)
    rw [hsplit, Multiset.map_cons, Multiset.nodup_cons, Multiset.map_add, Multiset.map_add,
      Multiset.mem_add, Multiset.mem_add, not_or, not_or] at hd
    obtain ⟨⟨hA, -⟩, hothers⟩ := hd.1
    refine ⟨hlives, (h.drain s).vacant hA fun hk => hothers ?_, h.drainAll.vacant hA fun hk => ?_⟩
    · exact Multiset.map_subset_map (Queues.owned_subset (queues_drain m s)) hk
    · rw [queues_drainAll] at hk
      exact absurd hk (Multiset.notMem_zero _)

end Accounts

/-- A guard that is retained behind work that waits is dropped last. -/
theorem drain_withGuard {q : StreamQueue} (hq : m.queues.lookup s = some q) (g : Guard) :
    (m.withGuard s g).drain s = (m.drain s).dropGuard g := by
  unfold drain withGuard
  rw [hq, Queues.lookup_update]
  unfold Queues.get
  rw [hq]
  dsimp only [Option.getD_some, emit]
  rw [Queues.remove_update, List.foldl_append]
  rfl

end Machine

/-! ## Copies in new storage -/

namespace Buffer

variable {m m₁ m' : Machine} {b r : Buffer} {A : Multiset Allocation} {location : Location}
  {device : Nat} {e : Error}

/-- What a copy of a whole buffer to a new one has done, from `m` to `m₁`. -/
structure Duplicated (b : Buffer) (location : Location) (device : Nat) (m : Machine) (r : Buffer)
    (m₁ : Machine) : Prop where
  fresh : r = ⟨.owned ⟨r.data.block, b.byteSize, location, device⟩, b.dtype, b.size, device,
    b.stream⟩
  block : b.byteSize ≠ 0 → r.data.block = m.memory.next
  platform : m₁.platform = m.platform
  /-- No storage is given back. -/
  blocks : ∀ k < m.memory.next,
    (m₁.memory.block? k).map List.length = (m.memory.block? k).map List.length
  stats : m₁.stats = if b.byteSize = 0 then m.stats
    else (m.stats.recordAllocation b.byteSize).recordCopy b.byteSize
  metrics : m₁.metrics = if b.byteSize = 0 then m.metrics
    else (m.metrics.recordAllocation location b.byteSize).recordCopy
      (.between location b.location) b.byteSize
  queues : m₁.queues =
    if b.byteSize ≠ 0 ∧ m.platform.defers (.between location b.location) = true then
      Queues.update b.stream
        (fun q => { q with copies := q.copies ++ [⟨r.data, b.data, b.byteSize⟩] }) m.queues
    else m.queues

/-- A new buffer: nothing was asked for if it is empty, and otherwise one block of zeros. -/
theorem allocate_eq_ok {dtype : ElementType} {size : Nat} {stream : Stream}
    (h : allocate dtype size location device stream m = .ok r m') :
    r = ⟨.owned ⟨r.data.block, size * dtype.width, location, device⟩, dtype, size, device, stream⟩ ∧
      (size * dtype.width = 0 ∧ m' = m.emit (.allocatedBuffer size dtype location device) ∨
      size * dtype.width ≠ 0 ∧ r.data.block = m.memory.next ∧ ∃ m₀, m.Allocated (size * dtype.width)
        location device m₀ ∧ m' = m₀.emit (.allocatedBuffer size dtype location device)) := by
  obtain ⟨a, m₀, ha, hend⟩ := Action.bind_eq_ok h
  cases hend
  rcases Machine.acquire_eq_ok (Action.attempt_eq_ok ha) with ⟨hz, rfl, rfl⟩ | ⟨hne, rfl, hm⟩
  · refine ⟨?_, .inl ⟨hz, rfl⟩⟩
    rw [hz]
    rfl
  · exact ⟨rfl, .inr ⟨hne, rfl, m₀, hm, rfl⟩⟩

/-- A copy that is issued is counted, and put behind those of its stream if it is deferred. -/
theorem transfer_eq_ok {dst src : Location} {p q : Pointer} {n : Nat} {s : Stream}
    (h : transfer dst p src q n s m = .ok () m') (hn : n ≠ 0) :
    m'.platform = m.platform ∧
      (∀ k, (m'.memory.block? k).map List.length = (m.memory.block? k).map List.length) ∧
      m'.stats = m.stats.recordCopy n ∧
      m'.metrics = m.metrics.recordCopy (.between dst src) n ∧
      m'.queues = if m.platform.defers (.between dst src) then
        Queues.update s (fun queue => { queue with copies := queue.copies ++ [⟨p, q, n⟩] }) m.queues
      else m.queues := by
  unfold transfer at h
  rw [if_neg hn, Action.change_bind] at h
  unfold Action.step at h
  split at h
  · next m'' hcopy =>
    cases h
    have hissued := Machine.copy_eq_ok hcopy hn
    rw [show (m.emit _).platform = m.platform from rfl] at hissued
    cases hd : m.platform.defers (.between dst src) with
    | true =>
      rw [hd, if_pos rfl] at hissued
      rw [hissued]
      exact ⟨rfl, fun _ => rfl, rfl, rfl, rfl⟩
    | false =>
      rw [hd, if_neg Bool.false_ne_true] at hissued
      rw [hissued]
      exact ⟨rfl, Memory.length_block?_run m.memory _, rfl, rfl, rfl⟩
  · cases h

theorem copyTo_eq_ok (h : b.copyTo location device m = .ok r m₁) :
    b.Duplicated location device m r m₁ := by
  obtain ⟨c, m₀, ha, hrest⟩ := Action.bind_eq_ok h
  obtain ⟨u, m₂, hcopy, hend⟩ := Action.bind_eq_ok hrest
  cases hend
  have ht := Action.orElseTidy_eq_ok hcopy
  obtain ⟨hfresh, ⟨hz, rfl⟩ | ⟨hne, hblock, m₃, hm, rfl⟩⟩ := allocate_eq_ok ha
  · have hz : b.byteSize = 0 := hz
    unfold transfer at ht
    rw [if_pos hz] at ht
    cases ht
    exact ⟨hfresh, fun hne => absurd hz hne, rfl, fun _ _ => rfl, by rw [if_pos hz]; rfl,
      by rw [if_pos hz]; rfl, by rw [if_neg fun hne => hne.1 hz]; rfl⟩
  · have hne : b.byteSize ≠ 0 := hne
    obtain ⟨hplatform, hblocks, hstats, hmetrics, hqueues⟩ := transfer_eq_ok ht hne
    refine ⟨hfresh, fun _ => hblock, hplatform.trans hm.platform, fun k hk => ?_, ?_, ?_, ?_⟩
    · rw [hblocks, show (m₃.emit _).memory = _ from hm.memory, Memory.block?_alloc,
        if_neg (Nat.ne_of_lt hk)]
    · rw [hstats, if_neg hne]
      exact congrArg (Stats.recordCopy · _) hm.stats
    · rw [hmetrics, if_neg hne]
      exact congrArg (Metrics.recordCopy · _ _) hm.metrics
    · rw [hqueues, show (m₃.emit _).platform = m.platform from hm.platform,
        show (m₃.emit _).queues = m.queues from hm.queues]
      simp only [hne, ne_eq, not_false_eq_true, true_and]

/-- The block of the new buffer is left alone by what waits, unless the copy itself waits. -/
theorem Duplicated.rests (h : b.Duplicated location device m r m₁) (hm : m.Accounts A)
    (hg : m.Grounded) (hn : b.byteSize ≠ 0)
    (hd : m.platform.defers (.between location b.location) = false) : m₁.Rests r.data.block := by
  rw [h.block hn]
  refine (hm.rests_next hg).of_subset ?_
  rw [h.queues, hd, if_neg fun hc => Bool.false_ne_true hc.2]
  exact List.Subset.refl _

/-- A copy that waits is performed when its stream is waited for, and then no work is left that
concerns the block of the new buffer. -/
theorem Duplicated.rests_drain (h : b.Duplicated location device m r m₁) (hm : m.Accounts A)
    (hg : m.Grounded) (hn : b.byteSize ≠ 0) : (m₁.drain b.stream).Rests r.data.block := by
  rw [h.block hn]
  refine (hm.rests_next hg).of_subset (List.Subset.trans (Machine.queues_drain m₁ b.stream) ?_)
  rw [h.queues]
  split
  · rw [Queues.remove_update]
    exact List.filter_subset_self _
  · exact List.filter_subset_self _

/-- What the counters say after a copy in new storage. -/
theorem Duplicated.counted (h : b.Duplicated location device m r m₁) :
    m₁.stats.deallocations = m.stats.deallocations ∧
      m₁.stats.allocations = m.stats.allocations + (if b.byteSize = 0 then 0 else 1) ∧
      m₁.stats.copies = m.stats.copies + (if b.byteSize = 0 then 0 else 1) ∧
      m₁.stats.copiedBytes = m.stats.copiedBytes + b.byteSize ∧
      m₁.stats.synchronizations = m.stats.synchronizations := by
  rw [h.stats]
  by_cases hn : b.byteSize = 0
  · simp [hn]
  · simp [hn, Stats.recordAllocation, Stats.recordCopy]

/-- The end of a buffer gives back what it owns, and at most what the queues keep besides. -/
theorem returns_release (b : Buffer) (m : Machine) :
    m.Returns (m.queues.owned + b.owned) (b.release m) := by
  unfold release owned
  cases b.storage with
  | borrowed loc data => exact (Machine.Returns.refl m).mono (Multiset.zero_subset _)
  | owned a => exact Machine.returns_release m a

theorem queues_release (b : Buffer) (m : Machine) : (b.release m).queues ⊆ m.queues := by
  unfold release
  cases b.storage with
  | borrowed loc data => exact List.Subset.refl _
  | owned a => exact Machine.queues_dropGuard m (.storage a)

/-- What is left of a copy of a whole buffer that has failed, from `m` to `m₁`: no work, and no more
than an allocation is counted. -/
structure Abandoned (m m₁ : Machine) : Prop where
  queues : m₁.queues ⊆ m.queues
  counted : ∃ n ≤ 1, m₁.stats = { m.stats with
    allocations := m.stats.allocations + n
    deallocations := m₁.stats.deallocations
    liveBytes := m₁.stats.liveBytes }
  /-- No storage is given back but what queues kept. -/
  blocks : ∀ k < m.memory.next, m.Unkept k →
    (m₁.memory.block? k).map List.length = (m.memory.block? k).map List.length

/-- Where there is no storage for a new buffer, nothing has changed. -/
theorem allocate_eq_error {dtype : ElementType} {size : Nat} {stream : Stream}
    (h : allocate dtype size location device stream m = .error e m') : m' = m := by
  cases ha : Machine.acquire (size * dtype.width) location device m with
  | error e' =>
    have hrun : allocate dtype size location device stream m = .error e' m :=
      Action.bind_of_error (Action.attempt_of_error ha)
    rw [hrun] at h
    cases h
    rfl
  | ok p =>
    have hrun : allocate dtype size location device stream m = .ok _ _ :=
      Action.bind_of_ok (Action.attempt_of_ok ha)
    rw [hrun] at h
    cases h

theorem copyTo_eq_error (h : b.copyTo location device m = .error e m₁) : Abandoned m m₁ := by
  cases ha : allocate b.dtype b.size location device b.stream m with
  | error e' m₀ =>
    rw [show b.copyTo location device m = .error e' m₀ from Action.bind_of_error ha] at h
    cases h
    cases allocate_eq_error ha
    exact ⟨List.Subset.refl _, ⟨0, Nat.zero_le 1, rfl⟩, fun _ _ _ => rfl⟩
  | ok c m₀ =>
    cases ht : transfer location c.data b.location b.data b.byteSize b.stream m₀ with
    | ok u m₂ =>
      have hrun : b.copyTo location device m = .ok c m₂ :=
        (Action.bind_of_ok ha).trans (Action.bind_of_ok (Action.orElseTidy_of_ok ht))
      rw [hrun] at h
      cases h
    | error e' m₂ =>
      have hrun : b.copyTo location device m = .error e' (c.release m₂) :=
        (Action.bind_of_ok ha).trans (Action.bind_of_error (Action.orElseTidy_of_error ht))
      rw [hrun] at h
      cases h
      obtain ⟨-, event, rfl⟩ := transfer_eq_error ht
      have hqueues := queues_release c (m₀.emit event)
      have hreturns := returns_release c (m₀.emit event)
      obtain ⟨hfresh, ⟨hz, rfl⟩ | ⟨hn, hblock, m₃, hm, rfl⟩⟩ := allocate_eq_ok ha
      · have hown : c.owned = 0 := by
          rw [hfresh]
          exact Allocation.owned_of_eq hz
        rw [hown, add_zero] at hreturns
        exact ⟨hqueues, ⟨0, Nat.zero_le 1, hreturns.counted⟩, fun k _ hk => hreturns.blocks k hk⟩
      · have hown : c.owned = {⟨c.data.block, b.size * b.dtype.width, location, device⟩} := by
          rw [hfresh]
          exact Allocation.owned_of_ne hn
        refine ⟨hm.queues ▸ hqueues, ⟨1, Nat.le_refl 1, ?_⟩, fun k hlt hk => ?_⟩
        · rw [hreturns.counted, show ((m₃.emit _).emit event).stats = _ from hm.stats]
          rfl
        · rw [hreturns.blocks k ?_, show ((m₃.emit _).emit event).memory = _ from hm.memory,
            Memory.block?_alloc, if_neg (Nat.ne_of_lt hlt)]
          rw [hown, Multiset.map_add, Multiset.mem_add, Multiset.map_singleton,
            Multiset.mem_singleton, not_or, hblock]
          exact ⟨hm.queues ▸ hk, Nat.ne_of_lt hlt⟩

/-! ## Moving elsewhere -/

/-- A copy to another location touches a device. -/
theorem defers_of_ne (p : Platform) (h : b.location ≠ location) :
    p.defers (.between location b.location) = p.isDeferred := by
  rw [Platform.defers_eq, CopyKind.touchesDevice_between]
  cases hb : b.location <;> cases location <;> simp_all [Location.isDevice]

theorem owned_of_storage {a : Allocation} (hb : b.storage = .owned a) : b.owned = a.owned := by
  unfold owned
  rw [hb]

/-- Either a buffer owns nothing, or storage that is not empty. -/
theorem Grounded.owned_eq_zero_or {n : Nat} (h : b.Grounded n) :
    b.owned = 0 ∨ ∃ a, b.storage = .owned a ∧ b.byteSize ≠ 0 ∧ a.bytes = b.byteSize := by
  cases hb : b.storage with
  | borrowed loc data =>
    left
    unfold owned
    rw [hb]
  | owned a =>
    by_cases hn : b.byteSize = 0
    · left
      rw [owned_of_storage hb, Allocation.owned_of_eq ((h.fits a hb).trans hn)]
    · exact .inr ⟨a, rfl, hn, h.fits a hb⟩

theorem bytes_of_unowned {a : Allocation} (hb : b.storage = .owned a) (ho : b.owned = 0) :
    a.bytes = 0 := by
  by_contra hne
  rw [owned_of_storage hb, Allocation.owned_of_ne hne] at ho
  exact Multiset.singleton_ne_zero a ho

/-- What owns nothing is let go of without an effect. -/
theorem release_of_unowned (ho : b.owned = 0) (m : Machine) : b.release m = m := by
  unfold release
  cases hb : b.storage with
  | borrowed loc data => rfl
  | owned a => exact if_pos (bytes_of_unowned hb ho)

theorem retire_of_unowned {n : Nat} (h : b.Grounded n) (ho : b.owned = 0) (kind : CopyKind)
    (m : Machine) : b.retire kind m = m := by
  unfold retire
  cases hb : b.storage with
  | borrowed loc data =>
    split
    · rfl
    · exact release_of_unowned ho m
  | owned a =>
    have hsize : b.size = 0 :=
      (Nat.mul_eq_zero.mp ((h.fits a hb).symm.trans (bytes_of_unowned hb ho))).resolve_right
        (Nat.ne_of_gt b.dtype.width_pos)
    rw [hsize]
    exact release_of_unowned ho m

/-- Storage is kept by the stream if a copy waits that reads it, and given back otherwise. -/
theorem retire_of_owned {a : Allocation} (hb : b.storage = .owned a) (hn : b.byteSize ≠ 0)
    (hl : b.location ≠ location) (m : Machine) : b.retire (.between location b.location) m =
      if m.platform.isDeferred then m.withGuard b.stream (.storage a) else m.release a := by
  have hsize : 0 < b.size := Nat.pos_of_ne_zero fun hz => hn (by rw [byteSize, hz, Nat.zero_mul])
  unfold retire release
  rw [defers_of_ne m.platform hl, hb]
  cases hd : m.platform.isDeferred with
  | true => simpa [hsize] using Machine.retain_eq hd (.storage a)
  | false => simp

/-- What a move elsewhere has done, from `m` to `m'`, where the copy alone leaves `m₁`. Others own
`A`. -/
structure Moved (b : Buffer) (location : Location) (A : Multiset Allocation) (m : Machine)
    (r : Buffer) (m₁ m' : Machine) : Prop where
  copied : b.copyTo location b.device m = .ok r m₁
  /-- The new buffer owns its storage, and has the size, device and stream of the old one. -/
  fresh : r = ⟨.owned ⟨r.data.block, b.byteSize, location, b.device⟩, b.dtype, b.size, b.device,
    b.stream⟩
  /-- Once its stream has been waited for, it holds what the copy alone would hold. -/
  holds : r.bytes (m'.synchronize b.stream) = r.bytes (m₁.synchronize b.stream)
  /-- One allocation and one copy, or none of them if there is nothing to copy. -/
  counted : m'.stats.allocations = m.stats.allocations + (if b.byteSize = 0 then 0 else 1) ∧
    m'.stats.copies = m.stats.copies + (if b.byteSize = 0 then 0 else 1) ∧
    m'.stats.copiedBytes = m.stats.copiedBytes + b.byteSize ∧
    m'.stats.synchronizations = m.stats.synchronizations
  metrics : m'.metrics = if b.byteSize = 0 then m.metrics
    else (m.metrics.recordAllocation location b.byteSize).recordCopy
      (.between location b.location) b.byteSize
  /-- The books: nothing was given back twice, and nothing that others own. -/
  accounts : m'.Accounts (r.owned + A)
  others : ∀ a ∈ A, (m'.memory.block? a.block).map List.length = some a.bytes
  /-- Where the old buffer owns nothing, nothing is given back. -/
  unowned : b.owned = 0 → m' = m₁ ∧ m'.stats.deallocations = m.stats.deallocations ∧
    ∀ k < m.memory.next,
      (m'.memory.block? k).map List.length = (m.memory.block? k).map List.length
  /-- Where the copy has been performed, the old storage is given back at once. -/
  atOnce : ∀ a, b.storage = .owned a → b.byteSize ≠ 0 → m.platform.isDeferred = false →
    m' = m₁.release a ∧ m'.memory.block? a.block = none ∧
      m'.stats.deallocations = (m₁.settleFor a.location).stats.deallocations + 1
  /-- Where the copy waits, its stream keeps the old storage, which still counts as live. It is
  given back after the copy when the stream is drained. -/
  later : ∀ a, b.storage = .owned a → b.byteSize ≠ 0 → m.platform.isDeferred = true →
    m' = m₁.withGuard b.stream (.storage a) ∧ m'.stats = m₁.stats ∧
      m'.stats.deallocations = m.stats.deallocations ∧
      (∀ s, (m'.queues.get s).guards =
        (m.queues.get s).guards ++ if s = b.stream then [.storage a] else []) ∧
      m'.drain b.stream = (m₁.drain b.stream).release a ∧
      (m'.drain b.stream).stats.deallocations =
        ((m₁.drain b.stream).settleFor a.location).stats.deallocations + 1
  /-- However long the stream keeps it, it lives so long and no longer. -/
  kept : ∀ a, b.storage = .owned a → b.byteSize ≠ 0 → ∀ (m'' : Machine) (B : Multiset Allocation),
    m''.Accounts B → .storage a ∈ (m''.queues.get b.stream).guards →
      (m''.memory.block? a.block).map List.length = some a.bytes ∧
        (m''.drain b.stream).memory.block? a.block = none ∧
        m''.drainAll.memory.block? a.block = none

/-- What is left where a move elsewhere fails. -/
structure Dropped (b : Buffer) (location : Location) (A : Multiset Allocation) (m : Machine)
    (e : Error) (m₁ m' : Machine) : Prop where
  copied : b.copyTo location b.device m = .error e m₁
  released : m' = b.release m₁
  /-- The storage of the old buffer has been given back, and so has that of the new one: no storage
  is left but that of others. -/
  accounts : m'.Accounts A
  others : ∀ a ∈ A, (m'.memory.block? a.block).map List.length = some a.bytes
  gone : ∀ a, b.storage = .owned a → b.byteSize ≠ 0 → m'.memory.block? a.block = none ∧
    m'.stats.deallocations = (m₁.settleFor a.location).stats.deallocations + 1
  /-- Where the old buffer owns nothing, nothing is given back but what queues kept. -/
  unowned : b.owned = 0 → m' = m₁ ∧ ∀ k < m.memory.next, m.Unkept k →
    (m'.memory.block? k).map List.length = (m.memory.block? k).map List.length
  /-- Nothing was put into a queue. -/
  queues : m'.queues ⊆ m.queues
  counted : m'.stats.allocations ≤ m.stats.allocations + 1 ∧ m'.stats.copies = m.stats.copies ∧
    m'.stats.copiedBytes = m.stats.copiedBytes ∧
    m'.stats.synchronizations = m.stats.synchronizations

/-- The new buffer does not lie in the old storage. -/
theorem Duplicated.notMem {a : Allocation} (h : b.Duplicated location device m r m₁)
    (hm : m.Accounts (a.owned + A)) (hn : b.byteSize ≠ 0) :
    r.data.block ∉ a.owned.map Allocation.block := by
  rw [h.block hn]
  intro hk
  obtain ⟨a', ha', hblock⟩ := Multiset.mem_map.mp hk
  exact absurd hblock (Nat.ne_of_lt (hm.block_lt (by simp [ha'])))

theorem Duplicated.queues_of_deferred (h : b.Duplicated location device m r m₁)
    (hn : b.byteSize ≠ 0) (hl : b.location ≠ location) (hd : m.platform.isDeferred = true) :
    m₁.queues = Queues.update b.stream
      (fun q => { q with copies := q.copies ++ [⟨r.data, b.data, b.byteSize⟩] }) m.queues :=
  h.queues.trans (if_pos ⟨hn, (defers_of_ne _ hl).trans hd⟩)

/-- What the stream of a copy that waits keeps besides is given back after the copy. -/
theorem Duplicated.drain_withGuard (h : b.Duplicated location device m r m₁)
    (hn : b.byteSize ≠ 0) (hl : b.location ≠ location) (hd : m.platform.isDeferred = true)
    (a : Allocation) :
    (m₁.withGuard b.stream (.storage a)).drain b.stream = (m₁.drain b.stream).release a := by
  have hq := h.queues_of_deferred hn hl hd
  exact Machine.drain_withGuard (m := m₁) (by rw [hq, Queues.lookup_update]) (.storage a)

/-- However the old storage is let go of, the new buffer holds the same in the end. -/
theorem Duplicated.holds (h : b.Duplicated location device m r m₁)
    (hm : m.Accounts (b.owned + A)) (hg : m.Grounded) (hb : b.Grounded m.memory.next)
    (hl : b.location ≠ location) :
    r.bytes ((b.retire (.between location b.location) m₁).synchronize b.stream) =
      r.bytes (m₁.synchronize b.stream) := by
  obtain ho | ⟨a, ha, hn, hbytes⟩ := hb.owned_eq_zero_or
  · rw [retire_of_unowned hb ho]
  · rw [owned_of_storage ha] at hm
    have hapart := h.notMem hm hn
    refine Memory.read_congr ?_ _
    rw [retire_of_owned ha hn hl, h.platform]
    cases hd : m.platform.isDeferred with
    | true =>
      show ((m₁.withGuard b.stream (.storage a)).drain b.stream).memory.block? _ = _
      rw [h.drain_withGuard hn hl hd]
      exact Machine.block?_release (h.rests_drain hm hg hn) hapart
    | false =>
      have hrests := h.rests hm hg hn ((defers_of_ne _ hl).trans hd)
      rw [if_neg Bool.false_ne_true, Machine.block?_synchronize (hrests.release a),
        Machine.block?_release hrests hapart, Machine.block?_synchronize hrests]

/-- Letting go of a buffer counts no more than what is given back. -/
theorem counted_retire (b : Buffer) (kind : CopyKind) (m : Machine) :
    (b.retire kind m).metrics = m.metrics ∧
      (b.retire kind m).stats = { m.stats with
        deallocations := (b.retire kind m).stats.deallocations
        liveBytes := (b.retire kind m).stats.liveBytes } := by
  unfold retire
  split
  · split
    · exact ⟨rfl, rfl⟩
    · next a _ =>
      unfold Machine.retain
      split
      · have hreturns := Machine.returns_release m a
        exact ⟨hreturns.metrics, hreturns.counted⟩
      · exact ⟨rfl, rfl⟩
  · exact ⟨(returns_release b m).metrics, (returns_release b m).counted⟩

/-- A move elsewhere copies the buffer and lets go of it. -/
theorem moved_of_copyTo (hm : m.Accounts (b.owned + A)) (hg : m.Grounded)
    (hb : b.Grounded m.memory.next) (hl : b.location ≠ location)
    (h : b.copyTo location b.device m = .ok r m₁) :
    b.Moved location A m r m₁ (b.retire (.between location b.location) m₁) := by
  have hdup := copyTo_eq_ok h
  have hbooks : m₁.Accounts (b.owned + (r.owned + A)) :=
    add_left_comm r.owned b.owned A ▸ (accounts_copyTo hm b location b.device).of_ok h
  obtain ⟨hgiven, hallocations, hcopies, hbytes, hwaits⟩ := hdup.counted
  refine {
    copied := h
    fresh := hdup.fresh
    holds := hdup.holds hm hg hb hl
    counted := ?_
    metrics := (counted_retire b _ m₁).1.trans hdup.metrics
    accounts := accounts_retire hbooks _
    others := fun a ha => (accounts_retire hbooks _).balanced.occupied a (by simp [ha])
    unowned := fun ho => ?_
    atOnce := fun a ha hn hd => ?_
    later := fun a ha hn hd => ?_
    kept := fun a ha hn m'' B hm'' hguard => hm''.guarded hguard (hb.fits a ha ▸ hn) }
  · rw [(counted_retire b _ m₁).2]
    exact ⟨hallocations, hcopies, hbytes, hwaits⟩
  · rw [retire_of_unowned hb ho]
    exact ⟨rfl, hgiven, hdup.blocks⟩
  · have hne : a.bytes ≠ 0 := hb.fits a ha ▸ hn
    rw [owned_of_storage ha] at hbooks
    rw [retire_of_owned ha hn hl, hdup.platform, hd, if_neg Bool.false_ne_true]
    exact ⟨rfl, hbooks.vacant_release hne, hbooks.deallocations_release hne⟩
  · have hne : a.bytes ≠ 0 := hb.fits a ha ▸ hn
    rw [owned_of_storage ha] at hbooks
    rw [retire_of_owned ha hn hl, hdup.platform, hd, if_pos rfl]
    have hlast := hdup.drain_withGuard hn hl hd a
    refine ⟨rfl, rfl, hgiven, fun s => ?_, hlast, ?_⟩
    · show ((Queues.update _ _ m₁.queues).get s).guards = _
      rw [hdup.queues_of_deferred hn hl hd, Queues.get_update, Queues.get_update,
        Queues.get_update, if_pos rfl]
      by_cases hs : s = b.stream
      · rw [if_pos hs, if_pos hs, hs]
      · rw [if_neg hs, if_neg hs, if_neg hs, List.append_nil]
    · rw [hlast]
      exact (hbooks.drain b.stream).deallocations_release hne

/-- A move elsewhere that cannot copy the buffer gives back its storage. -/
theorem dropped_of_copyTo (hm : m.Accounts (b.owned + A)) (hb : b.Grounded m.memory.next)
    (h : b.copyTo location b.device m = .error e m₁) :
    b.Dropped location A m e m₁ (b.release m₁) := by
  have hbooks : m₁.Accounts (b.owned + A) := (accounts_copyTo hm b location b.device).of_error h
  have hleft := copyTo_eq_error h
  obtain ⟨n, hn, hstats⟩ := hleft.counted
  refine {
    copied := h
    released := rfl
    accounts := accounts_release hbooks
    others := fun a ha => (accounts_release hbooks).balanced.occupied a (by simp [ha])
    gone := fun a ha hn => ?_
    unowned := fun ho => ?_
    queues := List.Subset.trans (queues_release b m₁) hleft.queues
    counted := ?_ }
  · have hne : a.bytes ≠ 0 := hb.fits a ha ▸ hn
    rw [owned_of_storage ha] at hbooks
    unfold release
    rw [ha]
    exact ⟨hbooks.vacant_release hne, hbooks.deallocations_release hne⟩
  · have hkept : b.release m₁ = m₁ := release_of_unowned ho m₁
    rw [hkept]
    exact ⟨rfl, hleft.blocks⟩
  · rw [(returns_release b m₁).counted, hstats]
    exact ⟨Nat.add_le_add_left hn _, rfl, rfl, rfl⟩

/-- A buffer is moved, or it was where it should be, or it is gone: for every machine that accounts
for it. -/
theorem moveTo_ends (hm : m.Accounts (b.owned + A)) (hg : m.Grounded)
    (hb : b.Grounded m.memory.next) (location : Location) :
    b.location = location ∧ b.moveTo location m = .ok b m ∨
      b.location ≠ location ∧
        ((∃ r m₁ m', b.moveTo location m = .ok r m' ∧ b.Moved location A m r m₁ m') ∨
          ∃ e m₁ m', b.moveTo location m = .error e m' ∧ b.Dropped location A m e m₁ m') := by
  unfold moveTo
  by_cases hl : b.location = location
  · rw [if_pos hl]
    exact .inl ⟨hl, rfl⟩
  · rw [if_neg hl]
    refine .inr ⟨hl, ?_⟩
    cases h : b.copyTo location b.device m with
    | ok r m₁ =>
      exact .inl ⟨r, m₁, _, Action.bind_of_ok (Action.orElseTidy_of_ok h),
        moved_of_copyTo hm hg hb hl h⟩
    | error e m₁ =>
      exact .inr ⟨e, m₁, _, Action.bind_of_error (Action.orElseTidy_of_error h),
        dropped_of_copyTo hm hb h⟩

end Buffer

namespace Session

open Buffer

/-- At every moment of every session, a buffer that is moved to where it lies is its own result, and
nothing happens. One that is moved elsewhere is copied once and its storage given back once, at once
or when the copy has been performed; or else the copy fails, and only the storage of others is
left. -/
theorem moveTo_moves {platform : Platform} {device : Nat} {steps : List Step}
    (h : (start platform device).Allows steps) {slot : String} {held : Resource}
    (hslot : (steps.foldl after (start platform device)).slots.lookup slot = some held)
    (location : Location) :
    let s := steps.foldl after (start platform device)
    let b := held.data
    ∃ A, s.owned = b.owned + A ∧
      (b.location = location ∧ b.moveTo location s.machine = .ok b s.machine ∨
      b.location ≠ location ∧
        ((∃ r m₁ m', b.moveTo location s.machine = .ok r m' ∧
          b.Moved location A s.machine r m₁ m') ∨
        ∃ e m₁ m', b.moveTo location s.machine = .error e m' ∧
          b.Dropped location A s.machine e m₁ m')) := by
  intro s b
  have haccounted := (accounted_start platform device).foldl_after h
  have hgrounded := grounded_after platform device steps
  have hb : b.Grounded s.machine.memory.next :=
    hgrounded.known.slots _ (Named.mem_of_lookup hslot)
  have hslots : Named.owned Resource.owned s.slots =
      b.owned + Named.owned Resource.owned (s.slots.remove slot) :=
    Named.owned_remove hslot haccounted.names
  obtain ⟨A, hA⟩ : ∃ A, s.owned = b.owned + A := by
    unfold Session.owned
    rw [hslots, add_assoc]
    exact ⟨_, rfl⟩
  refine ⟨A, hA, moveTo_ends ?_ hgrounded.machine hb location⟩
  rw [← hA]
  exact haccounted.machine_zero

/-- A buffer on a device whose elements are still on their way. -/
def shipping : List Step := [.perform (.buffer (.ofList "far" .uint8 [7] .device 0 ⟨1⟩))]

/-- Back on the host, with both copies waiting. -/
theorem shipping_moves :
    let s := shipping.foldl after (start (.simulated ⟨1, 64, true⟩) 0)
    let far : Buffer := ⟨.owned ⟨2, 1, .device, 0⟩, .uint8, 1, 0, ⟨1⟩⟩
    (start (.simulated ⟨1, 64, true⟩) 0).Allows shipping ∧
      (s.slots.lookup "far").map Resource.data = some far ∧
      ∃ A r m₁ m', s.owned = far.owned + A ∧
        far.moveTo .host s.machine = .ok r m' ∧ far.Moved .host A s.machine r m₁ m' := by
  have hfree : (start (.simulated ⟨1, 64, true⟩) 0).Allows shipping := ⟨List.not_mem_nil, trivial⟩
  have hfar : ((shipping.foldl after (start (.simulated ⟨1, 64, true⟩) 0)).slots.lookup
      "far").map Resource.data = some ⟨.owned ⟨2, 1, .device, 0⟩, .uint8, 1, 0, ⟨1⟩⟩ := by
    decide +kernel
  have hgiven : ((Buffer.moveTo ⟨.owned ⟨2, 1, .device, 0⟩, .uint8, 1, 0, ⟨1⟩⟩ .host).outcome
      (shipping.foldl after (start (.simulated ⟨1, 64, true⟩) 0)).machine).1.isOk = true := by
    decide +kernel
  refine ⟨hfree, hfar, ?_⟩
  obtain ⟨held, hslot, hdata⟩ := Option.map_eq_some_iff.mp hfar
  obtain ⟨A, hA, hmoves⟩ := moveTo_moves hfree hslot .host
  rw [hdata] at hA hmoves
  rcases hmoves with ⟨hsame, -⟩ | ⟨-, ⟨r, m₁, m', hrun, hmoved⟩ | ⟨e, m₁, m', hrun, -⟩⟩
  · cases hsame
  · exact ⟨A, r, m₁, m', hA, hrun, hmoved⟩
  · rw [Action.outcome_of_error hrun] at hgiven
    cases hgiven

end Session

end DeviceBatch
