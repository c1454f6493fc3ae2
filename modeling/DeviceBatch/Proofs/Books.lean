import Mathlib.Algebra.BigOperators.Group.Multiset.Basic
import Mathlib.Tactic.Abel
import DeviceBatch.Proofs.Draining

/-!
# Books

What a machine has given out and not taken back is written in its books: the counters, the table of
device allocations, the bytes in use, the blocks of memory. A machine is balanced for some storage
if its books say exactly that (`Machine.Balanced`). Unlike `Machine.Orderly` this asks nothing of
the copies that wait, so it also holds where buffers are borrowed and copies go astray.

Storage that a stream keeps alive is in the books as well. A machine accounts for the storage of its
user if it is balanced for that and for what the guards keep (`Machine.Accounts`). Giving storage
back is never refused, at once or from a queue, in whatever order queues are drained.
-/

namespace DeviceBatch

/-! ## Storage in the books -/

namespace Allocation

/-- The entry in the table of live device allocations. -/
def entry? (a : Allocation) : Option DeviceAllocation :=
  match a.location with
  | .host => none
  | .device => some ⟨a.block, a.bytes, a.device⟩

/-- The bytes that storage has on a device. -/
def usage (A : Multiset Allocation) (device : Nat) : Nat :=
  ((A.filter fun a => a.location = .device ∧ a.device = device).map bytes).sum

/-- The storage that somebody who has it must give back; storage of no bytes is nobody's. -/
def owned (a : Allocation) : Multiset Allocation := if a.bytes = 0 then 0 else {a}

theorem owned_of_eq {a : Allocation} (h : a.bytes = 0) : a.owned = 0 := if_pos h

theorem owned_of_ne {a : Allocation} (h : a.bytes ≠ 0) : a.owned = {a} := if_neg h

/-- The storage as a holding that no copy writes. -/
def plain (a : Allocation) : Holding := ⟨a, .stored⟩

theorem usage_plain (l : List Allocation) (device : Nat) :
    Holding.usage (l.map plain) device = usage l device := by
  induction l with
  | nil => rfl
  | cons a l ih =>
    rw [List.map_cons, Holding.usage_cons, ih]
    unfold usage
    rw [← Multiset.cons_coe, Multiset.filter_cons]
    by_cases h : a.location = .device ∧ a.device = device
    · rw [if_pos h, Multiset.singleton_add, Multiset.map_cons, Multiset.sum_cons]
      exact congrArg (· + _) (if_pos h)
    · rw [if_neg h, Multiset.zero_add]
      exact (congrArg (· + _) (if_neg h)).trans (Nat.zero_add _)

end Allocation

/-- Storage was refused when it was given back. -/
def Event.IsReleaseFailure : Event → Prop
  | releaseFailed .. => True
  | _ => False

namespace Machine

/-- The storage that has been given out and not taken back is `A`, and all books say so. -/
structure Balanced (m : Machine) (A : Multiset Allocation) : Prop where
  distinct : (A.map Allocation.block).Nodup
  nonempty : ∀ a ∈ A, a.bytes ≠ 0
  occupied : ∀ a ∈ A, (m.memory.block? a.block).map List.length = some a.bytes
  /-- No block is live but for this storage. -/
  vacant : ∀ b, b ∉ A.map Allocation.block → m.memory.block? b = none
  placed : ∀ a ∈ A, a.location = .device → a.device < m.platform.deviceCount
  table : A.filterMap Allocation.entry? = m.live
  used : m.used = (List.range m.platform.deviceCount).map (Allocation.usage A)
  /-- Each allocation got a block of its own. -/
  issued : m.memory.next = m.stats.allocations + 1
  counted : m.stats.allocations = m.stats.deallocations + A.card
  liveBytes : m.stats.liveBytes = (A.map Allocation.bytes).sum
  /-- Nothing was ever refused when it was given back. -/
  quiet : ∀ e ∈ m.events, ¬ e.IsReleaseFailure

variable {m m' : Machine} {A B : Multiset Allocation} {a : Allocation}

namespace Balanced

/-! ## Balanced machines -/

/-- Without its queues a balanced machine is orderly. -/
theorem orderly {l : List Allocation} (h : m.Balanced l) :
    { m with queues := [] }.Orderly (l.map Allocation.plain) where
  streams := List.nodup_nil
  served := by
    rintro s c ⟨q, hq, -⟩
    cases hq
  distinct := by
    rw [List.map_map]
    exact Multiset.coe_nodup.mp h.distinct
  occupied := List.forall_mem_map.mpr h.occupied
  nonempty := List.forall_mem_map.mpr h.nonempty
  placed := List.forall_mem_map.mpr h.placed
  table := by
    rw [List.filterMap_map]
    exact Multiset.coe_eq_coe.mp h.table
  used := h.used.trans (List.map_congr_left fun d _ => (Allocation.usage_plain l d).symm)
  counted := by
    rw [List.length_map]
    exact h.counted
  liveBytes := by
    rw [List.map_map]
    exact h.liveBytes
  waits _ := rfl

theorem of_orderly {l : List Allocation}
    (h : { m with queues := [] }.Orderly (l.map Allocation.plain))
    (hv : ∀ b, b ∉ l.map Allocation.block → m.memory.block? b = none)
    (hn : m.memory.next = m.stats.allocations + 1)
    (he : ∀ e ∈ m.events, ¬ e.IsReleaseFailure) : m.Balanced l where
  distinct := by
    have hd := h.distinct
    rw [List.map_map] at hd
    exact Multiset.coe_nodup.mpr hd
  nonempty a ha := h.nonempty a.plain (List.mem_map_of_mem ha)
  occupied := List.forall_mem_map.mp h.occupied
  vacant := hv
  placed := List.forall_mem_map.mp h.placed
  table := by
    have ht := h.table
    rw [List.filterMap_map] at ht
    exact Multiset.coe_eq_coe.mpr ht
  used := h.used.trans (List.map_congr_left fun d _ => Allocation.usage_plain l d)
  issued := hn
  counted := by
    have hc := h.counted
    rw [List.length_map] at hc
    exact hc
  liveBytes := by
    have hb := h.liveBytes
    rw [List.map_map] at hb
    exact hb
  quiet := he

/-- Only the books matter, not what is in the blocks. -/
theorem congr (h : m.Balanced A) (hp : m'.platform = m.platform)
    (hm : ∀ b, (m'.memory.block? b).map List.length = (m.memory.block? b).map List.length)
    (hn : m'.memory.next = m.memory.next) (hl : m'.live = m.live) (hu : m'.used = m.used)
    (ha : m'.stats.allocations = m.stats.allocations)
    (hd : m'.stats.deallocations = m.stats.deallocations)
    (hb : m'.stats.liveBytes = m.stats.liveBytes)
    (he : ∀ e ∈ m'.events, e ∈ m.events ∨ ¬ e.IsReleaseFailure) : m'.Balanced A where
  distinct := h.distinct
  nonempty := h.nonempty
  occupied a ha := (hm a.block).trans (h.occupied a ha)
  vacant b hb := by
    have hnone := hm b
    rw [h.vacant b hb] at hnone
    exact Option.map_eq_none_iff.mp hnone
  placed := by rw [hp]; exact h.placed
  table := by rw [hl]; exact h.table
  used := by rw [hu, hp]; exact h.used
  issued := by rw [hn, ha]; exact h.issued
  counted := by rw [ha, hd]; exact h.counted
  liveBytes := by rw [hb]; exact h.liveBytes
  quiet e hm' := (he e hm').elim (h.quiet e) id

theorem withQueues (h : m.Balanced A) (qs : Queues) : { m with queues := qs }.Balanced A :=
  h.congr rfl (fun _ => rfl) rfl rfl rfl rfl rfl rfl fun _ => .inl

theorem recordCopy (h : m.Balanced A) (kind : CopyKind) (bytes : Nat) :
    (m.recordCopy kind bytes).Balanced A :=
  h.congr rfl (fun _ => rfl) rfl rfl rfl rfl rfl rfl fun _ => .inl

theorem recordSynchronization (h : m.Balanced A) : m.recordSynchronization.Balanced A :=
  h.congr rfl (fun _ => rfl) rfl rfl rfl rfl rfl rfl fun _ => .inl

theorem withMetrics (h : m.Balanced A) (metrics : Metrics) : { m with metrics }.Balanced A :=
  h.congr rfl (fun _ => rfl) rfl rfl rfl rfl rfl rfl fun _ => .inl

theorem emit (h : m.Balanced A) {e : Event} (he : ¬ e.IsReleaseFailure) : (m.emit e).Balanced A :=
  h.congr rfl (fun _ => rfl) rfl rfl rfl rfl rfl rfl fun e' he' => by
    rcases Array.mem_push.mp he' with he' | rfl
    · exact .inl he'
    · exact .inr he

theorem write (h : m.Balanced A) (p : Pointer) (bytes : List UInt8) :
    { m with memory := m.memory.write p bytes }.Balanced A := by
  refine h.congr rfl (fun b => ?_) (Memory.next_write ..) rfl rfl rfl rfl rfl fun _ => .inl
  show ((m.memory.write p bytes).block? b).map _ = _
  rw [Memory.block?_write]
  split
  · cases m.memory.block? b <;> simp
  · rfl

theorem runCopies (h : m.Balanced A) (cs : List PendingCopy) : (m.runCopies cs).Balanced A :=
  h.congr rfl (Memory.length_block?_run m.memory cs) (Memory.next_run ..) rfl rfl rfl rfl rfl
    fun _ => .inl

theorem start (platform : Platform) : (start platform).Balanced 0 :=
  of_orderly (l := []) (start_orderly platform) (fun b _ => Memory.block?_empty b) rfl
    fun e he => absurd he (Array.not_mem_empty e)

/-! ## Giving out and taking back -/

/-- New storage is entered into the books. -/
theorem allocated (h : m.Balanced A) {bytes device : Nat} {location : Location} (hb : bytes ≠ 0)
    (ha : m.Allocated bytes location device m') :
    m'.Balanced (⟨m.memory.next, bytes, location, device⟩ ::ₘ A) := by
  induction A using Quotient.inductionOn with | _ l
  have ho : ({ m with queues := [] } : Machine).Allocated bytes location device
      { m' with queues := [] } :=
    ⟨ha.platform, ha.memory, rfl, ha.stats, ha.metrics, ha.events, ha.strays, ha.table⟩
  refine of_orderly (l := _ :: l) (h.orderly.allocated hb ho .stored) (fun b hb' => ?_) ?_ ?_
  · rw [List.map_cons, List.mem_cons, not_or] at hb'
    rw [ha.memory, Memory.block?_alloc, if_neg hb'.1]
    exact h.vacant b hb'.2
  · rw [ha.memory, ha.stats, Memory.next_alloc, h.issued]
    rfl
  · rw [ha.events]
    exact h.quiet

/-- Storage that is in the books is taken back, and nothing is reported. -/
theorem reclaim (h : m.Balanced (a ::ₘ A)) :
    ∃ m', m.reclaim a = .ok m' ∧ m'.Balanced A := by
  induction A using Quotient.inductionOn with | _ l
  have h' : m.Balanced ((a :: l : List Allocation) : Multiset Allocation) := h
  have hu : ({ m with queues := [] } : Machine).Untouched a.plain.block := by
    rintro s c ⟨q, hq, -⟩
    cases hq
  obtain ⟨m₁, hr, ho, -, hm, hq, hs, -⟩ := h'.orderly.reclaim hu
  have hr' : ({ m with queues := [] } : Machine).reclaim a = .ok m₁ := hr
  rw [reclaim_withQueues] at hr'
  cases hm' : m.reclaim a with
  | error e =>
    rw [hm'] at hr'
    cases hr'
  | ok m' =>
    rw [hm'] at hr'
    cases hr'
    have hmemory : m'.memory = m.memory.free a.block := hm
    have hstats : m'.stats = m.stats.recordDeallocation a.bytes := hs
    refine ⟨m', rfl, of_orderly ho (fun b hb => ?_) ?_ ?_⟩
    · rw [hmemory, Memory.block?_free]
      split
      · rfl
      · next hne => exact h'.vacant b fun hmem =>
          (List.mem_cons.mp (Multiset.mem_coe.mp hmem)).elim hne hb
    · rw [hmemory, hstats, Memory.next_free]
      exact h.issued
    · rw [(reclaim_eq_ok hm').events]
      exact h.quiet

/-- The end of storage: what is in the books of `a` is gone from them. -/
theorem releaseIdle (h : m.Balanced (a.owned + A)) : (m.releaseIdle a).Balanced A := by
  unfold Machine.releaseIdle
  split
  · next hb => rwa [Allocation.owned_of_eq hb, zero_add] at h
  · next hb =>
    rw [Allocation.owned_of_ne hb, Multiset.singleton_add] at h
    obtain ⟨m', hr, hm'⟩ := h.reclaim
    rw [hr]
    exact hm'

/-- The blocks of the storage are those that are live. -/
theorem mem_blocks (h : m.Balanced A) {b : Nat} :
    b ∈ A.map Allocation.block ↔ (m.memory.block? b).isSome := by
  constructor
  · intro hb
    obtain ⟨a, ha, rfl⟩ := Multiset.mem_map.mp hb
    have hl := h.occupied a ha
    cases hblock : m.memory.block? a.block with
    | none =>
      rw [hblock] at hl
      cases hl
    | some bytes => rfl
  · intro hb
    by_contra hne
    rw [h.vacant b hne] at hb
    cases hb

/-- Every storage that was given back has left a place of its own empty in memory; place 0 has
always been empty. -/
theorem released (h : m.Balanced A) :
    m.memory.blocks.countP Option.isNone = m.stats.deallocations + 1 := by
  have hplaces : (List.range m.memory.next).map m.memory.block? = m.memory.blocks := by
    refine List.ext_getElem (by simp [Memory.next]) fun b _ hb => ?_
    simp [Memory.block?, hb]
  have hlive : m.memory.blocks.countP Option.isSome = A.card := by
    rw [← Multiset.card_map Allocation.block A, ← hplaces, List.countP_map,
      List.countP_eq_length_filter, ← Multiset.coe_card]
    refine congrArg Multiset.card (Multiset.Nodup.ext ?_ h.distinct |>.mpr fun b => ?_)
    · exact Multiset.coe_nodup.mpr (List.nodup_range.filter _)
    · rw [h.mem_blocks, Multiset.mem_coe, List.mem_filter, List.mem_range]
      refine and_iff_right_of_imp fun hb => ?_
      obtain ⟨bytes, hblock⟩ := Option.isSome_iff_exists.mp hb
      exact Memory.lt_next_of_block? hblock
  have hall : m.memory.blocks.length =
      m.memory.blocks.countP Option.isSome + m.memory.blocks.countP Option.isNone := by
    rw [List.length_eq_countP_add_countP Option.isSome]
    congr 2
    funext x
    cases x <;> rfl
  have hissued := h.issued
  have hcounted := h.counted
  unfold Memory.next at hissued
  omega

/-- What a platform tells about a device is what the storage has on it. -/
theorem bytesInUse (h : m.Balanced A) (device : Nat) :
    m.bytesInUse device = Allocation.usage A device := by
  unfold Machine.bytesInUse
  rw [h.used, List.getElem?_map]
  by_cases hd : device < m.platform.deviceCount
  · rw [List.getElem?_range hd]
    rfl
  · have hnone : A.filter (fun a => a.location = .device ∧ a.device = device) = 0 :=
      Multiset.filter_eq_nil.mpr fun a ha hon => hd (hon.2 ▸ h.placed a ha hon.1)
    rw [List.getElem?_eq_none (by rw [List.length_range]; exact Nat.le_of_not_lt hd)]
    unfold Allocation.usage
    rw [hnone]
    rfl

/-- The counted allocations are never fewer than the counted releases. -/
theorem liveAllocations (h : m.Balanced A) :
    m.stats.deallocations ≤ m.stats.allocations ∧ m.stats.liveAllocations = A.card := by
  have hcounted := h.counted
  unfold Stats.liveAllocations
  omega

end Balanced

end Machine

/-! ## Storage that streams keep alive -/

/-- The storage that a guard keeps alive. -/
def Guard.owned : Guard → Multiset Allocation
  | .storage a => a.owned
  | .token _ => 0

/-- The storage that the guards of a queue keep alive. -/
def StreamQueue.owned (q : StreamQueue) : Multiset Allocation := (q.guards.map Guard.owned).sum

namespace Queues

/-- The storage that all queues keep alive. -/
def owned (qs : Queues) : Multiset Allocation := (qs.map fun p => p.2.owned).sum

theorem owned_cons (s : Stream) (q : StreamQueue) (qs : Queues) :
    owned ((s, q) :: qs) = q.owned + owned qs := List.sum_cons

theorem owned_append (qs rs : Queues) : owned (qs ++ rs) = owned qs + owned rs := by
  unfold owned
  rw [List.map_append, List.sum_append]

/-- What is added to one queue is added to all of them. -/
theorem owned_update {f : StreamQueue → StreamQueue} {X : Multiset Allocation}
    (hf : ∀ q, (f q).owned = q.owned + X) (s : Stream) (qs : Queues) :
    owned (update s f qs) = owned qs + X := by
  induction qs with
  | nil => exact (add_zero _).trans (hf {})
  | cons p rest ih =>
    obtain ⟨t, q⟩ := p
    rw [update]
    split
    · rw [owned_cons, owned_cons, hf, add_right_comm]
    · rw [owned_cons, owned_cons, ih, add_assoc]

theorem owned_remove {qs : Queues} {s : Stream} {q : StreamQueue} (h : qs.lookup s = some q)
    (hn : (qs.map Prod.fst).Nodup) : owned qs = q.owned + owned (qs.remove s) := by
  obtain ⟨l, r, rfl, hrem⟩ := split_of_lookup h hn
  rw [hrem, owned_append, owned_append, owned_cons, add_left_comm]

end Queues

namespace Machine

variable {m m' : Machine} {A B : Multiset Allocation} {a : Allocation}

/-- The storage in the books is `A`, which the user has, and what the streams keep alive. -/
structure Accounts (m : Machine) (A : Multiset Allocation) : Prop where
  balanced : m.Balanced (A + m.queues.owned)
  /-- Each stream has one queue. -/
  streams : (m.queues.map Prod.fst).Nodup

namespace Accounts

theorem start (platform : Platform) : (start platform).Accounts 0 where
  balanced := .start platform
  streams := List.nodup_nil

/-- Changes that leave the books and the queues alone. -/
theorem of_balanced (h : m.Accounts A) (hq : m'.queues = m.queues)
    (hb : ∀ B, m.Balanced B → m'.Balanced B) : m'.Accounts A where
  balanced := by rw [hq]; exact hb _ h.balanced
  streams := by rw [hq]; exact h.streams

theorem emit (h : m.Accounts A) {e : Event} (he : ¬ e.IsReleaseFailure) : (m.emit e).Accounts A :=
  h.of_balanced rfl fun _ hb => hb.emit he

theorem write (h : m.Accounts A) (p : Pointer) (bytes : List UInt8) :
    { m with memory := m.memory.write p bytes }.Accounts A :=
  h.of_balanced rfl fun _ hb => hb.write p bytes

theorem recordCopy (h : m.Accounts A) (kind : CopyKind) (bytes : Nat) :
    (m.recordCopy kind bytes).Accounts A := h.of_balanced rfl fun _ hb => hb.recordCopy kind bytes

theorem runCopies (h : m.Accounts A) (cs : List PendingCopy) : (m.runCopies cs).Accounts A :=
  h.of_balanced rfl fun _ hb => hb.runCopies cs

theorem withMetrics (h : m.Accounts A) (metrics : Metrics) : { m with metrics }.Accounts A :=
  h.of_balanced rfl fun _ hb => hb.withMetrics metrics

/-- What gives the storage of one thing back gives that of several things back. -/
theorem foldl {β : Type} {f : Machine → β → Machine} {own : β → Multiset Allocation}
    (hf : ∀ {b m A}, m.Accounts (own b + A) → (f m b).Accounts A) {bs : List β}
    (h : m.Accounts ((bs.map own).sum + A)) : (bs.foldl f m).Accounts A := by
  induction bs generalizing m with
  | nil => exact (zero_add A) ▸ h
  | cons b bs ih =>
    rw [List.map_cons, List.sum_cons, add_assoc] at h
    exact ih (hf h)

/-! ## Giving storage back -/

theorem releaseIdle (h : m.Accounts (a.owned + A)) : (m.releaseIdle a).Accounts A where
  balanced := by
    rw [queues_releaseIdle]
    exact Balanced.releaseIdle (by rw [← add_assoc]; exact h.balanced)
  streams := by rw [queues_releaseIdle]; exact h.streams

theorem dropGuardIdle {g : Guard} (h : m.Accounts (g.owned + A)) :
    (m.dropGuardIdle g).Accounts A := by
  cases g with
  | storage a => exact h.releaseIdle
  | token name => exact (zero_add A) ▸ h

theorem drainIdle {q : StreamQueue} (h : m.Accounts (q.owned + A)) :
    (m.drainIdle q).Accounts A := (h.runCopies q.copies).foldl dropGuardIdle

/-- All that streams keep alive is given back. -/
theorem drainAll (h : m.Accounts A) : m.drainAll.Accounts A := by
  have hidle : ({ m with queues := [] } : Machine).Accounts (m.queues.owned + A) := by
    refine ⟨?_, List.nodup_nil⟩
    show Machine.Balanced _ (m.queues.owned + A + 0)
    rw [add_zero, add_comm]
    exact h.balanced.withQueues []
  refine foldl drainIdle ?_
  rw [List.map_map]
  exact hidle

theorem settleFor (h : m.Accounts A) (location : Location) : (m.settleFor location).Accounts A := by
  cases location with
  | host => exact h
  | device => exact h.drainAll

/-- Storage that the user has is given back. -/
theorem release (h : m.Accounts (a.owned + A)) : (m.release a).Accounts A := by
  unfold Machine.release
  split
  · next hb => rwa [Allocation.owned_of_eq hb, zero_add] at h
  · exact (h.settleFor a.location).releaseIdle

theorem dropGuard {g : Guard} (h : m.Accounts (g.owned + A)) : (m.dropGuard g).Accounts A := by
  cases g with
  | storage a => exact h.release
  | token name => exact (zero_add A) ▸ h

/-! ## Streams -/

theorem drain (h : m.Accounts A) (s : Stream) : (m.drain s).Accounts A := by
  unfold Machine.drain
  cases hq : m.queues.lookup s with
  | none => exact h
  | some q =>
    refine foldl dropGuard (runCopies ⟨?_, ?_⟩ q.copies)
    · have hb := (h.emit (e := .drainedStream s q.copies.length) id).balanced
      have hsplit : A + m.queues.owned = q.owned + A + (m.queues.remove s).owned := by
        rw [Queues.owned_remove hq h.streams]
        abel
      rw [show (m.emit _).queues = m.queues from rfl, hsplit] at hb
      exact hb.withQueues _
    · exact (List.filter_sublist.map _).nodup h.streams

theorem synchronize (h : m.Accounts A) (s : Stream) : (m.synchronize s).Accounts A :=
  (h.drain s).of_balanced rfl fun _ hb => hb.recordSynchronization

/-- What a stream keeps from now on, the user no longer has. -/
theorem retain {g : Guard} (h : m.Accounts (g.owned + A)) (s : Stream) :
    (m.retain s g).Accounts A := by
  unfold Machine.retain
  split
  · exact h.dropGuard
  · refine ⟨?_, Queues.nodup_update h.streams⟩
    have hadd := Queues.owned_update (f := fun q => { q with guards := q.guards ++ [g] })
      (X := g.owned) (fun q => by simp [StreamQueue.owned]) s m.queues
    show Machine.Balanced _ (A + Queues.owned (Queues.update s _ m.queues))
    rw [hadd, show A + (m.queues.owned + g.owned) = g.owned + A + m.queues.owned by abel]
    exact h.balanced.withQueues _

/-! ## Copies and new storage -/

/-- A copy gives nothing out and takes nothing back, whatever it copies and wherever it goes. -/
theorem copy (h : m.Accounts A) {kind : CopyKind} {dst src : Pointer} {bytes : Nat} {s : Stream}
    (hc : Machine.copy kind dst src bytes s m = .ok m') : m'.Accounts A := by
  have hqueued : (m.enqueue s ⟨dst, src, bytes⟩).Accounts A := by
    refine ⟨?_, Queues.nodup_update h.streams⟩
    have hsame := Queues.owned_update (X := 0)
      (f := fun q => { q with copies := q.copies ++ [⟨dst, src, bytes⟩] })
      (fun q => (add_zero _).symm) s m.queues
    show Machine.Balanced _ (A + Queues.owned (Queues.update s _ m.queues))
    rw [hsame, add_zero]
    exact h.balanced.withQueues _
  unfold Machine.copy at hc
  split at hc
  · split at hc
    · cases hc
    · cases hc
      exact (h.runCopies _).recordCopy ..
  · split at hc
    · cases hc
      exact h
    · split at hc
      · cases hc
      · split at hc
        · cases hc
        · split at hc
          · cases hc
            exact hqueued.recordCopy ..
          · cases hc
            exact (h.runCopies _).recordCopy ..

/-- What is asked for and given out belongs to the user. -/
theorem acquire (h : m.Accounts A) {bytes device : Nat} {location : Location}
    (ha : Machine.acquire bytes location device m = .ok (a, m')) : m'.Accounts (a.owned + A) := by
  rcases acquire_eq_ok ha with ⟨-, rfl, rfl⟩ | ⟨hb, rfl, hgiven⟩
  · rw [Allocation.owned_of_eq rfl, zero_add]
    exact h
  · rw [Allocation.owned_of_ne hb]
    refine ⟨?_, by rw [hgiven.queues]; exact h.streams⟩
    rw [hgiven.queues, add_assoc, Multiset.singleton_add]
    exact h.balanced.allocated hb hgiven

end Accounts

/-- Streams that were waited for have no queues. -/
theorem mem_queues_synchronizeAll {streams : List Stream} {p : Stream × StreamQueue}
    (hp : p ∈ (streams.foldl Machine.synchronize m).queues) : p ∈ m.queues ∧ p.1 ∉ streams := by
  induction streams generalizing m with
  | nil => exact ⟨hp, List.not_mem_nil⟩
  | cons s rest ih =>
    obtain ⟨hmem, hrest⟩ := ih hp
    obtain ⟨hmem, hs⟩ := List.mem_filter.mp (queues_drain m s hmem)
    have hne : p.1 ≠ s := by simpa using hs
    exact ⟨hmem, fun hp' => (List.mem_cons.mp hp').elim hne hrest⟩

theorem Accounts.synchronizeAll (h : m.Accounts A) (streams : List Stream) :
    (streams.foldl Machine.synchronize m).Accounts A := by
  induction streams generalizing m with
  | nil => exact h
  | cons s rest ih => exact ih (h.synchronize s)

/-- A machine whose user has nothing has nothing left once all streams have been waited for. -/
theorem Accounts.empties (h : m.Accounts 0) {streams : List Stream}
    (hstreams : ∀ p ∈ m.queues, p.1 ∈ streams) :
    let m' := streams.foldl Machine.synchronize m
    m'.stats.liveAllocations = 0 ∧ m'.stats.liveBytes = 0 ∧ m'.live = [] ∧
      ∀ device, m'.bytesInUse device = 0 := by
  intro m'
  have hqueues : m'.queues = [] := List.eq_nil_iff_forall_not_mem.mpr fun p hp => by
    obtain ⟨hmem, hnot⟩ := mem_queues_synchronizeAll hp
    exact hnot (hstreams p hmem)
  have hb : m'.Balanced 0 := by
    have hb := (h.synchronizeAll streams).balanced
    rwa [show (streams.foldl Machine.synchronize m).queues = [] from hqueues] at hb
  refine ⟨hb.liveAllocations.2, hb.liveBytes, ?_, fun device => hb.bytesInUse device⟩
  exact (Multiset.coe_eq_zero _).mp hb.table.symm

end Machine

end DeviceBatch
