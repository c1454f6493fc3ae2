import Mathlib.Data.List.Pairwise
import DeviceBatch.Proofs.Action
import DeviceBatch.Proofs.Draining

/-!
# The device table

A platform can be used past all buffers: storage is asked for and given back by its address, any
pointers are copied between, and anything is handed to a stream to keep. Whatever is asked in
whatever order, the table of live device allocations stays sound (`Machine.Tabled`): the bytes in
use on a device are those of its entries, within the capacity, and the entries are storage of its
own. Device storage is given back exactly if it starts an entry once all queued work is done
(`calls_keep_table`).

Blocks are never used twice, but addresses are. `address` says where the host allocator has put
each block; all that is asked of it is that a new block overlaps no live one
(`PlatformCall.Given`).
-/

namespace DeviceBatch

/-! ## Entries -/

namespace DeviceAllocation

variable {live l r : List DeviceAllocation} {e : DeviceAllocation} {device : Nat}

/-- The bytes that the entries of a table take up on a device. -/
def usage (live : List DeviceAllocation) (device : Nat) : Nat :=
  ((live.filter fun e => e.device = device).map bytes).sum

/-- The two entries share no address. -/
def Apart (address : Nat → Nat) (e e' : DeviceAllocation) : Prop :=
  address e.block + e.bytes ≤ address e'.block ∨ address e'.block + e'.bytes ≤ address e.block

instance (address : Nat → Nat) (e e' : DeviceAllocation) : Decidable (e.Apart address e') :=
  inferInstanceAs (Decidable (_ ∨ _))

instance (address : Nat → Nat) : Std.Symm (Apart address) where
  symm _ _ := Or.symm

theorem usage_middle (l r : List DeviceAllocation) (e : DeviceAllocation) (device : Nat) :
    usage (l ++ e :: r) device = (if e.device = device then e.bytes else 0) +
      usage (l ++ r) device := by
  unfold usage
  rw [List.filter_append, List.filter_append, List.filter_cons]
  by_cases h : e.device = device
  · rw [if_pos (decide_eq_true h), if_pos h, List.map_append, List.map_cons, List.sum_append,
      List.sum_cons, List.map_append, List.sum_append]
    omega
  · rw [if_neg (by simpa using h), if_neg h, Nat.zero_add]

theorem usage_append (live : List DeviceAllocation) (e : DeviceAllocation) (device : Nat) :
    usage (live ++ [e]) device =
      (if e.device = device then e.bytes else 0) + usage live device := by
  have h := usage_middle live [] e device
  rwa [List.append_nil] at h

/-- An entry takes up no more than all entries of its device. -/
theorem bytes_le_usage (h : e ∈ live) : e.bytes ≤ usage live e.device := by
  obtain ⟨l, r, rfl⟩ := List.append_of_mem h
  rw [usage_middle, if_pos rfl]
  omega

/-- What is found first is what is erased. -/
theorem split_of_find? {q : DeviceAllocation → Bool} (h : live.find? q = some e) :
    q e = true ∧ ∃ l r, live = l ++ e :: r ∧ live.eraseP q = l ++ r := by
  obtain ⟨hq, l, r, rfl, hl⟩ := List.find?_eq_some_iff_append.mp h
  refine ⟨hq, l, r, rfl, ?_⟩
  rw [List.eraseP_append_right _ fun b hb => by simpa using hl b hb, List.eraseP_cons_of_pos hq]

end DeviceAllocation

/-- Dropping the guard gives back the device storage that the block holds. -/
def Guard.Names (g : Guard) (block : Nat) : Prop :=
  match g with
  | .storage a => a.location = .device ∧ a.bytes ≠ 0 ∧ a.block = block
  | .token _ => False

namespace Machine

/-! ## Sound tables -/

variable {m m' : Machine} {devices : SimulatedDevices} {address : Nat → Nat} {a : Allocation}
  {e : DeviceAllocation}

/-- The table of live device allocations is sound, and the bytes in use agree with it. -/
structure Tabled (devices : SimulatedDevices) (address : Nat → Nat) (m : Machine) : Prop where
  platform : m.platform = .simulated devices
  /-- The bytes in use on a device are those of its entries. -/
  used : m.used = (List.range devices.count).map (DeviceAllocation.usage m.live)
  capacity : ∀ d < devices.count, DeviceAllocation.usage m.live d ≤ devices.capacity
  nonempty : ∀ e ∈ m.live, e.bytes ≠ 0
  placed : ∀ e ∈ m.live, e.device < devices.count
  nonnull : ∀ e ∈ m.live, address e.block ≠ 0
  apart : m.live.Pairwise (DeviceAllocation.Apart address)
  /-- No entry is for the block that pointers to no storage name. -/
  named : ∀ e ∈ m.live, e.block ≠ Pointer.dangling.block
  next : m.memory.next ≠ Pointer.dangling.block

/-- Device storage is given out within the capacity of the device. -/
theorem within_capacity {bytes device block used : Nat} (hp : m.platform = .simulated devices)
    (h : m.allocate bytes .device device = .ok (block, m')) (hu : m.used[device]? = some used) :
    used + bytes ≤ devices.capacity := by
  unfold allocate deviceBlock at h
  simp only [hp, hu] at h
  by_contra hlt
  rw [if_pos (Nat.lt_of_not_le hlt)] at h
  cases h

namespace Tabled

theorem start (devices : SimulatedDevices) (address : Nat → Nat) :
    (start (.simulated devices)).Tabled devices address where
  platform := rfl
  used := (List.map_const' ..).symm ▸ by rw [List.length_range]; rfl
  capacity _ _ := Nat.zero_le _
  nonempty := nofun
  placed := nofun
  nonnull := nofun
  apart := .nil
  named := nofun
  next := Nat.one_ne_zero

/-- Nothing but the table, the bytes in use and the number of the next block counts. -/
theorem congr (h : m.Tabled devices address) (hp : m'.platform = m.platform)
    (hl : m'.live = m.live) (hu : m'.used = m.used)
    (hn : m'.memory.next = m.memory.next) : m'.Tabled devices address where
  platform := hp.trans h.platform
  used := by rw [hu, hl]; exact h.used
  capacity := by rw [hl]; exact h.capacity
  nonempty := by rw [hl]; exact h.nonempty
  placed := by rw [hl]; exact h.placed
  nonnull := by rw [hl]; exact h.nonnull
  apart := by rw [hl]; exact h.apart
  named := by rw [hl]; exact h.named
  next := by rw [hn]; exact h.next

theorem withQueues (h : m.Tabled devices address) (qs : Queues) :
    { m with queues := qs }.Tabled devices address := h.congr rfl rfl rfl rfl

theorem runCopies (h : m.Tabled devices address) (cs : List PendingCopy) :
    (m.runCopies cs).Tabled devices address := h.congr rfl rfl rfl (Memory.next_run ..)

theorem emit (h : m.Tabled devices address) (event : Event) :
    (m.emit event).Tabled devices address := h.congr rfl rfl rfl rfl

/-- The bytes in use on the device of an entry cover the entry, within the capacity. -/
theorem used_eq (h : m.Tabled devices address) {d : Nat} (hd : d < devices.count) :
    m.used[d]? = some (DeviceAllocation.usage m.live d) := by
  rw [h.used, List.getElem?_map, List.getElem?_range hd, Option.map_some]

theorem block_injective (h : m.Tabled devices address) {e' : DeviceAllocation} (he : e ∈ m.live)
    (he' : e' ∈ m.live) (ha : address e.block = address e'.block) : e = e' := by
  by_contra hne
  have hapart : e.Apart address e' := h.apart.forall he he' hne
  have hb := h.nonempty e he
  have hb' := h.nonempty e' he'
  rcases hapart with h | h <;> omega

/-! ## Giving storage back -/

/-- An entry is taken out of the table. -/
theorem erased (h : m.Tabled devices address) {l r : List DeviceAllocation}
    (hm : m.live = l ++ e :: r) (hp : m'.platform = m.platform) (hl : m'.live = l ++ r)
    (hu : m'.used = m.used.modify e.device (· - e.bytes))
    (hn : m'.memory.next = m.memory.next) : m'.Tabled devices address := by
  have hsub : ∀ {e'}, e' ∈ m'.live → e' ∈ m.live := by
    intro e' he'
    rw [hl, List.mem_append] at he'
    rw [hm, List.mem_append, List.mem_cons]
    exact he'.imp_right .inr
  have husage : ∀ d, DeviceAllocation.usage m.live d =
      (if e.device = d then e.bytes else 0) + DeviceAllocation.usage m'.live d := fun d => by
    rw [hm, hl]
    exact DeviceAllocation.usage_middle l r e d
  exact {
    platform := hp.trans h.platform
    used := by
      rw [hu, h.used]
      refine List.ext_getElem (by simp) fun d _ _ => ?_
      rw [List.getElem_modify, List.getElem_map, List.getElem_map, List.getElem_range, husage d]
      by_cases hd : e.device = d
      · rw [if_pos hd, if_pos hd, Nat.add_sub_cancel_left]
      · rw [if_neg hd, if_neg hd, Nat.zero_add]
    capacity := fun d hd => by
      have hcap := h.capacity d hd
      rw [husage d] at hcap
      omega
    nonempty := fun e' he' => h.nonempty e' (hsub he')
    placed := fun e' he' => h.placed e' (hsub he')
    nonnull := fun e' he' => h.nonnull e' (hsub he')
    apart := by
      rw [hl]
      have hpair := h.apart
      rw [hm] at hpair
      exact hpair.sublist ((List.sublist_cons_self e r).append_left l)
    named := fun e' he' => h.named e' (hsub he')
    next := by rw [hn]; exact h.next }

/-- Host storage has nothing to do with the table. -/
theorem reclaim_host (h : m.Tabled devices address) (ha : a.location = .host) :
    ∃ m', m.reclaim a = .ok m' ∧ m'.Tabled devices address ∧ m'.live = m.live := by
  refine ⟨m.reclaimBlock a, ?_, h.congr rfl rfl rfl (Memory.next_free ..), rfl⟩
  unfold Machine.reclaim
  rw [ha]

/-- Device storage is given back if it has an entry, and then only that entry is gone. -/
theorem reclaim_device (h : m.Tabled devices address) (ha : a.location = .device) :
    (∃ e ∈ m.live, e.block = a.block ∧ ∃ m', m.reclaim a = .ok m' ∧
        m'.Tabled devices address ∧ ∀ e', e' ∈ m'.live ↔ e' ∈ m.live ∧ e' ≠ e) ∨
      (∀ e ∈ m.live, e.block ≠ a.block) ∧
        m.reclaim a = .error (.internalConsistency .unknownAllocation) := by
  unfold Machine.reclaim
  rw [ha, h.platform]
  dsimp only
  cases hf : m.live.find? fun e => e.block == a.block with
  | none =>
    refine .inr ⟨fun e he hb => ?_, rfl⟩
    exact List.find?_eq_none.mp hf e he (beq_iff_eq.mpr hb)
  | some e =>
    obtain ⟨hb, l, r, hm, herase⟩ := DeviceAllocation.split_of_find? hf
    have hne : ∀ e' ∈ l ++ r, e' ≠ e := by
      have hpair := h.apart
      rw [hm, List.pairwise_middle (Std.Symm.symm _ _), List.pairwise_cons] at hpair
      rintro e' he' rfl
      have hb := h.nonempty e' (by rw [hm]; simp)
      rcases hpair.1 e' he' with h | h <;> omega
    refine .inl ⟨e, List.mem_of_find?_eq_some hf, eq_of_beq hb, _, rfl,
      h.erased hm h.platform.symm herase rfl (Memory.next_free ..), fun e' => ?_⟩
    show e' ∈ m.live.eraseP _ ↔ _
    rw [herase, hm, List.mem_append, List.mem_append, List.mem_cons]
    constructor
    · intro he'
      exact ⟨he'.imp_right .inr, hne e' (List.mem_append.mpr he')⟩
    · rintro ⟨he' | rfl | he', hne'⟩
      · exact .inl he'
      · exact absurd rfl hne'
      · exact .inr he'

/-- Only the entry that the storage names leaves the table. -/
theorem releaseIdle (h : m.Tabled devices address) (a : Allocation) :
    (m.releaseIdle a).Tabled devices address ∧ ∀ e, e ∈ (m.releaseIdle a).live ↔
      e ∈ m.live ∧ ¬ (Guard.storage a).Names e.block := by
  unfold Machine.releaseIdle
  by_cases hb : a.bytes = 0
  · rw [if_pos hb]
    exact ⟨h, fun e => ⟨fun he => ⟨he, fun hn => hn.2.1 hb⟩, And.left⟩⟩
  rw [if_neg hb]
  cases ha : a.location with
  | host =>
    obtain ⟨m', hr, hm', hl⟩ := h.reclaim_host ha
    rw [hr]
    refine ⟨hm', fun e => ?_⟩
    rw [hl]
    exact ⟨fun he => ⟨he, fun hn => by cases ha.symm.trans hn.1⟩, And.left⟩
  | device =>
    rcases h.reclaim_device ha with ⟨e, he, heb, m', hr, hm', hl⟩ | ⟨hnone, hr⟩
    · rw [hr]
      refine ⟨hm', fun e' => (hl e').trans (and_congr_right fun he' => not_congr ⟨?_, ?_⟩)⟩
      · rintro rfl
        exact ⟨ha, hb, heb.symm⟩
      · exact fun hn => h.block_injective he' he (congrArg address (heb.trans hn.2.2).symm)
    · rw [hr]
      exact ⟨h.emit _, fun e => ⟨fun he => ⟨he, fun hn => hnone e he hn.2.2.symm⟩, And.left⟩⟩

theorem dropGuardIdle (h : m.Tabled devices address) (g : Guard) :
    (m.dropGuardIdle g).Tabled devices address ∧
      ∀ e, e ∈ (m.dropGuardIdle g).live ↔ e ∈ m.live ∧ ¬ g.Names e.block := by
  cases g with
  | storage a => exact h.releaseIdle a
  | token name => exact ⟨h, fun e => ⟨fun he => ⟨he, id⟩, And.left⟩⟩

theorem dropGuardsIdle (h : m.Tabled devices address) (gs : List Guard) :
    (gs.foldl Machine.dropGuardIdle m).Tabled devices address ∧
      ∀ e, e ∈ (gs.foldl Machine.dropGuardIdle m).live ↔
        e ∈ m.live ∧ ∀ g ∈ gs, ¬ g.Names e.block := by
  induction gs generalizing m with
  | nil => exact ⟨h, fun e => by simp⟩
  | cons g gs ih =>
    obtain ⟨hfirst, hlive⟩ := h.dropGuardIdle g
    obtain ⟨hrest, hlive'⟩ := ih hfirst
    refine ⟨hrest, fun e => ?_⟩
    rw [List.foldl_cons, hlive', hlive, List.forall_mem_cons, and_assoc]

theorem drainsIdle (h : m.Tabled devices address) (qs : List StreamQueue) :
    (qs.foldl drainIdle m).Tabled devices address ∧
      ∀ e, e ∈ (qs.foldl drainIdle m).live ↔
        e ∈ m.live ∧ ∀ q ∈ qs, ∀ g ∈ q.guards, ¬ g.Names e.block := by
  induction qs generalizing m with
  | nil => exact ⟨h, fun e => by simp⟩
  | cons q qs ih =>
    obtain ⟨hfirst, hlive⟩ := (h.runCopies q.copies).dropGuardsIdle q.guards
    obtain ⟨hrest, hlive'⟩ := ih hfirst
    refine ⟨hrest, fun e => (hlive' e).trans ?_⟩
    rw [List.forall_mem_cons, ← and_assoc]
    exact and_congr_left fun _ => hlive e

/-- Doing all queued work takes out of the table what the guards name, and nothing else. -/
theorem drainAll (h : m.Tabled devices address) :
    m.drainAll.Tabled devices address ∧ ∀ e, e ∈ m.drainAll.live ↔
      e ∈ m.live ∧ ∀ p ∈ m.queues, ∀ g ∈ p.2.guards, ¬ g.Names e.block := by
  obtain ⟨hdone, hlive⟩ := (h.withQueues []).drainsIdle (m.queues.map Prod.snd)
  refine ⟨hdone, fun e => (hlive e).trans (and_congr_right fun _ => ?_)⟩
  exact List.forall_mem_map

theorem release (h : m.Tabled devices address) (a : Allocation) :
    (m.release a).Tabled devices address := by
  unfold Machine.release settleFor
  split
  · exact h
  · cases a.location with
    | host => exact (h.releaseIdle a).1
    | device => exact (h.drainAll.1.releaseIdle a).1

theorem dropGuards (h : m.Tabled devices address) (gs : List Guard) :
    (gs.foldl Machine.dropGuard m).Tabled devices address := by
  induction gs generalizing m with
  | nil => exact h
  | cons g gs ih =>
    cases g with
    | storage a => exact ih (h.release a)
    | token name => exact ih h

theorem synchronize (h : m.Tabled devices address) (s : Stream) :
    (m.synchronize s).Tabled devices address := by
  have hdrain : (m.drain s).Tabled devices address := by
    unfold drain
    cases m.queues.lookup s with
    | none => exact h
    | some q =>
      exact (((h.emit _).withQueues (m.queues.remove s)).runCopies q.copies).dropGuards q.guards
  exact hdrain.congr rfl rfl rfl rfl

/-! ## Asking for storage, copying, keeping -/

theorem allocate (h : m.Tabled devices address) {bytes device block : Nat} {location : Location}
    (hm : m.allocate bytes location device = .ok (block, m')) (hnull : address block ≠ 0)
    (hapart : ∀ e ∈ m.live, e.Apart address ⟨block, bytes, device⟩) :
    m'.Tabled devices address := by
  obtain ⟨hbytes, rfl, ha⟩ := allocate_eq_ok hm
  have hnext : m'.memory.next ≠ Pointer.dangling.block := by
    rw [ha.memory, Memory.next_alloc]
    exact Nat.succ_ne_zero _
  rcases ha.table with ⟨rfl, hl, hu⟩ | ⟨rfl, used, hget, hl, hu⟩
  · -- Host storage changes nothing but the number of the next block.
    have htable : { m with platform := m'.platform, live := m'.live, used := m'.used }.Tabled
        devices address := h.congr ha.platform hl hu rfl
    exact { htable with next := hnext }
  have hd : device < devices.count := by
    rw [h.used] at hget
    simpa using (List.getElem?_eq_some_iff.mp hget).1
  have hused : used = DeviceAllocation.usage m.live device :=
    Option.some.inj (hget.symm.trans (h.used_eq hd))
  have hmem : ∀ {P : DeviceAllocation → Prop}, (∀ e ∈ m.live, P e) →
      P ⟨m.memory.next, bytes, device⟩ → ∀ e ∈ m'.live, P e := by
    intro P hall hnew e he
    rw [hl, List.mem_append, List.mem_singleton] at he
    rcases he with he | rfl
    · exact hall e he
    · exact hnew
  exact {
    platform := ha.platform.trans h.platform
    used := by
      rw [hu, hl, h.used, hused]
      refine List.ext_getElem (by simp) fun d _ _ => ?_
      rw [List.getElem_set, List.getElem_map, List.getElem_map, List.getElem_range,
        DeviceAllocation.usage_append]
      by_cases hdd : device = d
      · rw [if_pos hdd, if_pos hdd, hdd, Nat.add_comm]
      · rw [if_neg hdd, if_neg hdd, Nat.zero_add]
    capacity := fun d hdc => by
      rw [hl, DeviceAllocation.usage_append]
      by_cases hdd : device = d
      · have hcap := within_capacity h.platform hm hget
        subst hdd
        rw [if_pos rfl, Nat.add_comm, ← hused]
        exact hcap
      · rw [if_neg hdd, Nat.zero_add]
        exact h.capacity d hdc
    nonempty := hmem h.nonempty hbytes
    placed := hmem h.placed hd
    nonnull := hmem h.nonnull hnull
    apart := by
      rw [hl]
      exact List.pairwise_append.mpr ⟨h.apart, List.pairwise_singleton _ _, fun e he e' he' => by
        rw [List.mem_singleton.mp he']
        exact hapart e he⟩
    named := hmem h.named h.next
    next := hnext }

theorem copy (h : m.Tabled devices address) {kind : CopyKind} {dst src : Pointer} {bytes : Nat}
    {s : Stream} (hm : m.copy kind dst src bytes s = .ok m') : m'.Tabled devices address := by
  unfold Machine.copy at hm
  rw [h.platform] at hm
  dsimp only at hm
  split at hm
  · cases hm
    exact h
  split at hm
  · cases hm
  split at hm
  · cases hm
  split at hm
  · cases hm
    exact h.congr rfl rfl rfl rfl
  · cases hm
    exact (h.runCopies _).congr rfl rfl rfl rfl

theorem retain (h : m.Tabled devices address) (s : Stream) (g : Guard) :
    (m.retain s g).Tabled devices address := by
  unfold Machine.retain
  split
  · next hp => cases hp.symm.trans h.platform
  · exact h.congr rfl rfl rfl rfl

end Tabled

/-! ## Storage by its address -/

/-- The block of the live device allocation that starts at an address. -/
def blockAt (address : Nat → Nat) (m : Machine) (start : Nat) : Nat :=
  (m.live.find? fun e => address e.block == start).elim Pointer.dangling.block
    DeviceAllocation.block

theorem Tabled.blockAt_eq (h : m.Tabled devices address) (he : e ∈ m.live) :
    m.blockAt address (address e.block) = e.block := by
  unfold blockAt
  cases hf : m.live.find? fun e' => address e'.block == address e.block with
  | none => exact absurd (beq_iff_eq.mpr rfl) (List.find?_eq_none.mp hf e he)
  | some e' =>
    have ha : address e'.block = address e.block := by simpa using List.find?_some hf
    rw [h.block_injective (List.mem_of_find?_eq_some hf) he ha]
    rfl

theorem blockAt_of_unknown {start : Nat} (h : ∀ e ∈ m.live, address e.block ≠ start) :
    m.blockAt address start = Pointer.dangling.block := by
  unfold blockAt
  rw [List.find?_eq_none.mpr fun e he => by simpa using h e he]
  rfl

/-- The guards of all queues are for other blocks, as `aim` says. -/
def reaim (m : Machine) (aim : Nat → Nat) : Machine :=
  { m with
    queues := m.queues.map fun p => (p.1, { p.2 with
      guards := p.2.guards.map fun g =>
        match g with
        | .storage a => .storage { a with block := aim a.block }
        | .token name => .token name }) }

end Machine

/-! ## Calls -/

/-- What can be asked of a platform, and what the world around it does in between. -/
inductive PlatformCall where
  | allocate (bytes : Nat) (location : Location) (device : Nat)
  /-- Gives back the device storage that starts at an address, if there is any. -/
  | deallocate (start bytes device : Nat)
  /-- Gives back host storage. -/
  | deallocateHost (block bytes : Nat)
  | copy (kind : CopyKind) (dst src : Pointer) (bytes : Nat) (stream : Stream)
  | retain (stream : Stream) (guard : Guard)
  | synchronize (stream : Stream)
  /-- A guard keeps an address, which may have come to be the start of another block since. -/
  | reaim (aim : Nat → Nat)
  /-- The queues have no order. -/
  | reorder (queues : Queues)

namespace PlatformCall

open Machine

variable {m : Machine} {devices : SimulatedDevices} {address : Nat → Nat}

/-- Performs a call. Device storage is looked up once all queued work is done. -/
def run (address : Nat → Nat) : PlatformCall → Action Machine Unit
  | allocate bytes location device => do
    let _ ← Action.attempt (Machine.allocate · bytes location device)
  | deallocate start bytes device => do
    let m ← get
    Machine.deallocate ⟨m.drainAll.blockAt address start, bytes, .device, device⟩
  | deallocateHost block bytes => Machine.deallocate ⟨block, bytes, .host, 0⟩
  | copy kind dst src bytes stream => Action.step (Machine.copy kind dst src bytes stream)
  | retain stream guard => Action.change (Machine.retain · stream guard)
  | synchronize stream => Action.change (Machine.synchronize · stream)
  | reaim aim => Action.change (Machine.reaim · aim)
  | reorder queues => Action.change fun m => { m with queues }

/-- The machine after a call, whether it was refused or not. -/
def after (address : Nat → Nat) (m : Machine) (c : PlatformCall) : Machine :=
  ((c.run address).outcome m).2

/-- The host allocator gives out a block that is not null and overlaps no live device storage, and
queues only change their order by themselves. -/
def Given (address : Nat → Nat) (m : Machine) : PlatformCall → Prop
  | allocate bytes location device =>
    ∀ p ∈ (m.allocate bytes location device).toOption, address p.1 ≠ 0 ∧
      ∀ e ∈ m.live, e.Apart address ⟨p.1, bytes, device⟩
  | reorder queues => queues.Perm m.queues
  | _ => True

/-- The same for each of several calls, one after the other. -/
def AllGiven (address : Nat → Nat) : Machine → List PlatformCall → Prop
  | _, [] => True
  | m, c :: calls => c.Given address m ∧ AllGiven address (c.after address m) calls

instance (address : Nat → Nat) (m : Machine) : (c : PlatformCall) → Decidable (c.Given address m)
  | allocate bytes location device =>
    inferInstanceAs (Decidable (∀ p ∈ (m.allocate bytes location device).toOption,
      address p.1 ≠ 0 ∧ ∀ e ∈ m.live, e.Apart address ⟨p.1, bytes, device⟩))
  | reorder queues => inferInstanceAs (Decidable (queues.Perm m.queues))
  | deallocate .. | deallocateHost .. | copy .. | retain .. | synchronize .. | reaim _ =>
    .isTrue trivial

instance decidableAllGiven (address : Nat → Nat) :
    (m : Machine) → (calls : List PlatformCall) → Decidable (AllGiven address m calls)
  | _, [] => .isTrue trivial
  | m, c :: calls =>
    have := decidableAllGiven address (c.after address m) calls
    inferInstanceAs (Decidable (_ ∧ _))

/-- The machine after several calls. -/
def afterAll (address : Nat → Nat) (m : Machine) (calls : List PlatformCall) : Machine :=
  calls.foldl (after address) m

/-- Device storage is given back exactly if it starts an entry when all queued work is done;
otherwise nothing but that work has happened. -/
theorem run_deallocate (h : m.Tabled devices address) (start bytes device : Nat) :
    (∃ e ∈ m.drainAll.live, address e.block = start ∧ ∃ m',
        (deallocate start bytes device).run address m = .ok () m' ∧ m'.Tabled devices address ∧
          ∀ e', e' ∈ m'.live ↔ e' ∈ m.drainAll.live ∧ e' ≠ e) ∨
      (∀ e ∈ m.drainAll.live, address e.block ≠ start) ∧
        (deallocate start bytes device).run address m =
          .error (.internalConsistency .unknownAllocation) m.drainAll := by
  have hdone := h.drainAll.1
  have hrun : (deallocate start bytes device).run address m = Machine.deallocate
      ⟨m.drainAll.blockAt address start, bytes, .device, device⟩ m := rfl
  rw [hrun]
  by_cases hex : ∃ e ∈ m.drainAll.live, address e.block = start
  · obtain ⟨e, he, rfl⟩ := hex
    rw [hdone.blockAt_eq he]
    rcases hdone.reclaim_device (a := ⟨e.block, bytes, .device, device⟩) rfl with
      ⟨e', he', heb, m', hr, hm', hl⟩ | ⟨hnone, -⟩
    · obtain rfl := hdone.block_injective he' he (congrArg address heb)
      exact .inl ⟨e', he', rfl, m', deallocate_of_reclaim rfl hr, hm', hl⟩
    · exact absurd rfl (hnone e he)
  · have hnone : ∀ e ∈ m.drainAll.live, address e.block ≠ start := fun e he ha => hex ⟨e, he, ha⟩
    rw [blockAt_of_unknown hnone]
    rcases hdone.reclaim_device (a := ⟨Pointer.dangling.block, bytes, .device, device⟩) rfl with
      ⟨e, he, heb, -⟩ | ⟨-, hr⟩
    · exact absurd heb (hdone.named e he)
    · exact .inr ⟨hnone, deallocate_of_refused rfl hr⟩

/-- One call keeps the table sound. -/
theorem tabled_after (h : m.Tabled devices address) {c : PlatformCall}
    (hc : c.Given address m) : (c.after address m).Tabled devices address := by
  refine Action.Leaves.outcome (Q := Tabled devices address) ?_
  cases c with
  | allocate bytes location device =>
    have hstep : (Action.attempt (Machine.allocate · bytes location device)).Leaves m
        (fun _ => Tabled devices address) (Tabled devices address) := by
      refine .attempt (fun block m' hm => ?_) h
      obtain ⟨hnull, hapart⟩ := hc (block, m') (by rw [hm]; rfl)
      exact h.allocate hm hnull hapart
    exact hstep.bind fun _ _ h' => .pure h'
  | deallocate start bytes device =>
    unfold Action.Leaves
    rcases run_deallocate h start bytes device with ⟨e, -, -, m', hr, hm', -⟩ | ⟨-, hr⟩
    · rw [hr]
      exact hm'
    · rw [hr]
      exact h.drainAll.1
  | deallocateHost block bytes =>
    obtain ⟨m', hr, hm', -⟩ := h.reclaim_host (a := ⟨block, bytes, .host, 0⟩) rfl
    unfold Action.Leaves run Machine.deallocate settleFor
    simp only [hr]
    exact hm'
  | copy kind dst src bytes stream => exact .step (fun _ hm => h.copy hm) h
  | retain stream guard => exact .change (h.retain stream guard)
  | synchronize stream => exact .change (h.synchronize stream)
  | reaim aim => exact .change (h.withQueues _)
  | reorder queues => exact .change (h.withQueues queues)

/-- Any calls keep it sound. -/
theorem tabled_afterAll (h : m.Tabled devices address) {calls : List PlatformCall}
    (hc : AllGiven address m calls) : (afterAll address m calls).Tabled devices address := by
  induction calls generalizing m with
  | nil => exact h
  | cons c calls ih => exact ih (tabled_after h hc.1) hc.2

/-- Whatever a platform with simulated devices is asked: the bytes in use are those of the live
device allocations, which are storage of their own on devices that exist; a refused allocation
changes nothing; all queued work takes out of the table what its guards name; and device storage is
given back exactly if it starts a live allocation after that, so nothing is ever taken from the
bytes in use that is not part of them. -/
theorem calls_keep_table (devices : SimulatedDevices) (address : Nat → Nat)
    (calls : List PlatformCall) (hc : AllGiven address (.start (.simulated devices)) calls)
    {m : Machine} (hm : m = afterAll address (.start (.simulated devices)) calls) :
    m.Tabled devices address ∧
    (∀ e ∈ m.live, ∃ used, m.used[e.device]? = some used ∧ e.bytes ≤ used ∧
      used ≤ devices.capacity) ∧
    (∀ bytes location device e m',
      (allocate bytes location device).run address m = .error e m' → m' = m) ∧
    (∀ e, e ∈ m.drainAll.live ↔
      e ∈ m.live ∧ ∀ p ∈ m.queues, ∀ g ∈ p.2.guards, ¬ g.Names e.block) ∧
    ∀ start bytes device,
      (∃ e ∈ m.drainAll.live, address e.block = start ∧ ∃ m',
          (deallocate start bytes device).run address m = .ok () m' ∧
            ∀ e', e' ∈ m'.live ↔ e' ∈ m.drainAll.live ∧ e' ≠ e) ∨
        (∀ e ∈ m.drainAll.live, address e.block ≠ start) ∧
          (deallocate start bytes device).run address m =
            .error (.internalConsistency .unknownAllocation) m.drainAll := by
  have h : m.Tabled devices address := hm ▸ tabled_afterAll (.start devices address) hc
  refine ⟨h, fun e he => ?_, fun bytes location device e m' hr => ?_, h.drainAll.2,
    fun start bytes device => ?_⟩
  · exact ⟨_, h.used_eq (h.placed e he), DeviceAllocation.bytes_le_usage he,
      h.capacity _ (h.placed e he)⟩
  · cases hf : m.allocate bytes location device with
    | ok p =>
      obtain ⟨block, m₁⟩ := p
      rw [run, Action.bind_of_ok (Action.attempt_of_ok hf)] at hr
      cases hr
    | error e' =>
      rw [run, Action.bind_of_error (Action.attempt_of_error hf)] at hr
      cases hr
      rfl
  · rcases run_deallocate h start bytes device with ⟨e, he, ha, m', hr, -, hl⟩ | hr
    · exact .inl ⟨e, he, ha, m', hr, hl⟩
    · exact .inr hr

/-- Two devices of which one is used up, given back by its address, and used again at the same
address; the other is given back by a guard when the first is. -/
def reuse : List PlatformCall :=
  [.allocate 32 .device 0, .allocate 16 .device 1, .retain ⟨4⟩ (.storage ⟨2, 16, .device, 1⟩),
    .deallocate 8 32 0, .deallocate 8 32 0, .allocate 48 .device 0, .allocate 32 .device 0,
    .deallocate 64 16 1]

/-- Where the blocks of `reuse` are. -/
def reuseAddress (block : Nat) : Nat := if block = 2 then 64 else 8

theorem reuse_keeps_table :
    AllGiven reuseAddress (.start (.simulated ⟨2, 64, true⟩)) reuse ∧
      (afterAll reuseAddress (.start (.simulated ⟨2, 64, true⟩)) reuse).live = [⟨3, 48, 0⟩] ∧
      (afterAll reuseAddress (.start (.simulated ⟨2, 64, true⟩)) reuse).Tabled ⟨2, 64, true⟩
        reuseAddress := by
  have hgiven : AllGiven reuseAddress (.start (.simulated ⟨2, 64, true⟩)) reuse := by decide +kernel
  exact ⟨hgiven, by decide +kernel, (calls_keep_table _ _ _ hgiven rfl).1⟩

end PlatformCall

end DeviceBatch
