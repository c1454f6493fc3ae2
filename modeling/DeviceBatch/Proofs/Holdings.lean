import DeviceBatch.Proofs.Pending
import Mathlib.Algebra.Ring.Nat
import Mathlib.Data.List.Nodup

/-!
# Storage in use

A holding is owned storage that is in use, with what copies may do to it while they wait:

* storage that is bound to a stream is read and written by copies of that stream;
* staged storage belongs to the gathered inputs of a batch: copies of its stream read it, and it is
  written from stored inputs only;
* stored inputs are read by copies of all streams and written by none.

A machine is orderly for a list of holdings if these are exactly the storage that it has given out:
they occupy blocks of their own, every copy that waits stays within them and does what their use
allows, and the table of device allocations and the counters agree with them.
-/

namespace DeviceBatch

/-! ## Holdings -/

/-- What copies may do to storage while they wait. -/
inductive Use where
  | bound (stream : Stream)
  | staged (stream : Stream)
  | stored
  deriving DecidableEq

/-- Owned storage that is in use. -/
structure Holding where
  allocation : Allocation
  use : Use
  deriving DecidableEq

namespace Use

/-- A copy on the stream may read the storage. -/
def Gives : Use → Stream → Prop
  | bound t, s | staged t, s => t = s
  | stored, _ => True

/-- A copy on the stream may write the storage with bytes of storage of the other use. -/
def Takes : Use → Stream → Use → Prop
  | bound t, s, _ => t = s
  | staged t, s, source => t = s ∧ source = stored
  | stored, _, _ => False

/-- Nobody but the library writes the storage. -/
def IsFixed : Use → Prop
  | bound _ => False
  | staged _ | stored => True

/-- Storage that is written has one stream, which reads it too. -/
theorem eq_of_takes_of_gives {u v : Use} {s t : Stream} (ht : u.Takes s v) (hg : u.Gives t) :
    s = t := by
  cases u with
  | bound r => exact Eq.trans (Eq.symm ht) hg
  | staged r => exact ht.1.symm.trans hg
  | stored => exact ht.elim

theorem eq_of_takes_of_takes {u v w : Use} {s t : Stream} (ht : u.Takes s v) (hg : u.Takes t w) :
    s = t := by
  cases u with
  | bound r => exact Eq.trans (Eq.symm ht) hg
  | staged r => exact ht.1.symm.trans hg.1
  | stored => exact ht.elim

end Use

namespace Holding

def block (t : Holding) : Nat := t.allocation.block

def bytes (t : Holding) : Nat := t.allocation.bytes

def location (t : Holding) : Location := t.allocation.location

def device (t : Holding) : Nat := t.allocation.device

/-- The `n` bytes at `p` lie in the storage. -/
def Spans (t : Holding) (p : Pointer) (n : Nat) : Prop :=
  t.block = p.block ∧ p.offset + n ≤ t.bytes

/-- The entry in the table of live device allocations. -/
def entry? (t : Holding) : Option DeviceAllocation :=
  match t.location with
  | .host => none
  | .device => some ⟨t.block, t.bytes, t.device⟩

theorem entry?_eq_some {t : Holding} {e : DeviceAllocation} :
    t.entry? = some e ↔ t.location = .device ∧ e = ⟨t.block, t.bytes, t.device⟩ := by
  unfold entry?
  cases t.location with
  | host => simp
  | device => simp [eq_comm]

/-- The bytes in use on a device. -/
def usage (T : List Holding) (device : Nat) : Nat :=
  (T.map fun t => if t.location = .device ∧ t.device = device then t.bytes else 0).sum

theorem usage_cons (t : Holding) (T : List Holding) (device : Nat) :
    usage (t :: T) device =
      (if t.location = .device ∧ t.device = device then t.bytes else 0) + usage T device :=
  List.sum_cons

theorem usage_perm {T T' : List Holding} (h : T.Perm T') (device : Nat) :
    usage T device = usage T' device := (h.map _).sum_nat

end Holding

/-- The copy stays within the storage in use and does what its use allows. -/
def PendingCopy.Served (T : List Holding) (s : Stream) (c : PendingCopy) : Prop :=
  ∃ t ∈ T, ∃ u ∈ T, t.Spans c.dst c.bytes ∧ u.Spans c.src c.bytes ∧
    t.use.Takes s u.use ∧ u.use.Gives s

theorem PendingCopy.Served.mono {T T' : List Holding} {s : Stream} {c : PendingCopy}
    (h : c.Served T s) (hsub : T ⊆ T') : c.Served T' s := by
  obtain ⟨t, ht, u, hu, rest⟩ := h
  exact ⟨t, hsub ht, u, hsub hu, rest⟩

/-- Copies wait at all. -/
def Platform.isDeferred : Platform → Bool
  | .host => false
  | .simulated devices => devices.deferred

theorem Platform.defers_eq (p : Platform) (kind : CopyKind) :
    p.defers kind = (p.isDeferred && kind.touchesDevice) := by
  cases p <;> rfl

namespace Machine

/-! ## Orderly machines -/

/-- The storage in use is `T`, and copies that wait respect it. -/
structure Orderly (m : Machine) (T : List Holding) : Prop where
  /-- Each stream has one queue. -/
  streams : (m.queues.map Prod.fst).Nodup
  served : ∀ s c, m.Pending s c → c.Served T s
  distinct : (T.map Holding.block).Nodup
  occupied : ∀ t ∈ T, (m.memory.block? t.block).map List.length = some t.bytes
  nonempty : ∀ t ∈ T, t.bytes ≠ 0
  placed : ∀ t ∈ T, t.location = .device → t.device < m.platform.deviceCount
  table : (T.filterMap Holding.entry?).Perm m.live
  used : m.used = (List.range m.platform.deviceCount).map (Holding.usage T)
  counted : m.stats.allocations = m.stats.deallocations + T.length
  liveBytes : m.stats.liveBytes = (T.map Holding.bytes).sum
  waits : m.platform.isDeferred = false → m.queues = []

variable {m m' : Machine} {T T' : List Holding} {t : Holding}

theorem start_orderly (platform : Platform) : (start platform).Orderly [] where
  streams := List.nodup_nil
  served := by rintro s c ⟨q, hq, -⟩; cases hq
  distinct := List.nodup_nil
  occupied := by simp
  nonempty := by simp
  placed := by simp
  table := List.Perm.refl _
  used := List.ext_getElem (by simp [start]) (by simp [start, Holding.usage])
  counted := rfl
  liveBytes := rfl
  waits := fun _ => rfl

namespace Orderly

/-- The order of the holdings is of no importance. -/
theorem perm (h : m.Orderly T) (hp : T.Perm T') : m.Orderly T' where
  streams := h.streams
  served s c hc := (h.served s c hc).mono hp.subset
  distinct := (hp.map _).nodup h.distinct
  occupied t ht := h.occupied t (hp.mem_iff.mpr ht)
  nonempty t ht := h.nonempty t (hp.mem_iff.mpr ht)
  placed t ht := h.placed t (hp.mem_iff.mpr ht)
  table := (hp.symm.filterMap _).trans h.table
  used := by
    rw [h.used]
    exact List.map_congr_left fun d _ => Holding.usage_perm hp d
  counted := by rw [h.counted, hp.length_eq]
  liveBytes := by rw [h.liveBytes, (hp.map _).sum_nat]
  waits := h.waits

/-- Nothing but memory, queues, table and counters of storage matters. -/
theorem congr (h : m.Orderly T) (hp : m'.platform = m.platform) (hm : m'.memory = m.memory)
    (hl : m'.live = m.live) (hu : m'.used = m.used) (hq : m'.queues = m.queues)
    (ha : m'.stats.allocations = m.stats.allocations)
    (hd : m'.stats.deallocations = m.stats.deallocations)
    (hb : m'.stats.liveBytes = m.stats.liveBytes) : m'.Orderly T where
  streams := by rw [hq]; exact h.streams
  served s c hc := h.served s c (by unfold Pending at hc ⊢; rwa [hq] at hc)
  distinct := h.distinct
  occupied := by rw [hm]; exact h.occupied
  nonempty := h.nonempty
  placed := by rw [hp]; exact h.placed
  table := by rw [hl]; exact h.table
  used := by rw [hu, hp]; exact h.used
  counted := by rw [ha, hd]; exact h.counted
  liveBytes := by rw [hb]; exact h.liveBytes
  waits := by rw [hp, hq]; exact h.waits

theorem emit (h : m.Orderly T) (e : Event) : (m.emit e).Orderly T :=
  h.congr rfl rfl rfl rfl rfl rfl rfl rfl

theorem recordCopy (h : m.Orderly T) (kind : CopyKind) (bytes : Nat) :
    (m.recordCopy kind bytes).Orderly T := h.congr rfl rfl rfl rfl rfl rfl rfl rfl

theorem recordSynchronization (h : m.Orderly T) : m.recordSynchronization.Orderly T :=
  h.congr rfl rfl rfl rfl rfl rfl rfl rfl

/-! ## Holdings and their blocks -/

/-- Different holdings are different blocks. -/
theorem eq_of_block (h : m.Orderly T) {u : Holding} (ht : t ∈ T) (hu : u ∈ T)
    (hb : t.block = u.block) : t = u :=
  List.inj_on_of_nodup_map h.distinct ht hu hb

/-- Bytes of storage in use are live. -/
theorem holds (h : m.Orderly T) (ht : t ∈ T) {p : Pointer} {n : Nat} (hs : t.Spans p n) :
    m.memory.holds p n = true := by
  obtain ⟨bytes, hb, hl⟩ := Option.map_eq_some_iff.mp (h.occupied t ht)
  unfold Memory.holds
  rw [← hs.1, hb, Option.any_some, hl, decide_eq_true hs.2, Bool.or_true]

theorem block_lt (h : m.Orderly T) (ht : t ∈ T) : t.block < m.memory.next := by
  have hl := h.occupied t ht
  cases hb : m.memory.block? t.block with
  | none => rw [hb] at hl; cases hl
  | some bytes => exact Memory.lt_next_of_block? hb

/-- A copy within the storage in use is performed on live storage. -/
theorem isLive (h : m.Orderly T) {s : Stream} {c : PendingCopy} (hc : c.Served T s) :
    c.isLive m.memory = true := by
  obtain ⟨t, ht, u, hu, hd, hs, -⟩ := hc
  unfold PendingCopy.isLive
  rw [h.holds ht hd, h.holds hu hs, Bool.and_self]

/-- The blocks of a copy that waits were given out. -/
theorem pending_lt (h : m.Orderly T) {s : Stream} {c : PendingCopy} (hc : m.Pending s c) :
    c.dst.block < m.memory.next ∧ c.src.block < m.memory.next := by
  obtain ⟨t, ht, u, hu, hd, hs, -⟩ := h.served s c hc
  exact ⟨hd.1 ▸ h.block_lt ht, hs.1 ▸ h.block_lt hu⟩

/-- What is not given out is not touched. -/
theorem untouched_of_le (h : m.Orderly T) {b : Nat} (hb : m.memory.next ≤ b) :
    m.Untouched b := by
  intro s c hc htouch
  have := h.pending_lt hc
  rcases htouch with rfl | rfl <;> omega

/-- Copies of different streams do not touch what one of them writes. -/
theorem ne_of_streams (h : m.Orderly T) {s s' : Stream} {c c' : PendingCopy}
    (hc : c.Served T s) (hc' : c'.Served T s') (hs : s ≠ s') :
    c.dst.block ≠ c'.dst.block ∧ c.dst.block ≠ c'.src.block := by
  obtain ⟨t, ht, u, hu, hd, -, htake, -⟩ := hc
  obtain ⟨t', ht', u', hu', hd', hs', htake', hgive'⟩ := hc'
  constructor
  · intro hb
    have heq := h.eq_of_block ht ht' (hd.1.trans (hb.trans hd'.1.symm))
    subst heq
    exact hs (Use.eq_of_takes_of_takes htake htake')
  · intro hb
    have heq := h.eq_of_block ht hu' (hd.1.trans (hb.trans hs'.1.symm))
    subst heq
    exact hs (Use.eq_of_takes_of_gives htake hgive')

theorem independent (h : m.Orderly T) {s s' : Stream} {c c' : PendingCopy}
    (hc : c.Served T s) (hc' : c'.Served T s') (hs : s ≠ s') : c.Independent c' := by
  obtain ⟨h1, h2⟩ := h.ne_of_streams hc hc' hs
  obtain ⟨-, h3⟩ := h.ne_of_streams hc' hc (Ne.symm hs)
  exact ⟨⟨.of_ne h1, .of_ne (Ne.symm h3)⟩, ⟨.of_ne (Ne.symm h1), .of_ne (Ne.symm h2)⟩⟩

/-- The copies that touch storage with a stream wait on that stream. -/
theorem stream_of_touches (h : m.Orderly T) (ht : t ∈ T) {s r : Stream} {c : PendingCopy}
    (hc : m.Pending s c) (htouch : c.Touches t.block) (hu : t.use = .bound r ∨ t.use = .staged r) :
    r = s := by
  obtain ⟨d, hd, u, hu', hdst, hsrc, htake, hgive⟩ := h.served s c hc
  rcases htouch with hb | hb
  · have heq := h.eq_of_block hd ht (hdst.1.trans hb)
    subst heq
    rcases hu with hu | hu <;> rw [hu] at htake
    · exact htake
    · exact htake.1
  · have heq := h.eq_of_block hu' ht (hsrc.1.trans hb)
    subst heq
    rcases hu with hu | hu <;> rw [hu] at hgive <;> exact hgive

/-- Stored inputs are not written. -/
theorem unwritten_of_stored (h : m.Orderly T) (ht : t ∈ T) (hu : t.use = .stored) :
    m.Unwritten t.block := by
  intro s c hc hb
  obtain ⟨d, hd, u, -, hdst, -, htake, -⟩ := h.served s c hc
  have heq := h.eq_of_block hd ht (hdst.1.trans hb)
  subst heq
  rw [hu] at htake
  exact htake

/-! ## The table of device allocations -/

theorem find?_live (h : m.Orderly T) (ht : t ∈ T) (hd : t.location = .device) :
    m.live.find? (fun e => e.block == t.block) = some ⟨t.block, t.bytes, t.device⟩ := by
  have hmem : (⟨t.block, t.bytes, t.device⟩ : DeviceAllocation) ∈ m.live :=
    h.table.mem_iff.mp (List.mem_filterMap.mpr ⟨t, ht, Holding.entry?_eq_some.mpr ⟨hd, rfl⟩⟩)
  cases hf : m.live.find? (fun e => e.block == t.block) with
  | none => simpa using List.find?_eq_none.mp hf _ hmem
  | some e =>
    have hb : e.block = t.block := by simpa using List.find?_some hf
    obtain ⟨u, hu, hue⟩ :=
      List.mem_filterMap.mp (h.table.mem_iff.mpr (List.mem_of_find?_eq_some hf))
    obtain ⟨-, rfl⟩ := Holding.entry?_eq_some.mp hue
    rw [h.eq_of_block hu ht hb]

/-- A range of device storage in use passes the check of the platform. -/
theorem inDeviceAllocation (h : m.Orderly T) (ht : t ∈ T) (hd : t.location = .device)
    {p : Pointer} {n : Nat} (hs : t.Spans p n) : m.inDeviceAllocation p n = true := by
  unfold Machine.inDeviceAllocation
  rw [← hs.1, h.find?_live ht hd]
  simpa using hs.2

end Orderly

end Machine

end DeviceBatch
