import DeviceBatch.Buffer
import DeviceBatch.Proofs.Action
import DeviceBatch.Proofs.Progress

/-!
# What the operations on buffers do

One lemma for each operation: how it can end, and the effects in between. The only thing that can
go wrong with buffers of a machine that keeps them is that storage is not given out; platforms never
refuse their copies.

The result of an operation does not depend on when copies are performed. New storage is the next
block, and what is read are the bytes of the outlook.
-/

namespace DeviceBatch

/-! ## Effects of operations -/

namespace Effect

/-- A new block, unless it would be empty. -/
def allocs (bytes : Nat) : List Effect := if bytes = 0 then [] else [.alloc bytes]

/-- A copy, unless it is empty. -/
def copies (c : PendingCopy) : List Effect := if c.bytes = 0 then [] else [.copy c]

/-- Bytes are written, if there are any. -/
def writes (p : Pointer) (bytes : List UInt8) : List Effect :=
  if bytes = [] then [] else [.write p bytes]

/-- The holdings are given up. -/
def frees (T : List Holding) : List Effect := T.map fun t => .free t.block

/-- No block with a number below `n` is written or given up. -/
def KeepsBelow (n : Nat) (es : List Effect) : Prop := ∀ e ∈ es, ∀ b < n, ¬ e.Changes b

/-- Nothing happens to blocks with numbers below `n`. -/
def SparesBelow (n : Nat) (es : List Effect) : Prop :=
  ∀ e ∈ es, ∀ b < n, ¬ e.Changes b ∧ ¬ e.CopiesAt b

section SparesBelow

variable {n : Nat} {es fs : List Effect}

theorem mem_allocs {e : Effect} {bytes : Nat} :
    e ∈ allocs bytes ↔ bytes ≠ 0 ∧ e = .alloc bytes := by
  unfold allocs
  split <;> simp_all

theorem mem_copies {e : Effect} {c : PendingCopy} : e ∈ copies c ↔ c.bytes ≠ 0 ∧ e = .copy c := by
  unfold copies
  split <;> simp_all

theorem mem_writes {e : Effect} {p : Pointer} {bytes : List UInt8} :
    e ∈ writes p bytes ↔ bytes ≠ [] ∧ e = .write p bytes := by
  unfold writes
  split <;> simp_all

theorem sparesBelow_nil : SparesBelow n [] := fun _ he => absurd he List.not_mem_nil

theorem SparesBelow.append (h : SparesBelow n es) (h' : SparesBelow n fs) :
    SparesBelow n (es ++ fs) := by
  intro e he
  rcases List.mem_append.mp he with he | he
  · exact h e he
  · exact h' e he

theorem SparesBelow.keepsBelow (h : SparesBelow n es) : KeepsBelow n es :=
  fun e he b hb => (h e he b hb).1

theorem KeepsBelow.append (h : KeepsBelow n es) (h' : KeepsBelow n fs) :
    KeepsBelow n (es ++ fs) := by
  intro e he
  rcases List.mem_append.mp he with he | he
  · exact h e he
  · exact h' e he

theorem keepsBelow_nil : KeepsBelow n [] := fun _ he => absurd he List.not_mem_nil

theorem keepsBelow_wait : KeepsBelow n [.wait] := by
  intro e he b hb
  rw [List.mem_singleton.mp he]
  exact id

theorem not_maySettle_allocs {bytes : Nat} : ∀ e ∈ allocs bytes, ¬ e.MaySettle := by
  intro e he
  obtain ⟨-, rfl⟩ := mem_allocs.mp he
  exact id

theorem not_maySettle_copies {c : PendingCopy} : ∀ e ∈ copies c, ¬ e.MaySettle := by
  intro e he
  obtain ⟨-, rfl⟩ := mem_copies.mp he
  exact id

theorem keepsBelow_copies {c : PendingCopy} (h : c.bytes ≠ 0 → n ≤ c.dst.block) :
    KeepsBelow n (copies c) := by
  intro e he b hb heq
  obtain ⟨hc, rfl⟩ := mem_copies.mp he
  exact absurd (h hc) (Nat.not_le.mpr (heq ▸ hb))

theorem sparesBelow_copies {c : PendingCopy}
    (h : c.bytes ≠ 0 → n ≤ c.dst.block ∧ n ≤ c.src.block) : SparesBelow n (copies c) := by
  intro e he b hb
  obtain ⟨hc, rfl⟩ := mem_copies.mp he
  obtain ⟨hd, hs⟩ := h hc
  refine ⟨fun heq => ?_, fun htouch => ?_⟩
  · exact absurd hd (Nat.not_le.mpr (heq ▸ hb))
  · rcases htouch with rfl | rfl <;> omega

theorem SparesBelow.le {k : Nat} (h : SparesBelow n es) (hk : k ≤ n) : SparesBelow k es :=
  fun e he b hb => h e he b (Nat.lt_of_lt_of_le hb hk)

theorem sparesBelow_allocs (bytes : Nat) : SparesBelow n (allocs bytes) := by
  intro e he b hb
  obtain ⟨-, rfl⟩ := mem_allocs.mp he
  exact ⟨id, id⟩

theorem sparesBelow_writes {p : Pointer} {bytes : List UInt8} (h : bytes ≠ [] → n ≤ p.block) :
    SparesBelow n (writes p bytes) := by
  intro e he b hlt
  obtain ⟨hb, rfl⟩ := mem_writes.mp he
  exact ⟨fun heq => absurd (h hb) (Nat.not_le.mpr (heq ▸ hlt)), id⟩

theorem sparesBelow_frees {T : List Holding} (h : ∀ t ∈ T, n ≤ t.block) :
    SparesBelow n (frees T) := by
  intro e he b hlt
  obtain ⟨t, ht, rfl⟩ := List.mem_map.mp he
  exact ⟨fun heq => absurd (h t ht) (Nat.not_le.mpr (heq ▸ hlt)), id⟩

end SparesBelow

end Effect

namespace Buffer

variable {m m' : Machine} {T : List Holding} {b : Buffer}

/-! ## Buffers and holdings -/

/-- The storage that a buffer owns, with what copies may do to it. -/
def holdings (b : Buffer) (use : Use) : List Holding :=
  match b.storage with
  | .borrowed .. => []
  | .owned a => a.holdings use

/-- A buffer that owns its storage owns as many bytes as it has. -/
def Proper (b : Buffer) : Prop := ∃ a, b.storage = .owned a ∧ a.bytes = b.byteSize

/-- The buffer lies in a holding that copies on its stream may read. -/
def Readable (b : Buffer) (T : List Holding) : Prop :=
  b.byteSize ≠ 0 → ∃ t ∈ T, t.Spans b.data b.byteSize ∧ t.location = b.location ∧
    t.use.Gives b.stream

theorem Readable.mono {T' : List Holding} (h : b.Readable T) (hT : T ⊆ T') : b.Readable T' := by
  intro hb
  obtain ⟨t, ht, rest⟩ := h hb
  exact ⟨t, hT ht, rest⟩

/-- The holding of a proper buffer that is not empty. -/
theorem Proper.holdings_eq (h : b.Proper) (hb : b.byteSize ≠ 0) (use : Use) :
    ∃ a, b.storage = .owned a ∧ a.bytes = b.byteSize ∧ b.holdings use = [⟨a, use⟩] := by
  obtain ⟨a, ha, hbytes⟩ := h
  refine ⟨a, ha, hbytes, ?_⟩
  unfold holdings
  rw [ha]
  exact if_neg (by rw [hbytes]; exact hb)

theorem Proper.holdings_nil (h : b.Proper) (hb : b.byteSize = 0) (use : Use) :
    b.holdings use = [] := by
  obtain ⟨a, ha, hbytes⟩ := h
  unfold holdings
  rw [ha]
  exact if_pos (by rw [hbytes]; exact hb)

/-- The holding where the elements of a proper buffer lie. -/
theorem Proper.holding (h : b.Proper) {use : Use} (hT : b.holdings use ⊆ T) (hb : b.byteSize ≠ 0) :
    ∃ t ∈ T, t.use = use ∧ t.location = b.location ∧ t.Spans b.data b.byteSize ∧
      b.data = ⟨t.block, 0⟩ := by
  obtain ⟨a, ha, hbytes, hold⟩ := h.holdings_eq hb use
  rw [hold] at hT
  have hdata : b.data = ⟨a.block, 0⟩ := by
    unfold Buffer.data
    rw [ha]
    rfl
  refine ⟨⟨a, use⟩, hT List.mem_cons_self, rfl, ?_, ⟨?_, ?_⟩, hdata⟩
  · unfold Buffer.location
    rw [ha]
    rfl
  · rw [hdata]
    rfl
  · rw [hdata, ← hbytes]
    exact Nat.le_of_eq (Nat.zero_add _)

theorem Proper.readable (h : b.Proper) (hT : b.holdings (.bound b.stream) ⊆ T) :
    b.Readable T := by
  intro hb
  obtain ⟨t, ht, huse, hloc, hspan, -⟩ := h.holding hT hb
  refine ⟨t, ht, hspan, hloc, ?_⟩
  rw [huse]
  rfl

theorem use_of_mem_holdings {t : Holding} {use : Use} (ht : t ∈ b.holdings use) :
    t.use = use := by
  unfold holdings Allocation.holdings at ht
  split at ht
  · cases ht
  · split at ht
    · cases ht
    · rw [List.mem_singleton.mp ht]

/-- Whatever owned storage is used for, it is the same storage. -/
theorem mem_holdings {t : Holding} {use : Use} (ht : t ∈ b.holdings use) (use' : Use) :
    { t with use := use' } ∈ b.holdings use' := by
  unfold holdings Allocation.holdings at ht ⊢
  split at ht
  · cases ht
  · split at ht
    · cases ht
    · next hn =>
      rw [if_neg hn, List.mem_singleton.mp ht]
      exact List.mem_cons_self

/-! ## New buffers -/

/-- A buffer on the block of number `next`, or on no block if it is empty. -/
def fresh (next : Nat) (dtype : ElementType) (size : Nat) (location : Location) (device : Nat)
    (stream : Stream) : Buffer :=
  ⟨.owned ⟨if size * dtype.width = 0 then 0 else next, size * dtype.width, location, device⟩,
    dtype, size, device, stream⟩

section Fresh

variable (next : Nat) (dtype : ElementType) (size : Nat) (location : Location) (device : Nat)
  (stream : Stream)

theorem fresh_proper : (fresh next dtype size location device stream).Proper := ⟨_, rfl, rfl⟩

@[simp] theorem fresh_byteSize :
    (fresh next dtype size location device stream).byteSize = size * dtype.width := rfl

variable {next dtype size location device stream} in
theorem fresh_holdings (h : size * dtype.width ≠ 0) (use : Use) :
    (fresh next dtype size location device stream).holdings use =
      [⟨⟨next, size * dtype.width, location, device⟩, use⟩] := by
  unfold fresh holdings
  rw [if_neg h]
  exact if_neg h

variable {next dtype size location device stream} in
theorem fresh_data (h : size * dtype.width ≠ 0) :
    (fresh next dtype size location device stream).data = ⟨next, 0⟩ := by
  unfold fresh Buffer.data
  rw [if_neg h]
  rfl

/-- A new buffer is the next block, or there is no storage for it and nothing happens. -/
theorem allocate_cases (h : m.Keeps T) :
    (∃ e, e.IsAllocation ∧ allocate dtype size location device stream m = .error e m) ∨
    ∃ m', allocate dtype size location device stream m =
        .ok (fresh m.memory.next dtype size location device stream) m' ∧
      ∀ use, m.Progress T (Effect.allocs (size * dtype.width)) True m'
        ((fresh m.memory.next dtype size location device stream).holdings use ++ T) := by
  unfold allocate
  cases ha : Machine.acquire (size * dtype.width) location device m with
  | error e =>
    exact .inl ⟨e, Machine.acquire_eq_error ha,
      Action.bind_of_error (Action.attempt_of_error ha)⟩
  | ok p =>
    obtain ⟨a, m₁⟩ := p
    obtain ⟨rfl, hp⟩ := Machine.progress_acquire h ha
    refine .inr ⟨m₁.emit (.allocatedBuffer size dtype location device), ?_,
      fun use => (hp use).emit _⟩
    rw [Action.bind_of_ok (Action.attempt_of_ok ha), Action.change_bind]
    rfl

end Fresh

/-- Only for too many bytes there is no storage on the host. -/
theorem hostBlockLimit_le_of_allocate {dtype : ElementType} {size device : Nat} {stream : Stream}
    {e : Error} (h : allocate dtype size .host device stream m = .error e m') :
    Machine.hostBlockLimit ≤ size * dtype.width := by
  by_contra hlt
  obtain ⟨a, m₁, ha⟩ := Machine.acquire_host_of_lt (Nat.lt_of_not_le hlt) device m
  unfold allocate at h
  rw [Action.bind_of_ok (Action.attempt_of_ok ha)] at h
  cases h

theorem block_of_mem_fresh {next : Nat} {dtype : ElementType} {size : Nat} {location : Location}
    {device : Nat} {stream : Stream} {use : Use} {t : Holding}
    (ht : t ∈ (fresh next dtype size location device stream).holdings use) : t.block = next := by
  by_cases hn : size * dtype.width = 0
  · rw [(fresh_proper ..).holdings_nil hn] at ht
    cases ht
  · rw [fresh_holdings hn] at ht
    rw [List.mem_singleton.mp ht]
    rfl

/-! ## Copies -/

/-- The platform accepts a copy between storage in use. -/
theorem transfer_ok (h : m.Keeps T) (dst src : Location) {p q : Pointer} {n : Nat} {s : Stream}
    (hc : n ≠ 0 → ∃ t ∈ T, ∃ u ∈ T, t.location = dst ∧ u.location = src ∧ t.Spans p n ∧
      u.Spans q n ∧ t.use.Takes s u.use ∧ u.use.Gives s ∧
      (m.platform.defers (.between dst src) = false → t.use.IsFixed → m.Clear ⟨p, q, n⟩)) :
    ∃ m', transfer dst p src q n s m = .ok () m' ∧
      m.Progress T (Effect.copies ⟨p, q, n⟩)
        (n ≠ 0 → m.platform.defers (.between dst src) = false → m.Clear ⟨p, q, n⟩) m' T := by
  unfold transfer Effect.copies
  by_cases hn : n = 0
  · rw [if_pos hn, if_pos hn]
    exact ⟨m, rfl, (Machine.Progress.refl h).imp fun _ => trivial⟩
  · rw [if_neg hn, if_neg hn]
    obtain ⟨t, ht, u, hu, rfl, rfl, hd, hs, htake, hgive, hfix⟩ := hc hn
    obtain ⟨m', hcopy, hp⟩ := Machine.progress_copy (c := ⟨p, q, n⟩)
      (h.emit (.bufferCopy (.between t.location u.location) n s)) ht hu hd hs htake hgive hn hfix
    refine ⟨m', ?_, hp.of_emit.imp fun he => he hn⟩
    rw [Action.change_bind]
    exact Action.step_of_ok hcopy

/-- From host to host it is performed at once. -/
theorem transfer_host (m : Machine) {p q : Pointer} {n : Nat} (hn : n ≠ 0) (s : Stream) :
    transfer .host p .host q n s m = .ok () (((m.emit (.bufferCopy .hostToHost n s)).runCopies
      [⟨p, q, n⟩]).recordCopy .hostToHost n) := by
  unfold transfer
  rw [if_neg hn, Action.change_bind]
  exact Action.step_of_ok (Machine.copy_hostToHost _ hn s)

/-- Wherever from and to, a copy that is not put off is performed at once. -/
theorem transfer_eq_of_not_defers {dst src : Location} {p q : Pointer} {n : Nat} {s : Stream}
    (h : transfer dst p src q n s m = .ok () m')
    (hd : m.platform.defers (.between dst src) = false) :
    m'.memory = (m.runCopies [⟨p, q, n⟩]).memory ∧ m'.queues = m.queues := by
  unfold transfer at h
  by_cases hn : n = 0
  · subst hn
    rw [if_pos rfl] at h
    cases h
    refine ⟨?_, rfl⟩
    show m.memory = m.memory.write p (m.memory.read q 0)
    rw [show m.memory.read q 0 = [] from List.take_zero, Memory.write_nil]
  · rw [if_neg hn, Action.change_bind] at h
    unfold Action.step at h
    split at h
    · next m₁ hcopy =>
      cases h
      rw [Machine.copy_eq_of_not_defers hcopy hn hd]
      exact ⟨rfl, rfl⟩
    · cases h

/-- A new buffer lies in its holding. -/
theorem fresh_spans (next : Nat) (dtype : ElementType) (size : Nat) (location : Location)
    (device : Nat) (stream : Stream) (use : Use) (h : size * dtype.width ≠ 0) :
    ∃ t ∈ (fresh next dtype size location device stream).holdings use, t.location = location ∧
      t.use = use ∧ t.block = next ∧
      t.Spans (fresh next dtype size location device stream).data (size * dtype.width) := by
  rw [fresh_holdings h, fresh_data h]
  exact ⟨_, List.mem_cons_self, rfl, rfl, rfl, rfl, by simp [Holding.bytes]⟩

/-- The new buffer that a copy makes. -/
def copied (b : Buffer) (next : Nat) (location : Location) (device : Nat) : Buffer :=
  fresh next b.dtype b.size location device b.stream

/-- What happens to storage when a new buffer is made as a copy. -/
def copyEffects (b : Buffer) (next : Nat) (location : Location) (device : Nat) : List Effect :=
  Effect.allocs b.byteSize ++
    Effect.copies ⟨(b.copied next location device).data, b.data, b.byteSize⟩

theorem keepsBelow_copyEffects (b : Buffer) (next : Nat) (location : Location) (device : Nat) :
    Effect.KeepsBelow next (b.copyEffects next location device) := by
  refine (Effect.sparesBelow_allocs _).keepsBelow.append (Effect.keepsBelow_copies fun hn => ?_)
  exact Nat.le_of_eq (by rw [copied, fresh_data hn])

/-- The copy of a buffer is a new buffer with its bytes, or there is no storage for it. -/
theorem copyTo_cases (h : m.Keeps T) (hb : b.Readable T) (location : Location) (device : Nat) :
    (∃ e, e.IsAllocation ∧ (location = .host → Machine.hostBlockLimit ≤ b.byteSize) ∧
      b.copyTo location device m = .error e m) ∨
    ∃ m', b.copyTo location device m = .ok (b.copied m.memory.next location device) m' ∧
      m.Progress T (b.copyEffects m.memory.next location device)
        (b.byteSize ≠ 0 → m.platform.defers (.between location b.location) = false →
          m.Steady b.data b.byteSize) m'
        ((b.copied m.memory.next location device).holdings (.bound b.stream) ++ T) := by
  unfold copyTo
  rcases allocate_cases b.dtype b.size location device b.stream h with
    ⟨e, he, ha⟩ | ⟨m₁, ha, hp⟩
  · refine .inl ⟨e, he, fun hl => ?_, Action.bind_of_error ha⟩
    subst hl
    exact hostBlockLimit_le_of_allocate ha
  · right
    rw [Action.bind_of_ok ha]
    have hp₁ := hp (.bound b.stream)
    obtain ⟨m', ht, hp'⟩ := transfer_ok hp₁.keeps location b.location (s := b.stream)
      (p := (b.copied m.memory.next location device).data) (q := b.data)
      (n := b.byteSize) (fun hn => by
        obtain ⟨t, ht, hloc, huse, -, hspan⟩ := fresh_spans m.memory.next b.dtype b.size location
          device b.stream (.bound b.stream) hn
        obtain ⟨u, hu, huspan, huloc, hgive⟩ := hb hn
        refine ⟨t, List.mem_append_left _ ht, u, List.mem_append_right _ hu, hloc, huloc, hspan,
          huspan, ?_, hgive, ?_⟩
        · rw [huse]; rfl
        · rw [huse]; exact fun _ hf => hf.elim)
    refine ⟨m', ?_, (hp₁.trans hp').imp fun hs => ⟨trivial, fun hn hd => ?_⟩⟩
    · exact Action.bind_of_ok (Action.orElseTidy_of_ok ht)
    · rw [hp₁.platform] at hd
      -- Allocating puts off no copy, so what waits before the transfer waited before the whole.
      have hback : ∀ s d, m₁.Pending s d → m.Pending s d := by
        intro s d hd
        rcases hp₁.pending s d hd with hd | hd
        · exact hd
        · obtain ⟨-, heq⟩ := Effect.mem_allocs.mp hd
          cases heq
      refine Machine.Steady.clear (fun s d hd' => hs hn hd s d (hback s d hd')) ?_
      intro s d hd' htouch
      rw [copied, fresh_data hn] at htouch
      exact Machine.Orderly.untouched_of_le h (Nat.le_refl _) s d (hback s d hd') htouch

/-! ## Giving buffers back -/

/-- A buffer is given back; host storage only if no waiting copy touches it. -/
theorem release_progress {use : Use} (h : m.Keeps (b.holdings use ++ T))
    (hu : ∀ t ∈ b.holdings use, t.location = .host → m.Untouched t.block) :
    m.Progress (b.holdings use ++ T) (Effect.frees (b.holdings use)) True (b.release m) T := by
  obtain ⟨storage, dtype, size, device, stream⟩ := b
  cases storage with
  | borrowed location data => exact .refl h
  | owned a =>
    by_cases ha : a.bytes = 0
    · have hnil : holdings ⟨.owned a, dtype, size, device, stream⟩ use = [] := if_pos ha
      rw [hnil] at h ⊢
      have heq : release ⟨.owned a, dtype, size, device, stream⟩ m = m := if_pos ha
      rw [heq]
      exact .refl h
    · have hcons : holdings ⟨.owned a, dtype, size, device, stream⟩ use = [⟨a, use⟩] := if_neg ha
      rw [hcons] at h hu ⊢
      exact Machine.progress_release h (hu _ List.mem_cons_self)

/-- Several buffers are given back. -/
theorem releaseAll_progress (use : Buffer → Use) (bs : List Buffer)
    (h : m.Keeps (bs.flatMap (fun b => b.holdings (use b)) ++ T))
    (hu : ∀ t ∈ bs.flatMap (fun b => b.holdings (use b)), t.location = .host →
      m.Untouched t.block) :
    m.Progress (bs.flatMap (fun b => b.holdings (use b)) ++ T)
      (Effect.frees (bs.flatMap fun b => b.holdings (use b))) True
      (bs.foldl (fun m b => b.release m) m) T := by
  induction bs generalizing m with
  | nil => exact .refl h
  | cons b bs ih =>
    rw [List.flatMap_cons, List.append_assoc] at h
    rw [List.flatMap_cons] at hu
    have hp := release_progress h fun t ht => hu t (List.mem_append_left _ ht)
    have hrest := ih hp.keeps fun t ht hl => hp.untouched (hu t (List.mem_append_right _ ht) hl)
      fun e he => by
        obtain ⟨u, -, rfl⟩ := List.mem_map.mp he
        exact id
    rw [List.flatMap_cons, List.append_assoc, Effect.frees, List.map_append]
    exact (hp.trans hrest).imp fun _ => ⟨trivial, trivial⟩

/-- On a platform that does not defer copies, nothing stands in the way of giving storage back. -/
theorem untouched_of_not_deferred (h : m.Keeps T) (hd : m.platform.isDeferred = false) (n : Nat) :
    m.Untouched n := fun s c hc => absurd hc (h.not_pending hd s c)

/-- The source of a copy that touches a device is given back, now or when its stream is waited
for. -/
theorem retire_progress (h : m.Keeps (b.holdings (.bound b.stream) ++ T)) (hb : b.Proper)
    {kind : CopyKind} (hk : kind.touchesDevice = true) :
    m.Progress (b.holdings (.bound b.stream) ++ T)
      (Effect.frees (b.holdings (.bound b.stream))) True (b.retire kind m) T := by
  obtain ⟨a, ha, hbytes⟩ := hb
  have hdefers : m.platform.defers kind = m.platform.isDeferred := by
    rw [Platform.defers_eq, hk, Bool.and_true]
  unfold retire
  rw [hdefers]
  cases hd : m.platform.isDeferred with
  | false =>
    rw [if_neg (by simp)]
    exact release_progress h fun t _ _ => untouched_of_not_deferred h hd t.block
  | true =>
    by_cases hsize : b.size = 0
    · have hzero : b.byteSize = 0 := by simp [byteSize, hsize]
      rw [if_neg (by simp [hsize])]
      refine release_progress h fun t ht _ => ?_
      rw [Proper.holdings_nil ⟨a, ha, hbytes⟩ hzero] at ht
      cases ht
    · have hne : b.byteSize ≠ 0 := by
        have := b.dtype.width_pos
        simp only [byteSize, ne_eq, Nat.mul_eq_zero]
        omega
      obtain ⟨a', ha', -, hold⟩ := Proper.holdings_eq ⟨a, ha, hbytes⟩ hne (.bound b.stream)
      rw [if_pos (by simp; omega), ha']
      rw [hold] at h ⊢
      exact Machine.progress_retain h rfl hd

/-- A buffer is moved without doing anything, or there is no storage for it and it is given back, or
its bytes are in a new buffer. -/
theorem moveTo_cases (h : m.Keeps (b.holdings (.bound b.stream) ++ T)) (hb : b.Proper)
    (location : Location) :
    b.location = location ∧ b.moveTo location m = .ok b m ∨
    b.location ≠ location ∧ (∃ e, e.IsAllocation ∧
      b.moveTo location m = .error e (b.release m)) ∨
    b.location ≠ location ∧ ∃ m', b.moveTo location m =
        .ok (b.copied m.memory.next location b.device) m' ∧
      m.Progress (b.holdings (.bound b.stream) ++ T)
        (b.copyEffects m.memory.next location b.device ++
          Effect.frees (b.holdings (.bound b.stream))) True m'
        ((b.copied m.memory.next location b.device).holdings (.bound b.stream) ++ T) := by
  unfold moveTo
  by_cases hl : b.location = location
  · rw [if_pos hl]
    exact .inl ⟨hl, rfl⟩
  · right
    rw [if_neg hl]
    have hread : b.Readable (b.holdings (.bound b.stream) ++ T) :=
      hb.readable (List.subset_append_left _ _)
    rcases copyTo_cases h hread location b.device with ⟨e, he, -, hc⟩ | ⟨m₁, hc, hp⟩
    · exact .inl ⟨hl, e, he, Action.bind_of_error (Action.orElseTidy_of_error hc)⟩
    · refine .inr ⟨hl, b.retire (.between location b.location) m₁, ?_, ?_⟩
      · rw [Action.bind_of_ok (Action.orElseTidy_of_ok hc), Action.change_bind]
        rfl
      · have htouch : (CopyKind.between location b.location).touchesDevice = true := by
          rw [CopyKind.touchesDevice_between]
          revert hl
          cases b.location <;> cases location <;> simp [Location.isDevice]
        have hp' := hp.perm (List.perm_append_comm_assoc ..)
        refine (hp'.trans (retire_progress hp'.keeps hb htouch)).imp fun _ => ⟨?_, trivial⟩
        intro _ hd
        rw [Platform.defers_eq, htouch, Bool.and_true] at hd
        exact fun s d hp => absurd hp (h.not_pending hd s d)

/-! ## New buffers with given bytes -/

section OfBytes

variable (next : Nat) (dtype : ElementType) (size : Nat) (bytes : List UInt8)
  (location : Location) (device : Nat) (stream : Stream)

/-- The number of the next block after one was asked for. -/
def nextAfter (bytes : Nat) : Nat := if bytes = 0 then next else next + 1

/-- The host buffer that the bytes are written to first. -/
def staged : Buffer := fresh next dtype size .host device stream

/-- The buffer that is made from bytes. -/
def ofBytesResult : Buffer :=
  if location = .host then staged next dtype size device stream
  else (staged next dtype size device stream).copied (nextAfter next (size * dtype.width)) location
    device

/-- What happens to storage when a buffer is made from bytes. -/
def ofBytesEffects : List Effect :=
  Effect.allocs (size * dtype.width) ++ (Effect.writes (staged next dtype size device stream).data
    bytes ++ if location = .host then [] else
      (staged next dtype size device stream).copyEffects (nextAfter next (size * dtype.width))
        location device ++
      Effect.frees ((staged next dtype size device stream).holdings (.bound stream)))

end OfBytes

theorem ofBytesResult_proper (next : Nat) (dtype : ElementType) (size : Nat) (location : Location)
    (device : Nat) (stream : Stream) :
    (ofBytesResult next dtype size location device stream).Proper := by
  unfold ofBytesResult
  split
  · exact fresh_proper ..
  · exact fresh_proper ..

theorem block_of_mem_ofBytesResult {next : Nat} {dtype : ElementType} {size : Nat}
    {location : Location} {device : Nat} {stream : Stream} {use : Use} {t : Holding}
    (ht : t ∈ (ofBytesResult next dtype size location device stream).holdings use) :
    next ≤ t.block := by
  unfold ofBytesResult at ht
  split at ht
  · exact Nat.le_of_eq (block_of_mem_fresh ht).symm
  · have hblock : t.block = nextAfter next (size * dtype.width) := block_of_mem_fresh ht
    rw [hblock, nextAfter]
    split <;> omega

section OfBytesResult

variable (next : Nat) (dtype : ElementType) (size : Nat) (location : Location) (device : Nat)
  (stream : Stream)

@[simp] theorem ofBytesResult_stream :
    (ofBytesResult next dtype size location device stream).stream = stream := by
  unfold ofBytesResult
  split <;> rfl

@[simp] theorem ofBytesResult_dtype :
    (ofBytesResult next dtype size location device stream).dtype = dtype := by
  unfold ofBytesResult
  split <;> rfl

@[simp] theorem ofBytesResult_size :
    (ofBytesResult next dtype size location device stream).size = size := by
  unfold ofBytesResult
  split <;> rfl

end OfBytesResult

theorem next_afterAll_allocs (o : Outlook) (n : Nat) :
    (o.afterAll (Effect.allocs n)).memory.next = nextAfter o.memory.next n := by
  unfold Effect.allocs nextAfter
  split
  · rfl
  · exact Memory.next_alloc ..

theorem next_afterAll_writes (o : Outlook) (p : Pointer) (bytes : List UInt8) :
    (o.afterAll (Effect.writes p bytes)).memory.next = o.memory.next := by
  unfold Effect.writes
  split
  · rfl
  · exact Memory.next_write ..

/-- Writing into new host storage. -/
theorem storeBytes_progress (h : m.Keeps (b.holdings (.bound b.stream) ++ T)) (hb : b.Proper)
    {bytes : List UInt8} (hlen : bytes.length = b.byteSize)
    (hu : b.byteSize ≠ 0 → m.Untouched b.data.block) :
    m.Progress (b.holdings (.bound b.stream) ++ T) (Effect.writes b.data bytes) True
      (b.storeBytes 0 bytes m) (b.holdings (.bound b.stream) ++ T) := by
  have hpos : b.position 0 = b.data := by simp [position, Pointer.advance]
  unfold storeBytes Effect.writes
  rw [hpos]
  by_cases hbytes : bytes = []
  · subst hbytes
    rw [if_pos rfl, Memory.write_nil]
    exact .refl h
  · rw [if_neg hbytes]
    have hn : b.byteSize ≠ 0 := by
      rw [← hlen]
      exact fun hz => hbytes (List.length_eq_zero_iff.mp hz)
    obtain ⟨t, ht, huse, -, -, hdata⟩ :=
      hb.holding (List.Subset.refl (b.holdings (.bound b.stream))) hn
    refine (Machine.progress_write h (List.mem_append_left _ ht) (congrArg Pointer.block hdata)
      bytes fun hf => ?_).imp fun _ => (hu hn).avoided bytes.length
    rw [huse] at hf
    exact hf.elim

/-- Nothing waits to be copied from or to a block that was just given out. -/
theorem untouched_fresh (h : m.Keeps T) {T' : List Holding} {es : List Effect} {p : Prop}
    (hp : m.Progress T es p m' T') (hes : ∀ e ∈ es, ¬ e.CopiesAt m.memory.next) :
    m'.Untouched m.memory.next :=
  hp.untouched (Machine.Orderly.untouched_of_le h (Nat.le_refl _)) hes

theorem not_copiesAt_allocs {n b : Nat} : ∀ e ∈ Effect.allocs n, ¬ e.CopiesAt b := by
  intro e he
  obtain ⟨-, rfl⟩ := Effect.mem_allocs.mp he
  exact id

theorem not_copiesAt_writes {p : Pointer} {bytes : List UInt8} {b : Nat} :
    ∀ e ∈ Effect.writes p bytes, ¬ e.CopiesAt b := by
  intro e he
  obtain ⟨-, rfl⟩ := Effect.mem_writes.mp he
  exact id

/-- Given bytes are in a new buffer, or there is no storage and no trace of them is left. -/
theorem ofBytes_cases (h : m.Keeps T) {dtype : ElementType} {size : Nat} {bytes : List UInt8}
    (hlen : bytes.length = size * dtype.width) (location : Location) (device : Nat)
    (stream : Stream) :
    (∃ e m' es, e.IsAllocation ∧ ofBytes dtype size bytes location device stream m = .error e m' ∧
      m.Progress T es True m' T ∧ Effect.SparesBelow m.memory.next es) ∨
    ∃ m', ofBytes dtype size bytes location device stream m =
        .ok (ofBytesResult m.memory.next dtype size location device stream) m' ∧
      m.Progress T (ofBytesEffects m.memory.next dtype size bytes location device stream) True m'
        ((ofBytesResult m.memory.next dtype size location device stream).holdings
          (.bound stream) ++ T) := by
  unfold ofBytes
  rcases allocate_cases dtype size .host device stream h with ⟨e, he, ha⟩ | ⟨m₁, ha, hp⟩
  · exact .inl ⟨e, m, [], he, Action.bind_of_error ha, .refl h, Effect.sparesBelow_nil⟩
  · rw [Action.bind_of_ok ha, Action.change_bind]
    change (∃ e m' es, _ ∧ (staged m.memory.next dtype size device stream).moveTo location
      ((staged m.memory.next dtype size device stream).storeBytes 0 bytes m₁) = _ ∧ _) ∨
      ∃ m', (staged m.memory.next dtype size device stream).moveTo location
        ((staged m.memory.next dtype size device stream).storeBytes 0 bytes m₁) = _ ∧ _
    have hproper : (staged m.memory.next dtype size device stream).Proper := fresh_proper ..
    have hp₁ := hp (.bound stream)
    have hblock : (staged m.memory.next dtype size device stream).byteSize ≠ 0 →
        (staged m.memory.next dtype size device stream).data.block = m.memory.next := by
      intro (hn : size * dtype.width ≠ 0)
      rw [staged, fresh_data hn]
    -- The block is new, so no waiting copy touches it and the bytes can be stored at once.
    have hp₂ := storeBytes_progress (b := staged m.memory.next dtype size device stream)
      hp₁.keeps hproper hlen fun hn => by
        rw [hblock hn]
        exact untouched_fresh h hp₁ not_copiesAt_allocs
    have hnext : ((staged m.memory.next dtype size device stream).storeBytes 0 bytes
        m₁).memory.next = nextAfter m.memory.next (size * dtype.width) := by
      show (m₁.memory.write _ _).next = _
      rw [Memory.next_write, hp₁.next_eq trivial, next_afterAll_allocs, Machine.next_outlook]
    have hp₁₂ := hp₁.trans hp₂
    rcases moveTo_cases hp₂.keeps hproper location with
      ⟨hl, hm⟩ | ⟨hl, e, he, hm⟩ | ⟨hl, m', hm, hp₃⟩
    · right
      have hl' : location = .host := hl.symm
      refine ⟨(staged m.memory.next dtype size device stream).storeBytes 0 bytes m₁, ?_, ?_⟩
      · rw [hm, ofBytesResult, if_pos hl']
      · rw [ofBytesResult, ofBytesEffects, if_pos hl', if_pos hl', List.append_nil]
        exact hp₁₂.imp fun _ => ⟨trivial, trivial⟩
    · left
      have hold : ∀ t ∈ (staged m.memory.next dtype size device stream).holdings (.bound stream),
          t.block = m.memory.next := fun t ht => block_of_mem_fresh ht
      -- The device has no room, so the host buffer is given back.
      have hdrop := release_progress hp₂.keeps fun t ht _ => by
        rw [hold t ht]
        refine untouched_fresh h hp₁₂ fun e he => ?_
        rcases List.mem_append.mp he with he | he
        · exact not_copiesAt_allocs e he
        · exact not_copiesAt_writes e he
      refine ⟨e, _, _, he, hm, (hp₁₂.trans hdrop).imp fun _ => ⟨⟨trivial, trivial⟩, trivial⟩,
        .append (.append (Effect.sparesBelow_allocs _) (Effect.sparesBelow_writes fun hb => ?_))
          (Effect.sparesBelow_frees fun t ht => Nat.le_of_eq (hold t ht).symm)⟩
      refine Nat.le_of_eq (hblock fun hz => hb ?_).symm
      exact List.length_eq_zero_iff.mp (hlen.trans hz)
    · right
      have hl' : location ≠ .host := Ne.symm hl
      rw [hnext] at hm hp₃
      refine ⟨m', ?_, ?_⟩
      · rw [hm, ofBytesResult, if_neg hl']
        rfl
      · rw [ofBytesResult, ofBytesEffects, if_neg hl', if_neg hl', ← List.append_assoc]
        exact (hp₁₂.trans hp₃).imp fun _ => ⟨⟨trivial, trivial⟩, trivial⟩

theorem sparesBelow_ofBytesEffects (next : Nat) (dtype : ElementType) (size : Nat)
    {bytes : List UInt8} (hlen : bytes.length = size * dtype.width) (location : Location)
    (device : Nat) (stream : Stream) :
    Effect.SparesBelow next (ofBytesEffects next dtype size bytes location device stream) := by
  have hstaged : size * dtype.width ≠ 0 →
      (staged next dtype size device stream).data.block = next := fun hn => by
    rw [staged, fresh_data hn]
  have hnext : next ≤ nextAfter next (size * dtype.width) := by
    unfold nextAfter
    split <;> omega
  refine (Effect.sparesBelow_allocs _).append (.append ?_ ?_)
  · refine Effect.sparesBelow_writes fun hb => Nat.le_of_eq (hstaged fun hz => hb ?_).symm
    exact List.length_eq_zero_iff.mp (hlen.trans hz)
  · split
    · exact Effect.sparesBelow_nil
    · refine .append ((Effect.sparesBelow_allocs _).append (Effect.sparesBelow_copies fun hn => ?_))
        (Effect.sparesBelow_frees fun t ht => Nat.le_of_eq (block_of_mem_fresh ht).symm)
      refine ⟨?_, Nat.le_of_eq (hstaged hn).symm⟩
      rw [copied, fresh_data hn]
      exact hnext

end Buffer

end DeviceBatch
