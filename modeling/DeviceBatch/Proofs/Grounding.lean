import DeviceBatch.Proofs.Returns
import DeviceBatch.Proofs.Sessions

/-!
# Blocks that were given out

A block keeps its number for good, so whatever is known at some moment names blocks with numbers
below the next one, and so do the copies that wait (`Machine.Grounded`). Whatever is done to
buffers, tensors, requests, batches and responses keeps it that way, and numbers only grow
(`Machine.Grows`): no copy that waits writes what is asked for later.

On the way it is kept in mind that a buffer that owns storage has as much as its elements take, and
that a stored input has the bytes of its elements. So the storage that a stream keeps alive is never
empty, and nothing else is kept alive but what somebody asked for by name.
-/

namespace DeviceBatch

open Local

/-- What holds of all queues holds of them after one was changed. -/
theorem Queues.forall_update {P : StreamQueue → Prop} {qs : Queues} {f : StreamQueue → StreamQueue}
    (h : ∀ p ∈ qs, P p.2) (hempty : P {}) (hf : ∀ q, P q → P (f q)) (s : Stream) :
    ∀ p ∈ Queues.update s f qs, P p.2 := by
  induction qs with
  | nil =>
    intro p hp
    rw [List.mem_singleton.mp hp]
    exact hf {} hempty
  | cons first rest ih =>
    obtain ⟨t, q⟩ := first
    rw [List.forall_mem_cons] at h
    unfold Queues.update
    split
    · exact List.forall_mem_cons.mpr ⟨hf q h.1, h.2⟩
    · exact List.forall_mem_cons.mpr ⟨h.1, ih h.2⟩

/-- What holds of all things in a list holds of them after one was changed. -/
theorem forall_mem_modify {α : Type} {P : α → Prop} {f : α → α} {as : List α} {i : Nat}
    (h : ∀ a ∈ as, P a) (hf : ∀ a, P a → P (f a)) : ∀ a ∈ as.modify i f, P a := by
  intro a ha
  obtain ⟨k, hk, rfl⟩ := List.getElem_of_mem ha
  rw [List.getElem_modify]
  split
  · exact hf _ (h _ (List.getElem_mem _))
  · exact h _ (List.getElem_mem _)

/-! ## Machines -/

namespace Machine

variable {m m' m'' : Machine} {c : PendingCopy}

/-- Both sides of the copy lie in blocks that were given out. -/
def Knows (m : Machine) (c : PendingCopy) : Prop :=
  c.dst.block < m.memory.next ∧ c.src.block < m.memory.next

/-- Some stream keeps the guard. -/
def Retains (m : Machine) (g : Guard) : Prop := ∃ p ∈ m.queues, g ∈ p.2.guards

/-- The copies that wait lie in blocks that were given out, and the storage that streams keep alive
is not empty. -/
structure Grounded (m : Machine) : Prop where
  positive : 0 < m.memory.next
  waiting : ∀ p ∈ m.queues, ∀ c ∈ p.2.copies, m.Knows c
  guards : ∀ a, m.Retains (.storage a) → a.bytes ≠ 0
  /-- The bytes in use are counted for each device. -/
  devices : m.used.length = m.platform.deviceCount

/-- `m'` comes after `m`, and no reference of the caller has been added. -/
structure Grows (m m' : Machine) : Prop where
  grounded : m'.Grounded
  next : m.memory.next ≤ m'.memory.next
  tokens : ∀ name, m'.Retains (.token name) → m.Retains (.token name)

theorem grounded_start (platform : Platform) : (start platform).Grounded where
  positive := Nat.one_pos
  waiting := fun _ hp => absurd hp List.not_mem_nil
  guards := fun _ ⟨_, hp, _⟩ => absurd hp List.not_mem_nil
  devices := List.length_replicate

namespace Grows

theorem refl (h : m.Grounded) : m.Grows m := ⟨h, Nat.le_refl _, fun _ hname => hname⟩

theorem trans (h : m.Grows m') (h' : m'.Grows m'') : m.Grows m'' :=
  ⟨h'.grounded, Nat.le_trans h.next h'.next, fun name hname => h.tokens name (h'.tokens name hname)⟩

/-- Nothing new is known, and nothing new waits or is kept. -/
theorem of_subset (h : m.Grounded) (hplatform : m'.platform = m.platform)
    (hnext : m'.memory.next = m.memory.next) (hused : m'.used.length = m.used.length)
    (hqueues : m'.queues ⊆ m.queues) : m.Grows m' := by
  have hretains : ∀ {g}, m'.Retains g → m.Retains g := fun ⟨p, hp, hg⟩ => ⟨p, hqueues hp, hg⟩
  refine ⟨⟨hnext ▸ h.positive, fun p hp c hc => ?_, fun a ha => h.guards a (hretains ha), ?_⟩,
    Nat.le_of_eq hnext.symm, fun _ => hretains⟩
  · unfold Knows
    rw [hnext]
    exact h.waiting p (hqueues hp) c hc
  · rw [hused, hplatform]
    exact h.devices

/-- So it is when storage is given back. -/
theorem of_returns {X : Multiset Allocation} (h : m.Grounded) (hreturns : m.Returns X m')
    (hqueues : m'.queues ⊆ m.queues) : m.Grows m' :=
  .of_subset h hreturns.platform hreturns.next hreturns.devices hqueues

/-- What is counted and reported does not matter. -/
theorem of_eq (h : m.Grows m') (hplatform : m''.platform = m'.platform)
    (hnext : m''.memory.next = m'.memory.next) (hused : m''.used = m'.used)
    (hqueues : m''.queues = m'.queues) : m.Grows m'' :=
  h.trans (.of_subset h.grounded hplatform hnext (congrArg _ hused) (hqueues ▸ List.Subset.refl _))

theorem emit (h : m.Grows m') (e : Event) : m.Grows (m'.emit e) := h.of_eq rfl rfl rfl rfl

theorem foldl {β : Type} {f : Machine → β → Machine}
    (hf : ∀ (m : Machine) b, m.Grounded → m.Grows (f m b)) (h : m.Grounded) (bs : List β) :
    m.Grows (bs.foldl f m) := by
  induction bs generalizing m with
  | nil => exact .refl h
  | cons b bs ih => exact (hf m b h).trans (ih (hf m b h).grounded)

end Grows

/-! A queue gets a guard or a copy. -/

theorem retains_update {s : Stream} {g g' : Guard}
    (h : Retains
      { m with queues := Queues.update s (fun q => { q with guards := q.guards ++ [g'] }) m.queues }
      g) : m.Retains g ∨ g = g' := by
  obtain ⟨p, hp, hg⟩ := h
  refine Queues.forall_update (P := fun q => ∀ g ∈ q.guards, m.Retains g ∨ g = g')
    (f := fun q => { q with guards := q.guards ++ [g'] })
    (fun p hp g hg => .inl ⟨p, hp, hg⟩) nofun (fun q hq g hg => ?_) s p hp g hg
  rcases List.mem_append.mp hg with hg | hg
  · exact hq g hg
  · exact .inr (List.mem_singleton.mp hg)

theorem retains_enqueue {s : Stream} {g : Guard} (h : (m.enqueue s c).Retains g) :
    m.Retains g := by
  obtain ⟨p, hp, hg⟩ := h
  exact Queues.forall_update (P := fun q => ∀ g ∈ q.guards, m.Retains g)
    (f := fun q => { q with copies := q.copies ++ [c] })
    (fun p hp g hg => ⟨p, hp, hg⟩) nofun (fun _ hq => hq) s p hp g hg

namespace Grounded

theorem write (h : m.Grounded) (p : Pointer) (bytes : List UInt8) :
    m.Grows { m with memory := m.memory.write p bytes } :=
  .of_subset h rfl (Memory.next_write ..) rfl (List.Subset.refl _)

theorem release (h : m.Grounded) (a : Allocation) : m.Grows (m.release a) :=
  .of_returns h (returns_release m a) (queues_dropGuard m (.storage a))

theorem synchronize (h : m.Grounded) (s : Stream) : m.Grows (m.synchronize s) :=
  (Grows.of_returns h (returns_drain m s)
    (List.Subset.trans (queues_drain m s) (List.filter_subset_self _))).of_eq rfl rfl rfl rfl

theorem deallocate (h : m.Grounded) (a : Allocation) :
    (Machine.deallocate a).Leaves m (fun _ m' => m.Grows m') (m.Grows ·) := by
  have hsettled : m.Grows (m.settleFor a.location) := by
    cases a.location with
    | host => exact .refl h
    | device =>
      exact .of_returns h (returns_drainAll m) (by
        rw [show (m.settleFor .device).queues = [] from queues_drainAll m]
        exact List.nil_subset _)
  unfold Action.Leaves Machine.deallocate
  dsimp only
  cases hr : (m.settleFor a.location).reclaim a with
  | error e => exact hsettled
  | ok m' =>
    refine hsettled.trans (.of_returns hsettled.grounded (returns_reclaim hr) ?_)
    have hsame := reclaim_withQueues (m.settleFor a.location) (m.settleFor a.location).queues a
    rw [hr] at hsame
    rw [congrArg queues (Except.ok.inj hsame)]
    exact List.Subset.refl _

theorem retain (h : m.Grounded) (s : Stream) {a : Allocation} (ha : a.bytes ≠ 0) :
    m.Grows (m.retain s (.storage a)) := by
  unfold Machine.retain
  split
  · exact h.release a
  · refine ⟨⟨h.positive, Queues.forall_update (P := fun q => ∀ c ∈ q.copies, m.Knows c)
      (f := fun q => { q with guards := q.guards ++ _ }) h.waiting nofun (fun _ hq => hq) s,
      fun a' ha' => ?_, h.devices⟩, Nat.le_refl _, fun name hname => ?_⟩
    · rcases retains_update ha' with ha' | heq
      · exact h.guards a' ha'
      · cases heq
        exact ha
    · rcases retains_update hname with hname | heq
      · exact hname
      · cases heq

/-- A reference of the caller is kept as well, and nothing else. -/
theorem retain_token (h : m.Grounded) (s : Stream) (token : String) :
    (m.retain s (.token token)).Grounded ∧
      (m.retain s (.token token)).memory = m.memory ∧
      ∀ name, (m.retain s (.token token)).Retains (.token name) →
        m.Retains (.token name) ∨ name = token := by
  unfold Machine.retain
  split
  · exact ⟨h, rfl, fun _ => .inl⟩
  · refine ⟨⟨h.positive, Queues.forall_update (P := fun q => ∀ c ∈ q.copies, m.Knows c)
      (f := fun q => { q with guards := q.guards ++ _ }) h.waiting nofun (fun _ hq => hq) s,
      fun a ha => ?_, h.devices⟩, rfl, fun name hname => ?_⟩
    · rcases retains_update ha with ha | heq
      · exact h.guards a ha
      · cases heq
    · rcases retains_update hname with hname | heq
      · exact .inl hname
      · cases heq
        exact .inr rfl

/-- A copy that is asked for may wait. -/
theorem copy (h : m.Grounded) {kind : CopyKind} {dst src : Pointer} {bytes : Nat} {s : Stream}
    (hknown : m.Knows ⟨dst, src, bytes⟩) (hc : Machine.copy kind dst src bytes s m = .ok m') :
    m.Grows m' := by
  have hran : m.Grows (m.runCopies [⟨dst, src, bytes⟩]) :=
    .of_subset h rfl (Memory.next_run ..) rfl (List.Subset.refl _)
  have hwaits : ∀ q : StreamQueue, (∀ c ∈ q.copies, m.Knows c) →
      ∀ c ∈ q.copies ++ [⟨dst, src, bytes⟩], m.Knows c := fun q hq =>
    List.forall_mem_append.mpr ⟨hq, List.forall_mem_singleton.mpr hknown⟩
  have hretains : ∀ {g}, (m.enqueue s ⟨dst, src, bytes⟩).Retains g → m.Retains g :=
    retains_enqueue
  have hqueued : m.Grows (m.enqueue s ⟨dst, src, bytes⟩) :=
    ⟨⟨h.positive, Queues.forall_update (P := fun q => ∀ c ∈ q.copies, m.Knows c) h.waiting nofun
      hwaits s, fun a ha => h.guards a (hretains ha), h.devices⟩, Nat.le_refl _, fun _ => hretains⟩
  unfold Machine.copy at hc
  split at hc
  · split at hc
    · cases hc
    · cases hc
      exact hran.of_eq rfl rfl rfl rfl
  · split at hc
    · cases hc
      exact .refl h
    · split at hc
      · cases hc
      · split at hc
        · cases hc
        · split at hc
          · cases hc
            exact hqueued.of_eq rfl rfl rfl rfl
          · cases hc
            exact hran.of_eq rfl rfl rfl rfl

/-- The next block is given out. -/
theorem allocated (h : m.Grounded) {bytes device : Nat} {location : Location}
    (hgiven : m.Allocated bytes location device m') :
    m.Grows m' ∧ m.memory.next < m'.memory.next := by
  have hnext : m'.memory.next = m.memory.next + 1 := by
    rw [hgiven.memory]
    exact Memory.next_alloc ..
  have hretains : ∀ {g}, m'.Retains g → m.Retains g := by
    intro g hg
    unfold Retains at hg
    rwa [hgiven.queues] at hg
  refine ⟨⟨⟨by omega, fun p hp c hc => ?_, fun a ha => h.guards a (hretains ha), ?_⟩, by omega,
    fun _ => hretains⟩, by omega⟩
  · rw [hgiven.queues] at hp
    have hknown := h.waiting p hp c hc
    unfold Knows at hknown ⊢
    omega
  · rw [hgiven.platform, ← h.devices]
    rcases hgiven.table with ⟨-, -, hused⟩ | ⟨-, used, -, -, hused⟩
    · rw [hused]
    · rw [hused, List.length_set]

theorem allocate (h : m.Grounded) {bytes device block : Nat} {location : Location}
    (ha : m.allocate bytes location device = .ok (block, m')) :
    m.Grows m' ∧ block < m'.memory.next := by
  obtain ⟨-, rfl, hgiven⟩ := allocate_eq_ok ha
  exact h.allocated hgiven

theorem acquire (h : m.Grounded) {bytes device : Nat} {location : Location} {a : Allocation}
    (ha : Machine.acquire bytes location device m = .ok (a, m')) :
    m.Grows m' ∧ a.block < m'.memory.next ∧ a.bytes = bytes := by
  rcases acquire_eq_ok ha with ⟨rfl, rfl, rfl⟩ | ⟨-, rfl, hgiven⟩
  · exact ⟨.refl h, h.positive, rfl⟩
  · exact ⟨(h.allocated hgiven).1, (h.allocated hgiven).2, rfl⟩

end Grounded

end Machine

variable {m m' : Machine} {n k : Nat} {location : Location} {device : Nat} {stream : Stream}

/-! ## Buffers -/

namespace Buffer

variable {b src dst : Buffer} {dtype : ElementType}

/-- The buffer lies in a block with a number below `n`, and what it owns is as much as its elements
take. -/
structure Grounded (b : Buffer) (n : Nat) : Prop where
  block : b.data.block < n
  fits : ∀ a, b.storage = .owned a → a.bytes = b.byteSize

theorem Grounded.mono (h : b.Grounded n) (hn : n ≤ k) : b.Grounded k :=
  ⟨Nat.lt_of_lt_of_le h.block hn, h.fits⟩

/-- Another stream makes no difference. -/
theorem Grounded.withStream (h : b.Grounded n) (stream : Stream) :
    ({ b with stream } : Buffer).Grounded n := ⟨h.block, h.fits⟩

/-- A new buffer with that many elements of that type, all of which are its own. -/
structure Made (b : Buffer) (dtype : ElementType) (size n : Nat) : Prop extends b.Grounded n where
  owned : b.storage.isOwned = true
  dtype_eq : b.dtype = dtype
  size_eq : b.size = size

theorem Made.mono {size : Nat} (h : b.Made dtype size n) (hn : n ≤ k) : b.Made dtype size k :=
  { h with toGrounded := h.toGrounded.mono hn }

theorem Made.withStream {size : Nat} (h : b.Made dtype size n) (stream : Stream) :
    ({ b with stream } : Buffer).Made dtype size n :=
  { h with toGrounded := h.toGrounded.withStream stream }

theorem grounded_borrow (dtype : ElementType) (location : Location) {data : Pointer}
    (h : data.block < n) (size device : Nat) (stream : Stream) :
    (borrow dtype location data size device stream).Grounded n := ⟨h, nofun⟩

theorem grows_release (h : m.Grounded) (b : Buffer) : m.Grows (b.release m) := by
  unfold release
  split
  · exact .refl h
  · exact h.release _

theorem grows_allocate (h : m.Grounded) (dtype : ElementType) (size : Nat) (location : Location)
    (device : Nat) (stream : Stream) :
    (allocate dtype size location device stream).Leaves m
      (fun b m' => m.Grows m' ∧ b.Made dtype size m'.memory.next) (m.Grows ·) := by
  refine .bind (P := fun a m' => m.Grows m' ∧ a.block < m'.memory.next ∧
    a.bytes = size * dtype.width) (.attempt (fun _ _ ha => h.acquire ha) (.refl h))
    fun a m' h' => .change_bind (.pure ⟨h'.1.emit _, ⟨h'.2.1, fun a' ha' => ?_⟩, rfl, rfl, rfl⟩)
  cases ha'
  exact h'.2.2

theorem grows_transfer (h : m.Grounded) (dst src : Location) {p q : Pointer}
    (hp : p.block < m.memory.next) (hq : q.block < m.memory.next) (bytes : Nat) (stream : Stream) :
    (transfer dst p src q bytes stream).Leaves m (fun _ m' => m.Grows m') (m.Grows ·) := by
  have hsaid := (Machine.Grows.refl h).emit (.bufferCopy (.between dst src) bytes stream)
  unfold transfer
  split
  · exact .pure (.refl h)
  · exact .change_bind (.step (fun _ hc => hsaid.trans (hsaid.grounded.copy ⟨hp, hq⟩ hc)) hsaid)

theorem grows_copyTo (h : m.Grounded) (hb : b.Grounded m.memory.next) (location : Location)
    (device : Nat) :
    (b.copyTo location device).Leaves m
      (fun c m' => m.Grows m' ∧ c.Made b.dtype b.size m'.memory.next) (m.Grows ·) := by
  refine .bind (grows_allocate h ..) fun c m' hc => ?_
  have hmoved := grows_transfer hc.1.grounded location b.location hc.2.block
    (hb.mono hc.1.next).block b.byteSize b.stream
  refine .bind (.orElseTidy hmoved fun m'' h'' =>
    (hc.1.trans h'').trans (grows_release h''.grounded c)) fun _ m'' h'' => .pure ?_
  exact ⟨hc.1.trans h'', hc.2.mono h''.next⟩

theorem grows_retire (h : m.Grounded) (hb : b.Grounded n) (kind : CopyKind) :
    m.Grows (b.retire kind m) := by
  unfold retire
  split
  · next hwaits =>
    rw [Bool.and_eq_true, decide_eq_true_eq] at hwaits
    split
    · exact .refl h
    · next a ha =>
      refine h.retain _ ?_
      rw [hb.fits a ha]
      exact Nat.mul_ne_zero (Nat.ne_of_gt hwaits.1) (Nat.ne_of_gt b.dtype.width_pos)
  · exact grows_release h b

/-- A buffer that is moved is the same, or a new one with as many elements. -/
theorem grows_moveTo (h : m.Grounded) (hb : b.Grounded m.memory.next) (location : Location) :
    (b.moveTo location).Leaves m
      (fun c m' => m.Grows m' ∧ (c = b ∨ c.Made b.dtype b.size m'.memory.next)) (m.Grows ·) := by
  unfold moveTo
  split
  · exact .pure ⟨.refl h, .inl rfl⟩
  · refine .bind (.orElseTidy (grows_copyTo h hb location b.device) fun m' h' =>
      h'.trans (grows_release h'.grounded b)) fun c m' hc => .change_bind (.pure ?_)
    have hretired := grows_retire hc.1.grounded hb (.between location b.location)
    exact ⟨hc.1.trans hretired, .inr (hc.2.mono hretired.next)⟩

theorem grows_ofBytes (h : m.Grounded) (dtype : ElementType) (size : Nat) (bytes : List UInt8)
    (location : Location) (device : Nat) (stream : Stream) :
    (ofBytes dtype size bytes location device stream).Leaves m
      (fun b m' => m.Grows m' ∧ b.Made dtype size m'.memory.next) (m.Grows ·) := by
  refine .bind (grows_allocate h ..) fun staged m' hs => .change_bind ?_
  have hwritten := hs.1.grounded.write (staged.position 0) bytes
  have hstaged := hs.2.mono hwritten.next
  refine (grows_moveTo hwritten.grounded hstaged.toGrounded location).mono
    (fun c m'' hc => ⟨(hs.1.trans hwritten).trans hc.1, ?_⟩)
    fun _ hm => (hs.1.trans hwritten).trans hm
  rcases hc.2 with rfl | hc'
  · exact hstaged.mono hc.1.next
  · rwa [hs.2.dtype_eq, hs.2.size_eq] at hc'

theorem grows_fetchBytes (h : m.Grounded) (hb : b.Grounded m.memory.next) :
    b.fetchBytes.Leaves m (fun _ m' => m.Grows m') (m.Grows ·) := by
  unfold fetchBytes
  split
  · exact .change_bind (.get_bind (.pure (h.synchronize _)))
  · refine .bind (grows_copyTo h hb ..) fun host m' hh => ?_
    have hwaited := hh.1.trans (hh.1.grounded.synchronize b.stream)
    exact .change_bind (.get_bind (.change_bind (.pure
      (hwaited.trans (grows_release hwaited.grounded host)))))

theorem grows_rebind (h : m.Grounded) (b : Buffer) (stream : Stream) :
    m.Grows (b.rebind stream m).2 :=
  have hsaid := (Machine.Grows.refl h).emit (.reboundStream b.stream stream)
  hsaid.trans (hsaid.grounded.synchronize b.stream)

/-- The machine has grown, and the other part is the buffer, perhaps bound to another stream. -/
def Rebound (m : Machine) (b : Buffer) (p : Machine × Buffer) : Prop :=
  m.Grows p.1 ∧ p.2 = { b with stream := p.2.stream }

theorem Rebound.grounded {p : Machine × Buffer} (h : b.Rebound m p) (hb : b.Grounded n) :
    p.2.Grounded n := by
  rw [h.2]
  exact hb.withStream _

/-- A copy into a buffer may bind it to another stream, and nothing else comes of it. -/
theorem rebound_copyRange (h : m.Grounded) (hsrc : src.Grounded m.memory.next)
    (hdst : dst.Grounded m.memory.next) (i j k : Nat) :
    (src.copyRange i j k).Leaves (m, dst) (fun _ => dst.Rebound m) (dst.Rebound m) := by
  have hjoined : m.Grows (joined dst src m) := by
    unfold joined
    split
    · exact .refl h
    · exact grows_rebind h dst src.stream
  have htransfer := grows_transfer hjoined.grounded dst.location src.location
    (p := dst.position i) (q := src.position j) (hdst.mono hjoined.next).block
    (hsrc.mono hjoined.next).block ((k - j) * src.dtype.width) src.stream
  have hissued : Action.Leaves (Action.onFirst (transfer dst.location (dst.position i) src.location
      (src.position j) ((k - j) * src.dtype.width) src.stream))
      (joined dst src m, { dst with stream := src.stream }) (fun _ => dst.Rebound m)
      (dst.Rebound m) :=
    .onFirst (htransfer.mono (fun _ _ h' => ⟨hjoined.trans h', rfl⟩)
      fun _ h' => ⟨hjoined.trans h', rfl⟩)
  unfold Action.Leaves at hissued ⊢
  cases hin : inRange dst src i j k with
  | false =>
    rw [copyRange_of_not_inRange m hin]
    exact ⟨.refl h, rfl⟩
  | true =>
    rw [copyRange_of_inRange m hin]
    exact hissued

end Buffer

/-! ## Tensors -/

namespace Tensor

theorem grows_adopt {b : Buffer} (h : m.Grounded) (hb : b.Grounded m.memory.next) (shape : Shape) :
    (adopt shape b).Leaves m (fun t m' => m.Grows m' ∧ t.buffer.Grounded m'.memory.next)
      (m.Grows ·) :=
  .orElseTidy (.ofExcept (fun _ ht => ⟨.refl h, by rwa [buffer_of_ofBuffer ht]⟩)
    (Machine.Grows.refl h)) fun _ h' => h'.trans (Buffer.grows_release h'.grounded b)

theorem grows_allocate (h : m.Grounded) (dtype : ElementType) (shape : Shape)
    (location : Location) (device : Nat) (stream : Stream) :
    (allocate dtype shape location device stream).Leaves m
      (fun t m' => m.Grows m' ∧ t.buffer.Grounded m'.memory.next) (m.Grows ·) := by
  unfold allocate
  cases shape.product? with
  | none => exact .throw (.refl h)
  | some count =>
    refine .bind (Buffer.grows_allocate h ..) fun b m' hb => ?_
    exact (grows_adopt hb.1.grounded hb.2.toGrounded shape).mono
      (fun _ _ ht => ⟨hb.1.trans ht.1, ht.2⟩) fun _ h' => hb.1.trans h'

end Tensor

/-! ## Requests -/

namespace Local

/-- An input as it was stored, in a block with a number below `n`: it owns the bytes of elements of
some type, as many as its shape says. -/
structure StoredInput.Grounded (i : StoredInput) (n : Nat) : Prop where
  data : i.data.Grounded n
  owned : i.data.storage.isOwned = true
  bytes : i.data.dtype = .uint8
  typed : ∃ (dtype : ElementType) (count : Nat),
    i.shape.product? = some count ∧ i.data.size = count * dtype.width

/-- What is stored has as many elements as bytes. -/
theorem StoredInput.Grounded.byteSize {i : StoredInput} (h : i.Grounded n) :
    i.data.byteSize = i.data.size := by
  rw [Buffer.byteSize, h.bytes]
  exact Nat.mul_one _

def Request.Grounded (r : Request) (n : Nat) : Prop := ∀ i ∈ r.inputs, i.Grounded n

theorem Request.Grounded.mono {r : Request} (h : r.Grounded n) (hn : n ≤ k) : r.Grounded k :=
  fun i hi => { h i hi with data := (h i hi).data.mono hn }

namespace Request

variable {r : Request}

theorem grows_release (h : m.Grounded) (r : Request) : m.Grows (r.release m) :=
  .foldl (fun _ i hm => Buffer.grows_release hm i.data) h r.inputs

/-- What is added to a request is an input as it should be stored. -/
theorem grows_addInput (h : m.Grounded) (hr : r.Grounded m.memory.next) (name : String)
    (dtype : ElementType) (shape : Shape) (xs : List dtype.Value) (location : Location)
    (device : Nat) :
    (r.addInput name dtype shape xs location device).Leaves m
      (fun r' m' => m.Grows m' ∧ r'.Grounded m'.memory.next) (m.Grows ·) := by
  refine .orElseTidy ?_ fun m' (h' : m.Grows m') => h'.trans (grows_release h'.grounded r)
  by_cases hcount : shape.product? = some xs.length
  · rw [if_neg (not_not.mpr hcount)]
    refine .bind (Buffer.grows_ofBytes h ..) fun data m' hd => .change_bind (.pure ?_)
    have hwaited := hd.1.trans (hd.1.grounded.synchronize data.stream)
    refine ⟨hwaited, List.forall_mem_append.mpr ⟨hr.mono hwaited.next,
      List.forall_mem_singleton.mpr ?_⟩⟩
    have hdata := hd.2.mono (hd.1.grounded.synchronize data.stream).next
    exact ⟨hdata.toGrounded, hdata.owned, hdata.dtype_eq, dtype, xs.length, hcount,
      hdata.size_eq.trans (dtype.length_encode xs)⟩
  · rw [if_pos hcount]
    exact .throw (.refl h)

/-- A request that is made stores all its inputs as they should be. -/
theorem grows_storeInputs (h : m.Grounded) (hr : r.Grounded m.memory.next)
    (specs : List InputSpec) :
    (BatchCommand.storeInputs r specs).Leaves m
      (fun r' m' => m.Grows m' ∧ r'.Grounded m'.memory.next) (m.Grows ·) := by
  induction specs generalizing r m with
  | nil => exact .pure ⟨.refl h, hr⟩
  | cons i rest ih =>
    refine .bind (grows_addInput h hr ..) fun r' m' hr' => ?_
    exact (ih hr'.1.grounded hr'.2).mono (fun _ _ hq => ⟨hr'.1.trans hq.1, hq.2⟩)
      fun _ hq => hr'.1.trans hq

/-- Asking for outputs changes nothing of what is stored. -/
theorem Grounded.addOutputs (h : r.Grounded n) (wanted : List WantedOutput) :
    (wanted.foldl (fun r o => r.addOutput o.name o.location o.device) r).Grounded n := by
  unfold Grounded
  rw [Session.inputs_foldl_addOutput]
  exact h

end Request

/-! ## Responses -/

def Response.Grounded (r : Response) (n : Nat) : Prop := ∀ o ∈ r.outputs, o.data.Grounded n

theorem Response.Grounded.mono {r : Response} (h : r.Grounded n) (hn : n ≤ k) : r.Grounded k :=
  fun o ho => (h o ho).mono hn

namespace Response

variable {r : Response}

theorem grows_release (h : m.Grounded) (r : Response) : m.Grows (r.release m) :=
  .foldl (fun _ o hm => Buffer.grows_release hm o.data) h r.outputs

theorem grows_toList (h : m.Grounded) {o : DeliveredOutput} (ho : o.data.Grounded m.memory.next)
    (dtype : ElementType) :
    (o.toList dtype).Leaves m (fun _ m' => m.Grows m') (m.Grows ·) := by
  unfold DeliveredOutput.toList
  split
  · exact .throw (.refl h)
  · exact .bind (Buffer.grows_fetchBytes h ho) fun _ _ h' => .pure h'

end Response

/-! ## Gathering -/

def Gather.Grounded (g : Gather) (n : Nat) : Prop := ∀ b ∈ g.staging, b.Grounded n

namespace Gather

variable {g : Gather} {parts : List StoredInput}

theorem rebound_fillFrom {b : Buffer} (hb : b.Grounded m.memory.next)
    (hparts : ∀ part ∈ parts, part.data.Grounded m.memory.next) {p : Machine × Buffer}
    (h : b.Rebound m p) (offset : Nat) :
    (fillFrom stream offset parts).Leaves p (fun _ => b.Rebound m) (b.Rebound m) := by
  induction parts generalizing p offset with
  | nil => exact .pure h
  | cons part rest ih =>
    rw [List.forall_mem_cons] at hparts
    have hsource : Buffer.Grounded { part.data with
        storage := .borrowed part.data.location part.data.data, stream } p.1.memory.next :=
      ⟨(hparts.1.mono h.1.next).block, nofun⟩
    have hnext : ∀ {q : Machine × Buffer}, p.2.Rebound p.1 q → b.Rebound m q := fun hq =>
      ⟨h.1.trans hq.1, hq.2.trans (by rw [h.2])⟩
    refine .bind (P := fun _ => b.Rebound m) ?_ fun _ _ hq => ih hparts.2 hq _
    exact (Buffer.rebound_copyRange h.1.grounded hsource ((h.grounded hb).mono h.1.next) offset 0
      part.data.size).mono (fun _ _ => hnext) fun _ => hnext

theorem grows_concatenate (h : m.Grounded)
    (hparts : ∀ part ∈ parts, part.data.Grounded m.memory.next) (location : Location)
    (device : Nat) (stream : Stream) :
    (concatenate parts location device stream).Leaves m
      (fun b m' => m.Grows m' ∧ b.Made .uint8 (Size.total (parts.map fun part =>
        part.data.byteSize)) m'.memory.next) (m.Grows ·) := by
  refine .bind (Buffer.grows_allocate h ..) fun b m' hb => ?_
  have hfill : (fillFrom stream 0 parts).Leaves (m', b) (fun _ => b.Rebound m') (b.Rebound m') :=
    rebound_fillFrom hb.2.toGrounded (fun part hpart => (hparts part hpart).mono hb.1.next)
      ⟨.refl hb.1.grounded, rfl⟩ 0
  unfold Action.Leaves at hfill ⊢
  dsimp only
  cases hrun : fillFrom stream 0 parts (m', b) with
  | ok u p =>
    rw [hrun] at hfill
    refine ⟨hb.1.trans hfill.1, ?_⟩
    show p.2.Made _ _ p.1.memory.next
    rw [hfill.2]
    exact (hb.2.mono hfill.1.next).withStream _
  | error e p =>
    rw [hrun] at hfill
    exact (hb.1.trans hfill.1).trans (Buffer.grows_release hfill.1.grounded p.2)

/-- The machine has grown, and what the gathering side holds was given out. -/
def Grown (m : Machine) (p : Machine × Gather) : Prop :=
  m.Grows p.1 ∧ p.2.Grounded p.1.memory.next

theorem Grounded.mono (h : g.Grounded n) (hn : n ≤ k) : g.Grounded k :=
  fun b hb => (h b hb).mono hn

theorem grown_collect (h : m.Grounded) (hg : g.Grounded m.memory.next) {requests : List Request}
    (hr : ∀ r ∈ requests, r.Grounded m.memory.next) (query : InputQuery) :
    (collect requests query).Leaves (m, g)
      (fun c p => Grown m p ∧ ∀ data, c.data = some data → data.block < p.1.memory.next)
      (Grown m) := by
  have haim : m.Grows (aimed m query) := by
    unfold aimed
    split
    · exact (Machine.Grows.refl h).emit _
    · exact .refl h
  unfold Action.Leaves
  cases hparts : requests.mapM (fun r => r.input query.name) with
  | error e =>
    rw [collect_of_missing hparts]
    exact ⟨.refl h, hg⟩
  | ok parts =>
    have hplaced : ∀ part ∈ parts, part.data.Grounded m.memory.next := fun part hpart => by
      obtain ⟨r, hmem, hi⟩ := mem_inputs_of_part hparts hpart
      exact (hr r hmem part hi).data
    cases hin : inPlace? parts (target m query).1 (target m query).2 with
    | some single =>
      rw [collect_of_inPlace hparts hin]
      have hsaid := haim.emit (.inputInPlace query.name)
      refine ⟨⟨hsaid, hg.mono hsaid.next⟩, fun data hdata => ?_⟩
      obtain rfl := Option.some.inj hdata
      exact ((hplaced single ((eq_of_inPlace? hin).1 ▸ List.mem_singleton_self _)).mono
        hsaid.next).block
    | none =>
      have hnew := grows_concatenate haim.grounded (fun part hpart =>
        (hplaced part hpart).mono haim.next) (target m query).1 (target m query).2 query.stream
      cases hc : concatenate parts (target m query).1 (target m query).2 query.stream
          (aimed m query) with
      | ok staging m' =>
        obtain ⟨hgrows, hmade⟩ := hnew.of_ok hc
        rw [collect_of_ok hparts hin hc]
        have hgrown := haim.trans hgrows
        refine ⟨⟨hgrown.emit _, List.forall_mem_append.mpr ⟨hg.mono hgrown.next,
          List.forall_mem_singleton.mpr hmade.toGrounded⟩⟩, fun data hdata => ?_⟩
        obtain rfl := Option.some.inj hdata
        exact hmade.block
      | error e m' =>
        have hgrown := haim.trans (hnew.of_error hc)
        rw [collect_of_error hparts hin hc]
        exact ⟨hgrown, hg.mono hgrown.next⟩

theorem grows_close (h : m.Grounded) (g : Gather) : m.Grows (g.close m) := by
  unfold close
  split
  · exact .refl h
  · exact (h.synchronize g.stream).trans
      (.foldl (fun _ b hm => Buffer.grows_release hm b) (h.synchronize g.stream).grounded _)

end Gather

/-! ## Scattering -/

namespace Scatter

theorem grows_copySlice (h : m.Grounded) {source : Buffer} (hs : source.Grounded m.memory.next)
    (slice : Slice) (location : Location) (device : Nat) :
    (copySlice source slice location device).Leaves m
      (fun b m' => m.Grows m' ∧ b.Grounded m'.memory.next) (m.Grows ·) := by
  refine .bind (Buffer.grows_allocate h ..) fun b m' hb => ?_
  have hcopy := Buffer.rebound_copyRange hb.1.grounded (hs.mono hb.1.next) hb.2.toGrounded 0
    slice.start (slice.start + slice.length)
  unfold Action.Leaves at hcopy ⊢
  dsimp only
  cases hrun : source.copyRange 0 slice.start (slice.start + slice.length) (m', b) with
  | ok u p =>
    rw [hrun] at hcopy
    exact ⟨hb.1.trans hcopy.1, hcopy.grounded (hb.2.toGrounded.mono hcopy.1.next)⟩
  | error e p =>
    rw [hrun] at hcopy
    exact (hb.1.trans hcopy.1).trans (Buffer.grows_release hcopy.1.grounded p.2)

/-- The machine has grown, and what the responses hold was given out. -/
def Grown (m : Machine) (p : Machine × Scatter × List Response) : Prop :=
  m.Grows p.1 ∧ ∀ r ∈ p.2.2, r.Grounded p.1.memory.next

theorem grown_deliver {source : Buffer} (hs : source.Grounded m.memory.next)
    {p : Machine × Scatter × List Response} (h : Grown m p) (output : OutputView) (index : Nat)
    (request : Request) (slice : Slice) :
    (deliver output source index request slice).Leaves p (fun _ => Grown m) (Grown m) := by
  obtain ⟨m', scatter, rs⟩ := p
  unfold deliver
  cases request.wants output.name with
  | none => exact .pure h
  | some place =>
    have hback : ∀ {m'' : Machine}, m'.Grows m'' → Grown m (m'', scatter, rs) := fun h'' =>
      ⟨h.1.trans h'', fun r hr => (h.2 r hr).mono h''.next⟩
    refine .bind (P := fun b q => Grown m q ∧ b.Grounded q.1.memory.next)
      (.onFirst ((grows_copySlice h.1.grounded (hs.mono h.1.next) slice _ _).mono
        (fun _ _ hb => ⟨hback hb.1, hb.2⟩) fun _ => hback)) fun b q hq => .change ⟨hq.1.1, ?_⟩
    exact forall_mem_modify hq.1.2 fun r hr =>
      List.forall_mem_append.mpr ⟨hr, List.forall_mem_singleton.mpr hq.2⟩

theorem grown_deliverFrom {source : Buffer} (hs : source.Grounded m.memory.next)
    (output : OutputView) (pairs : List (Request × Slice)) {p : Machine × Scatter × List Response}
    (h : Grown m p) (index : Nat) :
    (deliverFrom output source index pairs).Leaves p (fun _ => Grown m) (Grown m) := by
  induction pairs generalizing p index with
  | nil => exact .pure h
  | cons pair rest ih => exact .bind (grown_deliver hs h output index _ _) fun _ _ h' => ih h' _

theorem grown_process {output : OutputView}
    (hs : ∀ data, output.data = some data → data.block < m.memory.next)
    {p : Machine × Scatter × List Response} (h : Grown m p) (requests : List Request) :
    (process requests output).Leaves p (fun _ => Grown m) (Grown m) := by
  unfold process
  cases hdata : output.data with
  | none => exact .throw h
  | some data =>
    refine .get_bind (.ofExcept_bind (fun slices _ => ?_) h)
    have hsource := Buffer.grounded_borrow .uint8 output.location (hs data hdata) output.byteSize
      output.device output.stream
    exact .bind (grown_deliverFrom hsource output _ h 0) fun _ q h' => .change ⟨h'.1.emit _, h'.2⟩

theorem grown_finish {p : Machine × Scatter × List Response} (h : Grown m p) :
    finish.Leaves p (fun _ => Grown m) (Grown m) :=
  .get_bind (.change_bind (.pure h))

end Scatter

/-! ## Batches -/

namespace Batch

variable {b : Batch}

/-- All that a batch knows was given out. -/
structure Grounded (b : Batch) (n : Nat) : Prop where
  requests : ∀ r ∈ b.requests, r.Grounded n
  responses : ∀ r ∈ b.responses, r.Grounded n
  inputs : b.held.inputs.Grounded n
  outputs : ∀ o ∈ b.outputs, o.tensor.buffer.Grounded n

theorem Grounded.mono (h : b.Grounded n) (hn : n ≤ k) : b.Grounded k where
  requests r hr := (h.requests r hr).mono hn
  responses r hr := (h.responses r hr).mono hn
  inputs := h.inputs.mono hn
  outputs o ho := (h.outputs o ho).mono hn

theorem grounded_opening {requests : List Request} (h : ∀ r ∈ requests, r.Grounded n)
    (settings : BatchSettings) (stream : Stream) :
    (opening requests settings stream).Grounded n where
  requests := h
  responses r hr o ho := by
    rw [outputs_of_mem_empty hr] at ho
    exact absurd ho List.not_mem_nil
  inputs _ hg := absurd hg List.not_mem_nil
  outputs _ ho := absurd ho List.not_mem_nil

theorem Grounded.output? (h : b.Grounded n) {name : String} {t : Tensor}
    (ht : b.output? name = some t) : t.buffer.Grounded n := by
  obtain ⟨o, ho, rfl⟩ := Option.map_eq_some_iff.mp ht
  exact h.outputs o (List.mem_of_find?_eq_some ho)

/-- The machine has grown, and what the batch knows was given out. -/
def Grown (m : Machine) (p : Machine × Batch) : Prop := m.Grows p.1 ∧ p.2.Grounded p.1.memory.next

theorem Grown.emit {p : Machine × Batch} (h : Grown m p) (e : Event) : Grown m (p.1.emit e, p.2) :=
  ⟨h.1.emit e, h.2⟩

theorem grounded_of_toBuffer {c : CollectedInput} {dtype : ElementType} {query : InputQuery}
    {b : Buffer} (hn : 0 < n) (hc : ∀ data, c.data = some data → data.block < n)
    (h : c.toBuffer dtype query = .ok b) : b.Grounded n := by
  unfold CollectedInput.toBuffer at h
  split at h
  · cases h
  · split at h
    · cases h
      exact ⟨hn, nofun⟩
    · split at h
      · cases h
      · next data hdata =>
        split at h
        · cases h
        · split at h
          · cases h
          · cases h
            exact ⟨hc data hdata, nofun⟩

theorem grown_getInput (h : m.Grounded) (hb : b.Grounded m.memory.next) (name : String)
    (dtype : ElementType) (location : Location) (device : Nat) :
    (DeviceBatch.Batch.getInput exchange name dtype location device).Leaves (m, b)
      (fun t p => Grown m p ∧ t.buffer.Grounded p.1.memory.next) (Grown m) := by
  have hself : Grown m (m, b) := ⟨.refl h, hb⟩
  refine .get_bind (.ofExcept_bind (fun shape _ => .ofExcept_bind (fun bytes _ => ?_) hself) hself)
  refine .bind (P := fun c p => Grown m p ∧ ∀ data, c.data = some data →
    data.block < p.1.memory.next) (.within (.within ?_)) fun c p hp => ?_
  · have hback : ∀ {q : Machine × Gather}, Gather.Grown m q →
        Grown m (q.1, { b with held := { b.held with inputs := q.2 } }) := fun hq =>
      ⟨hq.1, (hb.mono hq.1.next).requests, (hb.mono hq.1.next).responses, hq.2,
        (hb.mono hq.1.next).outputs⟩
    exact (Gather.grown_collect h hb.inputs hb.requests _).mono
      (fun _ _ hc => ⟨hback hc.1, hc.2⟩) fun _ => hback
  · refine .ofExcept_bind (fun buffer hbuffer => .change_bind ?_) hp.1
    refine .ofExcept (fun t ht => ⟨hp.1.emit _, ?_⟩) (hp.1.emit _)
    rw [Tensor.buffer_of_ofBuffer ht]
    exact grounded_of_toBuffer hp.1.1.grounded.positive hp.2 hbuffer

theorem grown_getOutput (h : m.Grounded) (hb : b.Grounded m.memory.next) (name : String)
    (dtype : ElementType) (shape : Shape) (location : Location) (device : Nat) :
    (DeviceBatch.Batch.getOutput name dtype shape location device).Leaves (m, b)
      (fun _ => Grown m) (Grown m) := by
  have hself : Grown m (m, b) := ⟨.refl h, hb⟩
  refine .get_bind (.ofExcept_bind (fun _ _ => ?_) hself)
  split
  · exact .throw hself
  · refine .bind (P := fun t p => Grown m p ∧ t.buffer.Grounded p.1.memory.next)
      (.onFirst ((Tensor.grows_allocate h ..).mono
        (fun _ _ ht => ⟨⟨ht.1, hb.mono ht.1.next⟩, ht.2⟩) fun _ h' => ⟨h', hb.mono h'.next⟩))
      fun t p hp => .change_bind (.pure ⟨hp.1.1.emit _, ?_⟩)
    have houtputs := List.forall_mem_append.mpr
      ⟨hp.1.2.outputs, List.forall_mem_singleton (a := ⟨name, t⟩) |>.mpr hp.2⟩
    exact { hp.1.2 with outputs := houtputs }

theorem grounded_withOutputStream (h : b.Grounded n) (name : String) (stream : Stream) :
    Grounded (b.withOutputStream name stream) n := by
  refine { h with outputs := fun o ho => ?_ }
  obtain ⟨o', ho', rfl⟩ := List.mem_map.mp ho
  split
  · exact (h.outputs o' ho').withStream stream
  · exact h.outputs o' ho'

/-- The machine has grown, the responses hold what was given out, and the gathering side is as it
was. -/
def Spread (m : Machine) (inputs : Gather) (p : Machine × Sides × List Response) : Prop :=
  Scatter.Grown m (p.1, p.2.1.outputs, p.2.2) ∧ p.2.1.inputs = inputs

theorem spread_onOutputs {α : Type} {act : Action (Machine × Scatter × List Response) α}
    {inputs : Gather} {p : Machine × Sides × List Response}
    (hact : ∀ {q}, Scatter.Grown m q → act.Leaves q (fun _ => Scatter.Grown m) (Scatter.Grown m))
    (h : Spread m inputs p) :
    (Sides.onOutputs act).Leaves p (fun _ => Spread m inputs) (Spread m inputs) :=
  .within ((hact h.1).mono (fun _ _ hq => ⟨hq, h.2⟩) fun _ hq => ⟨hq, h.2⟩)

theorem spread_scatterAll (requests : List Request) {outputs : List RecordedOutput}
    (ho : ∀ o ∈ outputs, o.tensor.buffer.Grounded m.memory.next) {inputs : Gather}
    {p : Machine × Sides × List Response} (h : Spread m inputs p) :
    (DeviceBatch.Batch.scatterAll exchange requests outputs).Leaves p
      (fun _ => Spread m inputs) (Spread m inputs) := by
  induction outputs generalizing p with
  | nil => exact spread_onOutputs (fun hq => Scatter.grown_finish hq) h
  | cons o rest ih =>
    rw [List.forall_mem_cons] at ho
    have hdata : ∀ data, (OutputView.ofTensor o.name o.tensor).data = some data →
        data.block < m.memory.next := fun data hdata => Option.some.inj hdata ▸ ho.1.block
    exact .bind (spread_onOutputs (fun hq => Scatter.grown_process hdata hq requests) h)
      fun _ _ hq => ih ho.2 hq

theorem grown_flush (h : m.Grounded) (hb : b.Grounded m.memory.next) :
    (DeviceBatch.Batch.flush exchange).Leaves (m, b) (fun _ => Grown m) (Grown m) := by
  have hback : ∀ {q : Machine × Sides × List Response}, Spread m b.held.inputs q →
      Grown m (q.1, { b with held := q.2.1, responses := q.2.2 }) := fun {q} hq =>
    ⟨hq.1.1, { hb.mono hq.1.1.next with
      responses := hq.1.2
      inputs := by rw [show q.2.1.inputs = _ from hq.2]; exact hb.inputs.mono hq.1.1.next }⟩
  have hscatter : (DeviceBatch.Batch.onOutputs (DeviceBatch.Batch.scatterAll exchange b.requests
      b.outputs)).Leaves (m, b) (fun _ => Grown m) (Grown m) :=
    .within ((spread_scatterAll b.requests hb.outputs ⟨⟨.refl h, hb.responses⟩, rfl⟩).mono
      (fun _ _ => hback) fun _ => hback)
  have hwait : ∀ {q : Machine × Batch}, Grown m q → Grown m (q.1.synchronize q.2.stream, q.2) :=
    fun {q} hq =>
      have hw := hq.1.grounded.synchronize q.2.stream
      ⟨hq.1.trans hw, hq.2.mono hw.next⟩
  refine leaves_flush (hscatter.mono (fun waiting q hq => ?_) fun q hq => hwait hq)
  cases waiting with
  | false => exact hq
  | true => exact hwait hq

theorem grown_finalize (h : m.Grounded) (hb : b.Grounded m.memory.next) :
    (DeviceBatch.Batch.finalize exchange).Leaves (m, b) (fun _ => Grown m) (Grown m) := by
  cases hstate : b.state with
  | finalized =>
    unfold Action.Leaves DeviceBatch.Batch.finalize
    dsimp only
    rw [hstate]
    exact ⟨.refl h, hb⟩
  | opened =>
    have hflush := grown_flush (b := { b with state := .finalized }) h { hb with }
    exact leaves_finalize hstate (hflush.mono (fun _ _ hq => ⟨hq.1.of_eq rfl rfl rfl rfl, hq.2⟩)
      fun _ hq _ => ⟨hq.1.of_eq rfl rfl rfl rfl, hq.2⟩)

theorem grows_releaseRest (h : m.Grounded) (b : Batch) : m.Grows (b.releaseRest exchange m) :=
  have hclosed := Gather.grows_close h b.held.inputs
  hclosed.trans (.foldl (fun _ o hm => Buffer.grows_release hm o.tensor.buffer) hclosed.grounded
    b.outputs)

theorem grows_release (h : m.Grounded) (b : Batch) : m.Grows (b.release exchange m) :=
  have hdropped := Machine.Grows.foldl (fun _ r hm => Response.grows_release hm r) h b.responses
  hdropped.trans (grows_releaseRest hdropped.grounded b)

end Batch

end Local
end DeviceBatch
