import DeviceBatch.Proofs.Buffer

/-!
# Reading and writing elements

A buffer that is read after its stream was waited for shows what the outlook says
(`Buffer.fetchBytes_cases`). Looking at it without waiting shows the same only while no waiting copy
writes it.

Copies between buffers are issued in the outlook as they are asked for, be they performed at once
or later; a buffer that is brought onto another stream first is waited for.
-/

namespace DeviceBatch

namespace Memory

@[simp] theorem read_zero (m : Memory) (p : Pointer) : m.read p 0 = [] := List.take_zero

/-- What is read depends on its block only, and on nothing if nothing is read. -/
theorem read_congr_of_ne_zero {m m' : Memory} {p : Pointer} {n : Nat}
    (h : n ≠ 0 → m.block? p.block = m'.block? p.block) : m.read p n = m'.read p n := by
  by_cases hn : n = 0
  · rw [hn, read_zero, read_zero]
  · exact read_congr (h hn) n

end Memory

namespace Buffer

variable {m m' : Machine} {T : List Holding} {b : Buffer}

/-! ## What a buffer holds in the outlook -/

/-- The bytes of a buffer once all queued work is done. -/
def outlookBytes (b : Buffer) (o : Outlook) : List UInt8 := o.memory.read b.data b.byteSize

/-- The holding of a readable buffer is live and long enough. -/
theorem Readable.block_outlook (h : m.Keeps T) (hb : b.Readable T) (hn : b.byteSize ≠ 0) :
    b.data.block < m.memory.next ∧ ∃ bytes, m.outlook.memory.block? b.data.block = some bytes ∧
      b.data.offset + b.byteSize ≤ bytes.length := by
  obtain ⟨t, ht, hspan, -, -⟩ := hb hn
  have hlen := h.length_outlook ht
  rw [hspan.1] at hlen
  cases hbl : m.outlook.memory.block? b.data.block with
  | none => rw [hbl] at hlen; cases hlen
  | some bytes =>
    rw [hbl] at hlen
    refine ⟨hspan.1 ▸ h.block_lt (Machine.Keeps.mem ht), bytes, rfl, ?_⟩
    rw [Option.some.inj hlen]
    exact hspan.2

/-- What a proper buffer will hold depends on its own storage only. -/
theorem Proper.outlookBytes_congr (hb : b.Proper) (use : Use) {o o' : Outlook}
    (h : ∀ t ∈ b.holdings use, o'.memory.block? t.block = o.memory.block? t.block) :
    b.outlookBytes o' = b.outlookBytes o := by
  refine Memory.read_congr_of_ne_zero fun hn => ?_
  obtain ⟨t, ht, -, -, -, hdata⟩ := hb.holding (List.Subset.refl (b.holdings use)) hn
  rw [hdata]
  exact h t ht

theorem Readable.length_outlookBytes (h : m.Keeps T) (hb : b.Readable T) :
    (b.outlookBytes m.outlook).length = b.byteSize := by
  by_cases hn : b.byteSize = 0
  · rw [outlookBytes, hn, Memory.read_zero]
    rfl
  · obtain ⟨-, bytes, hbl, hle⟩ := hb.block_outlook h hn
    exact Memory.length_read hbl hle

theorem Readable.length_bytes (h : m.Keeps T) (hb : b.Readable T) :
    (b.bytes m).length = b.byteSize := by
  unfold bytes
  by_cases hn : b.byteSize = 0
  · rw [hn, Memory.read_zero]
    rfl
  · obtain ⟨t, ht, hspan, -, -⟩ := hb hn
    have hlen := h.occupied t (Machine.Keeps.mem ht)
    cases hbl : m.memory.block? t.block with
    | none => rw [hbl] at hlen; cases hlen
    | some bytes =>
      rw [hbl] at hlen
      rw [hspan.1] at hbl
      refine Memory.length_read hbl ?_
      rw [Option.some.inj hlen]
      exact hspan.2

/-- A buffer that no waiting copy writes already holds what it will hold. -/
theorem Readable.bytes_of_unwritten (h : m.Keeps T) (hb : b.Readable T)
    (hu : b.byteSize ≠ 0 → m.Unwritten b.data.block) :
    b.bytes m = b.outlookBytes m.outlook := by
  refine (Memory.read_congr_of_ne_zero fun hn => ?_).symm
  obtain ⟨t, ht, hspan, -, -⟩ := hb hn
  rw [← hspan.1]
  exact h.block?_outlook_of_unwritten ht (hspan.1 ▸ hu hn)

/-- While nothing waits on its stream, a buffer is not written by waiting copies. -/
theorem Readable.unwritten_of_idle (h : m.Keeps T) (hb : b.Readable T)
    (hnone : ∀ c, ¬ m.Pending b.stream c) (hn : b.byteSize ≠ 0) : m.Unwritten b.data.block := by
  intro s c hc hblock
  obtain ⟨t, ht, hspan, -, hgive⟩ := hb hn
  obtain ⟨d, hd, u, -, hdst, -, htake, -⟩ := h.served s c hc
  have heq := h.eq_of_block hd (Machine.Keeps.mem ht) (hdst.1.trans (hblock.trans hspan.1.symm))
  subst heq
  exact hnone c (Use.eq_of_takes_of_gives htake hgive ▸ hc)

theorem Readable.bytes_of_idle (h : m.Keeps T) (hb : b.Readable T)
    (hnone : ∀ c, ¬ m.Pending b.stream c) : b.bytes m = b.outlookBytes m.outlook :=
  hb.bytes_of_unwritten h (hb.unwritten_of_idle h hnone)

/-- After its stream was waited for, a buffer holds what it was to hold. -/
theorem Readable.bytes_synchronize (h : m.Keeps T) (hb : b.Readable T) :
    b.bytes (m.synchronize b.stream) = b.outlookBytes m.outlook := by
  obtain ⟨hp, hnone⟩ := Machine.progress_synchronize h b.stream
  rw [hb.bytes_of_idle hp.keeps hnone, hp.outlook trivial]
  rfl

theorem Readable.block_synchronize (h : m.Keeps T) (hb : b.Readable T) (hn : b.byteSize ≠ 0) :
    (m.synchronize b.stream).memory.block? b.data.block =
      m.outlook.memory.block? b.data.block := by
  obtain ⟨hp, hnone⟩ := Machine.progress_synchronize h b.stream
  have hu := hb.unwritten_of_idle hp.keeps hnone hn
  obtain ⟨t, ht, hspan, -, -⟩ := hb hn
  rw [← hspan.1] at hu ⊢
  rw [← hp.keeps.block?_outlook_of_unwritten ht hu, hp.outlook trivial]
  rfl

/-- In the outlook a copy has the bytes of what it was copied from. -/
theorem outlookBytes_copied {o : Outlook} (hlen : (b.outlookBytes o).length = b.byteSize)
    (hlt : b.byteSize ≠ 0 → b.data.block < o.memory.next) (location : Location) (device : Nat) :
    (b.copied o.memory.next location device).outlookBytes
        (o.afterAll (b.copyEffects o.memory.next location device)) = b.outlookBytes o := by
  by_cases hn : b.byteSize = 0
  · have hn' : (b.copied o.memory.next location device).byteSize = 0 := hn
    rw [outlookBytes, outlookBytes, hn, hn', Memory.read_zero, Memory.read_zero]
  · have hne : b.size * b.dtype.width ≠ 0 := hn
    have hread : (o.memory.alloc (List.replicate b.byteSize 0)).read b.data b.byteSize =
        b.outlookBytes o := by
      refine Memory.read_congr ?_ _
      rw [Memory.block?_alloc, if_neg (Nat.ne_of_lt (hlt hn))]
    have hnew : (o.memory.alloc (List.replicate b.byteSize 0)).block? o.memory.next =
        some (List.replicate b.byteSize 0) := by
      rw [Memory.block?_alloc, if_pos rfl]
    have hafter : (o.afterAll (b.copyEffects o.memory.next location device)).memory =
        (o.memory.alloc (List.replicate b.byteSize 0)).write ⟨o.memory.next, 0⟩
          (b.outlookBytes o) := by
      unfold copyEffects Effect.allocs Effect.copies
      rw [if_neg hn, if_neg hn, copied, fresh_data hne, ← hread]
      rfl
    have hself : ((o.memory.alloc (List.replicate b.byteSize 0)).write ⟨o.memory.next, 0⟩
        (b.outlookBytes o)).read ⟨o.memory.next, 0⟩ (b.outlookBytes o).length = b.outlookBytes o :=
      Memory.read_write_self hnew (by simp [hlen])
    rw [hlen] at hself
    show (o.afterAll _).memory.read (fresh _ _ _ _ _ _).data b.byteSize = _
    rw [hafter, fresh_data hne, hself]

/-- Storage of others that is given up is of no importance. -/
theorem outlookBytes_frees (o : Outlook) {U : List Holding}
    (h : b.byteSize ≠ 0 → ∀ t ∈ U, t.block ≠ b.data.block) :
    b.outlookBytes (o.afterAll (Effect.frees U)) = b.outlookBytes o := by
  refine Memory.read_congr_of_ne_zero fun hn => ?_
  have hfrees : Effect.frees U = (U.map Holding.block).map .free := by
    rw [List.map_map]
    rfl
  have hnot : b.data.block ∉ U.map Holding.block := by
    intro hmem
    obtain ⟨t, ht, heq⟩ := List.mem_map.mp hmem
    exact h hn t ht heq
  rw [hfrees, Outlook.afterAll_free, Memory.block?_freeAll, if_neg hnot]

/-- A new buffer holds zeros. -/
theorem outlookBytes_fresh (o : Outlook) (dtype : ElementType) (size : Nat) (location : Location)
    (device : Nat) (stream : Stream) :
    (fresh o.memory.next dtype size location device stream).outlookBytes
      (o.afterAll (Effect.allocs (size * dtype.width))) =
        List.replicate (size * dtype.width) 0 := by
  unfold outlookBytes
  rw [fresh_byteSize]
  by_cases hn : size * dtype.width = 0
  · rw [hn, Memory.read_zero]
    rfl
  · have hnew : (o.memory.alloc (List.replicate (size * dtype.width) 0)).block? o.memory.next =
        some (List.replicate (size * dtype.width) 0) := by
      rw [Memory.block?_alloc, if_pos rfl]
    rw [fresh_data hn, Effect.allocs, if_neg hn]
    show (o.memory.alloc (List.replicate (size * dtype.width) 0)).read _ _ = _
    simp [Memory.read, hnew]

/-- A new buffer that bytes are written to holds them. -/
theorem outlookBytes_written (o : Outlook) {dtype : ElementType} {size : Nat} {bytes : List UInt8}
    (hlen : bytes.length = size * dtype.width) (location : Location) (device : Nat)
    (stream : Stream) :
    let b := fresh o.memory.next dtype size location device stream
    b.outlookBytes (o.afterAll (Effect.allocs (size * dtype.width) ++
      Effect.writes b.data bytes)) = bytes := by
  intro b
  show Memory.read _ b.data (size * dtype.width) = _
  by_cases hn : size * dtype.width = 0
  · rw [hn, Memory.read_zero, List.length_eq_zero_iff.mp (hlen.trans hn)]
  · have hne : bytes ≠ [] := fun hb => hn (by rw [← hlen, hb]; rfl)
    have hnew : (o.memory.alloc (List.replicate (size * dtype.width) 0)).block? o.memory.next =
        some (List.replicate (size * dtype.width) 0) := by
      rw [Memory.block?_alloc, if_pos rfl]
    have hdata : b.data = ⟨o.memory.next, 0⟩ := fresh_data hn
    have hfit : 0 + bytes.length ≤ (List.replicate (size * dtype.width) (0 : UInt8)).length := by
      simp [hlen]
    have hself := Memory.read_write_self (p := ⟨o.memory.next, 0⟩) hnew hfit
    rw [hlen] at hself
    rw [hdata, Effect.allocs, if_neg hn, Effect.writes, if_neg hne]
    exact hself

/-- A new buffer that is filled at once holds what can be read at the moment. -/
theorem outlook_memory_filled (h : m.Keeps T) {dtype : ElementType} {size : Nat}
    {location : Location} {device : Nat} {stream : Stream} {m₁ : Machine}
    (hp : m.Progress T (Effect.allocs (size * dtype.width)) True m₁
      ((fresh m.memory.next dtype size location device stream).holdings (.bound stream) ++ T))
    {q : Pointer} (hlt : size * dtype.width ≠ 0 → q.block < m.memory.next)
    (hm : m'.memory = (m₁.runCopies [⟨(fresh m.memory.next dtype size location device stream).data,
      q, size * dtype.width⟩]).memory) (hq : m'.queues = m₁.queues) :
    m'.outlook.memory = (m.outlook.afterAll (Effect.allocs (size * dtype.width) ++
      Effect.writes (fresh m.memory.next dtype size location device stream).data
        (m.memory.read q (size * dtype.width)))).memory := by
  have hwrites : ∀ (o : Outlook) (p : Pointer) (bytes : List UInt8),
      (o.afterAll (Effect.writes p bytes)).memory = o.memory.write p bytes := by
    intro o p bytes
    unfold Effect.writes
    split
    · next hb => rw [hb, Memory.write_nil]; rfl
    · rfl
  rw [Outlook.afterAll_append, hwrites, ← hp.outlook trivial]
  by_cases hn : size * dtype.width = 0
  · rw [hn, Memory.read_zero, Memory.write_nil]
    refine Machine.outlook_memory_congr ?_ hq
    rw [hm, hn]
    show m₁.memory.write _ (m₁.memory.read q 0) = _
    rw [Memory.read_zero, Memory.write_nil]
  · obtain ⟨t, ht, -, huse, -, hspan⟩ := fresh_spans m.memory.next dtype size location device stream
      (.bound stream) hn
    have hu : m₁.Untouched (fresh m.memory.next dtype size location device stream).data.block := by
      rw [fresh_data hn]
      exact untouched_fresh h hp not_copiesAt_allocs
    -- What is copied lies in a block that is older than the new one.
    have hread : m₁.memory.read q (size * dtype.width) = m.memory.read q (size * dtype.width) := by
      exact Memory.read_congr (hp.memory Effect.not_maySettle_allocs _ (hlt hn) fun e he =>
        (Effect.sparesBelow_allocs _).keepsBelow e he _ (hlt hn)) _
    rw [Machine.outlook_memory_of_runCopies hp.keeps (List.mem_append_left _ ht)
      (by rw [huse]; exact id) hspan.1.symm hu hm hq, hread]

/-- The copy of a host buffer to the host holds what the buffer holds at the moment. -/
theorem copyTo_host (h : m.Keeps T) (hb : b.Readable T) (hl : b.location = .host) (device : Nat) :
    (∃ e, e.IsAllocation ∧ b.copyTo .host device m = .error e m) ∨
    ∃ m', b.copyTo .host device m = .ok (b.copied m.memory.next .host device) m' ∧
      m'.outlook.memory = (m.outlook.afterAll (Effect.allocs b.byteSize ++
        Effect.writes (b.copied m.memory.next .host device).data (b.bytes m))).memory := by
  rcases copyTo_cases h hb .host device with ⟨e, he, -, herror⟩ | ⟨m', hcopy, -⟩
  · exact .inl ⟨e, he, herror⟩
  · refine .inr ⟨m', hcopy, ?_⟩
    unfold copyTo at hcopy
    rcases allocate_cases b.dtype b.size .host device b.stream h with ⟨e, -, ha⟩ | ⟨m₁, ha, hp⟩
    · rw [Action.bind_of_error ha] at hcopy
      cases hcopy
    · rw [Action.bind_of_ok ha] at hcopy
      cases ht : transfer .host (fresh m.memory.next b.dtype b.size .host device b.stream).data
          b.location b.data b.byteSize b.stream m₁ with
      | error e m₂ =>
        rw [Action.bind_of_error (Action.orElseTidy_of_error ht)] at hcopy
        cases hcopy
      | ok _ m₂ =>
        rw [Action.bind_of_ok (Action.orElseTidy_of_ok ht)] at hcopy
        cases hcopy
        obtain ⟨hm, hq⟩ := transfer_eq_of_not_defers ht (by
          rw [hl, Platform.defers_eq]
          exact Bool.and_false _)
        exact outlook_memory_filled h (hp (.bound b.stream)) (fun hn => (hb.block_outlook h hn).1)
          hm hq

/-- A buffer that is made from bytes holds them. -/
theorem outlookBytes_ofBytesResult (o : Outlook) {dtype : ElementType} {size : Nat}
    {bytes : List UInt8} (hlen : bytes.length = size * dtype.width) (location : Location)
    (device : Nat) (stream : Stream) :
    (ofBytesResult o.memory.next dtype size location device stream).outlookBytes
      (o.afterAll (ofBytesEffects o.memory.next dtype size bytes location device stream)) =
        bytes := by
  have hstaged : (staged o.memory.next dtype size device stream).outlookBytes
      (o.afterAll (Effect.allocs (size * dtype.width) ++
        Effect.writes (staged o.memory.next dtype size device stream).data bytes)) = bytes :=
    outlookBytes_written o hlen .host device stream
  unfold ofBytesResult ofBytesEffects
  split
  · rw [List.append_nil]
    exact hstaged
  · let b := staged o.memory.next dtype size device stream
    let o' := o.afterAll (Effect.allocs (size * dtype.width) ++ Effect.writes b.data bytes)
    have hnext : o'.memory.next = nextAfter o.memory.next (size * dtype.width) := by
      show (o.afterAll _).memory.next = _
      rw [Outlook.afterAll_append, next_afterAll_writes, next_afterAll_allocs]
    have hlt : size * dtype.width ≠ 0 → o.memory.next < o'.memory.next := by
      intro hn
      rw [hnext, nextAfter, if_neg hn]
      exact Nat.lt_succ_self _
    have hcopied := outlookBytes_copied (b := b) (o := o') (by rw [hstaged]; exact hlen)
      (fun hn => by
        have hdata : b.data = ⟨o.memory.next, 0⟩ := fresh_data hn
        rw [hdata]
        exact hlt hn) location device
    rw [← List.append_assoc, Outlook.afterAll_append, Outlook.afterAll_append, ← hnext]
    refine (outlookBytes_frees _ fun hn t ht => ?_).trans (hcopied.trans hstaged)
    have hdata : (b.copied o'.memory.next location device).data = ⟨o'.memory.next, 0⟩ :=
      fresh_data hn
    rw [hdata, block_of_mem_fresh ht]
    exact Nat.ne_of_lt (hlt hn)

/-! ## Reading after waiting -/

/-- What happens to storage when the bytes of a buffer are fetched. -/
def fetchEffects (b : Buffer) (next : Nat) : List Effect :=
  match b.location with
  | .host => [.wait]
  | .device => b.copyEffects next .host b.device ++ ([.wait] ++
      Effect.frees ((b.copied next .host b.device).holdings (.bound b.stream)))

theorem keepsBelow_fetchEffects (b : Buffer) (next : Nat) :
    Effect.KeepsBelow next (b.fetchEffects next) := by
  unfold fetchEffects
  split
  · exact Effect.keepsBelow_wait
  · exact (keepsBelow_copyEffects b next .host b.device).append (Effect.keepsBelow_wait.append
      (Effect.sparesBelow_frees fun t ht =>
        Nat.le_of_eq (block_of_mem_fresh ht).symm).keepsBelow)

/-- The bytes that are fetched are those of the outlook, wherever the buffer lies, unless there is
no host storage to fetch them to. -/
theorem fetchBytes_cases (h : m.Keeps T) (hb : b.Readable T) :
    (∃ e, e.IsAllocation ∧ Machine.hostBlockLimit ≤ b.byteSize ∧ b.fetchBytes m = .error e m) ∨
    ∃ m', b.fetchBytes m = .ok (b.outlookBytes m.outlook) m' ∧
      m.Progress T (b.fetchEffects m.memory.next) True m' T := by
  unfold fetchBytes fetchEffects
  cases hl : b.location with
  | host =>
    right
    obtain ⟨hp, hnone⟩ := Machine.progress_synchronize h b.stream
    refine ⟨m.synchronize b.stream, ?_, hp⟩
    show EStateM.Result.ok (b.bytes (m.synchronize b.stream)) _ = _
    rw [hb.bytes_of_idle hp.keeps hnone, hp.outlook trivial]
    rfl
  | device =>
    rcases copyTo_cases h hb .host b.device with ⟨e, he, hlimit, hc⟩ | ⟨m₁, hc, hp₁⟩
    · exact .inl ⟨e, he, hlimit rfl, Action.bind_of_error hc⟩
    · right
      have hproper : (b.copied m.memory.next .host b.device).Proper := fresh_proper ..
      -- A copy from a device runs at once only if copies are never put off, and then none waits.
      have hp₁ := hp₁.imp (q := True) fun _ _ hd => by
        rw [hl, Platform.defers_eq, CopyKind.touchesDevice_between] at hd
        have hd' : m.platform.isDeferred = false := by simpa [Location.isDevice] using hd
        exact fun s d hp => absurd hp (h.not_pending hd' s d)
      obtain ⟨hp₂, hnone⟩ := Machine.progress_synchronize hp₁.keeps b.stream
      have hread : (b.copied m.memory.next .host b.device).Readable
          ((b.copied m.memory.next .host b.device).holdings (.bound b.stream) ++ T) :=
        hproper.readable (List.subset_append_left _ _)
      have hbytes : (b.copied m.memory.next .host b.device).bytes (m₁.synchronize b.stream) =
          b.outlookBytes m.outlook := by
        have hout : (m₁.synchronize b.stream).outlook.memory = (m.outlook.afterAll
            (b.copyEffects m.outlook.memory.next .host b.device)).memory := by
          rw [hp₂.outlook trivial, hp₁.outlook trivial, Machine.next_outlook]
          rfl
        have hcopied := outlookBytes_copied (b := b) (o := m.outlook)
          (hb.length_outlookBytes h) (fun hn => by
            rw [Machine.next_outlook]
            exact (hb.block_outlook h hn).1) .host b.device
        rw [hread.bytes_of_idle hp₂.keeps hnone, ← hcopied, Machine.next_outlook]
        unfold outlookBytes
        rw [hout, Machine.next_outlook]
      -- Whatever touches the copy waits on its stream, on which nothing is left.
      have hp₃ := release_progress hp₂.keeps fun t ht _ s c hc htouch => by
        have huse : t.use = .bound b.stream := use_of_mem_holdings ht
        have hs := Machine.Orderly.stream_of_touches hp₂.keeps
          (Machine.Keeps.mem (List.mem_append_left _ ht)) hc htouch (.inl huse)
        exact hnone c (hs ▸ hc)
      refine ⟨_, ?_, (hp₁.trans (hp₂.trans hp₃)).imp fun _ => ⟨trivial, trivial, trivial⟩⟩
      refine (Action.bind_of_ok hc).trans ?_
      show EStateM.Result.ok ((b.copied m.memory.next .host b.device).bytes _) _ = _
      rw [hbytes]

/-! ## Streams -/

/-- While nothing waits on its stream, owned storage is not touched. -/
theorem untouched_of_idle {s : Stream} (h : m.Keeps T) (hT : b.holdings (.bound s) ⊆ T)
    (hnone : ∀ c, ¬ m.Pending s c) {t : Holding} {use : Use} (ht : t ∈ b.holdings use) :
    m.Untouched t.block := by
  intro r c hc htouch
  have hs := Machine.Orderly.stream_of_touches h (Machine.Keeps.mem (hT (mem_holdings ht _))) hc
    htouch (.inl rfl)
  exact hnone c (hs ▸ hc)

/-- Once nothing waits on its stream, owned storage can be put to any other use. -/
theorem progress_rebound {T' : List Holding} {es : List Effect} {p : Prop} {s : Stream}
    (h : m.Progress T es p m' (b.holdings (.bound s) ++ T')) (hnone : ∀ c, ¬ m'.Pending s c)
    (use : Use) : m.Progress T es p m' (b.holdings use ++ T') := by
  obtain ⟨storage, dtype, size, device, stream⟩ := b
  cases storage with
  | borrowed location data => exact h
  | owned a =>
    by_cases ha : a.bytes = 0
    · have hnil : ∀ use, holdings ⟨.owned a, dtype, size, device, stream⟩ use = [] :=
        fun use => if_pos ha
      rw [hnil] at h ⊢
      exact h
    · have hcons : ∀ use, holdings ⟨.owned a, dtype, size, device, stream⟩ use = [⟨a, use⟩] :=
        fun use => if_neg ha
      rw [hcons] at h ⊢
      refine h.withUse (t := ⟨a, .bound s⟩) id (fun r c hc htouch => ?_) use
      have hs := Machine.Orderly.stream_of_touches h.keeps (Machine.Keeps.mem List.mem_cons_self)
        hc htouch (.inl rfl)
      exact hnone c (hs ▸ hc)

/-- Binding a buffer to another stream waits for the present one. -/
theorem rebind_progress (h : m.Keeps (b.holdings (.bound b.stream) ++ T)) (stream : Stream) :
    m.Progress (b.holdings (.bound b.stream) ++ T) [.wait] True (b.rebind stream m).2
      (b.holdings (.bound stream) ++ T) := by
  obtain ⟨hp, hnone⟩ := Machine.progress_synchronize (h.emit (.reboundStream b.stream stream))
    b.stream
  exact progress_rebound hp.of_emit hnone (.bound stream)

/-! ## Copying ranges of elements -/

/-- A range of elements lies in the holding of the buffer. -/
theorem spans_position {t : Holding} (h : t.Spans b.data b.byteSize) {i k : Nat}
    (hik : i + k ≤ b.size) : t.Spans (b.position i) (k * b.dtype.width) := by
  refine ⟨h.1, ?_⟩
  have hle := Nat.mul_le_mul_right b.dtype.width hik
  rw [Nat.add_mul] at hle
  have hspan := h.2
  simp only [byteSize] at hspan
  simp only [position, Pointer.advance]
  omega

theorem inRange_eq_true {dst src : Buffer} {dstOffset srcOffset srcEnd : Nat} :
    inRange dst src dstOffset srcOffset srcEnd = true ↔ srcOffset ≤ srcEnd ∧ srcEnd ≤ src.size ∧
      dstOffset ≤ dst.size ∧ srcEnd - srcOffset ≤ dst.size - dstOffset := by
  simp [inRange, and_assoc]

/-- A range that is not empty fits only between buffers that are not empty. -/
theorem byteSize_ne_zero_of_inRange {dst src : Buffer} {dstOffset srcOffset srcEnd width : Nat}
    (hin : inRange dst src dstOffset srcOffset srcEnd = true)
    (hn : (srcEnd - srcOffset) * width ≠ 0) : dst.byteSize ≠ 0 ∧ src.byteSize ≠ 0 := by
  obtain ⟨-, hend, -, hroom⟩ := inRange_eq_true.mp hin
  have hpos : 0 < srcEnd - srcOffset := Nat.pos_of_mul_pos_right (Nat.pos_of_ne_zero hn)
  exact ⟨Nat.mul_ne_zero (by omega) (Nat.ne_of_gt dst.dtype.width_pos),
    Nat.mul_ne_zero (by omega) (Nat.ne_of_gt src.dtype.width_pos)⟩

/-- The copy of a range of elements. -/
def rangeCopy (dst src : Buffer) (dstOffset srcOffset srcEnd : Nat) : PendingCopy :=
  ⟨dst.position dstOffset, src.position srcOffset, (srcEnd - srcOffset) * src.dtype.width⟩

/-- The block of a proper buffer holds its bytes and nothing else. -/
theorem Proper.block_outlook (h : m.Keeps T) (hb : b.Proper) {use : Use}
    (hT : b.holdings use ⊆ T) (hn : b.byteSize ≠ 0) :
    b.data.offset = 0 ∧ m.outlook.memory.block? b.data.block = some (b.outlookBytes m.outlook) ∧
      (b.outlookBytes m.outlook).length = b.byteSize := by
  obtain ⟨a, ha, hbytes, hold⟩ := hb.holdings_eq hn use
  rw [hold] at hT
  have hlen := h.length_outlook (hT List.mem_cons_self)
  have hdata : b.data = ⟨a.block, 0⟩ := by
    unfold Buffer.data
    rw [ha]
    rfl
  cases hbl : m.outlook.memory.block? a.block with
  | none =>
    rw [show (⟨a, use⟩ : Holding).block = a.block from rfl, hbl] at hlen
    cases hlen
  | some bytes =>
    rw [show (⟨a, use⟩ : Holding).block = a.block from rfl, hbl] at hlen
    have hlen' : bytes.length = b.byteSize := (Option.some.inj hlen).trans hbytes
    have hread : b.outlookBytes m.outlook = bytes := by
      unfold outlookBytes Memory.read
      rw [hdata, hbl, ← hlen']
      simp
    rw [hread, hdata]
    exact ⟨rfl, hbl, hlen'⟩

theorem Proper.length_outlookBytes (h : m.Keeps T) (hb : b.Proper) {use : Use}
    (hT : b.holdings use ⊆ T) : (b.outlookBytes m.outlook).length = b.byteSize := by
  by_cases hn : b.byteSize = 0
  · rw [outlookBytes, hn, Memory.read_zero]
    rfl
  · exact (hb.block_outlook h hT hn).2.2

/-- After the copy of a range the destination holds its bytes with a part replaced. -/
theorem outlookBytes_rangeCopy (h : m.Keeps T) {dst src : Buffer} (hdst : dst.Proper)
    {use : Use} (hT : dst.holdings use ⊆ T) (hty : dst.dtype = src.dtype)
    {dstOffset srcOffset srcEnd : Nat}
    (hin : inRange dst src dstOffset srcOffset srcEnd = true) {o : Outlook}
    (ho : o.memory = m.outlook.memory) :
    dst.outlookBytes (o.afterAll (Effect.copies (rangeCopy dst src dstOffset srcOffset srcEnd))) =
      Memory.splice (dst.outlookBytes m.outlook) (dstOffset * src.dtype.width)
        (((src.outlookBytes m.outlook).drop (srcOffset * src.dtype.width)).take
          ((srcEnd - srcOffset) * src.dtype.width)) := by
  obtain ⟨h1, h2, h3, h4⟩ := inRange_eq_true.mp hin
  unfold Effect.copies
  split
  · next hz =>
    have hz' : (srcEnd - srcOffset) * src.dtype.width = 0 := hz
    rw [hz', List.take_zero, Memory.splice_nil, Outlook.afterAll_nil, outlookBytes, ho]
    rfl
  · next hz =>
    obtain ⟨hoff, hblock, hlen⟩ :=
      hdst.block_outlook h hT (byteSize_ne_zero_of_inRange hin hz).1
    -- What is read is a part of the source.
    have hpart : m.outlook.memory.read (src.position srcOffset)
        ((srcEnd - srcOffset) * src.dtype.width) =
        ((src.outlookBytes m.outlook).drop (srcOffset * src.dtype.width)).take
          ((srcEnd - srcOffset) * src.dtype.width) := by
      refine Memory.read_advance _ _ ?_
      rw [← Nat.add_mul]
      exact Nat.mul_le_mul_right _ (by omega)
    have hpos' : dst.position dstOffset = ⟨dst.data.block, dstOffset * src.dtype.width⟩ := by
      rw [position, Pointer.advance, hoff, hty, Nat.zero_add]
    have hdata : dst.data = ⟨dst.data.block, 0⟩ := by rw [← hoff]
    have hwrite := Memory.read_write_block (k := dstOffset * src.dtype.width)
      (((src.outlookBytes m.outlook).drop (srcOffset * src.dtype.width)).take
        ((srcEnd - srcOffset) * src.dtype.width)) hblock
    rw [hlen, ← hdata] at hwrite
    rw [← hwrite, ← hpart, ← hpos', ← ho]
    rfl

/-- The machine when the copy is issued: the destination is on the stream of the source. -/
def joined (dst src : Buffer) (m : Machine) : Machine :=
  if dst.stream = src.stream then m else (dst.rebind src.stream m).2

theorem pending_joined (h : m.Keeps T) {dst src : Buffer} {s : Stream} {c : PendingCopy}
    (hc : (joined dst src m).Pending s c) : m.Pending s c := by
  unfold joined at hc
  split at hc
  · exact hc
  · have hemit := h.emit (.reboundStream dst.stream src.stream)
    exact (Machine.settles_drain hemit dst.stream).1.pending s c hc

theorem copyRange_of_not_inRange (m : Machine) {dst src : Buffer}
    {dstOffset srcOffset srcEnd : Nat}
    (hin : inRange dst src dstOffset srcOffset srcEnd = false) :
    src.copyRange dstOffset srcOffset srcEnd (m, dst) =
      .error (.range dstOffset srcOffset srcEnd src.size dst.size) (m, dst) := by
  unfold copyRange
  simp only [hin, Bool.not_false, if_true]

/-- Ranges that fit are copied once the destination is on the stream of the source. -/
theorem copyRange_of_inRange (m : Machine) {dst src : Buffer}
    {dstOffset srcOffset srcEnd : Nat}
    (hin : inRange dst src dstOffset srcOffset srcEnd = true) :
    src.copyRange dstOffset srcOffset srcEnd (m, dst) =
      (transfer dst.location (dst.position dstOffset) src.location (src.position srcOffset)
        ((srcEnd - srcOffset) * src.dtype.width) src.stream).onFirst
          (joined dst src m, { dst with stream := src.stream }) := by
  unfold copyRange joined
  by_cases hs : dst.stream = src.stream
  · simp only [hin, hs, Bool.not_true, Bool.false_eq_true, if_false, if_true]
    rw [← hs]
  · simp only [hin, hs, Bool.not_true, Bool.false_eq_true, if_false]
    rfl

/-- A copy within the ranges of buffers on one stream is accepted. -/
theorem copyRange_of_stream_eq (h : m.Keeps T) {dst src : Buffer} {dstOffset srcOffset srcEnd : Nat}
    (hin : inRange dst src dstOffset srcOffset srcEnd = true) (hs : dst.stream = src.stream)
    (hty : dst.dtype = src.dtype) (hc : dst.byteSize ≠ 0 → src.byteSize ≠ 0 → ∃ t ∈ T, ∃ u ∈ T,
      t.location = dst.location ∧ u.location = src.location ∧ t.Spans dst.data dst.byteSize ∧
      u.Spans src.data src.byteSize ∧ t.use.Takes src.stream u.use ∧ u.use.Gives src.stream ∧
      (m.platform.defers (.between dst.location src.location) = false → t.use.IsFixed →
        m.Clear (rangeCopy dst src dstOffset srcOffset srcEnd))) :
    ∃ m', src.copyRange dstOffset srcOffset srcEnd (m, dst) = .ok () (m', dst) ∧
      m.Progress T (Effect.copies (rangeCopy dst src dstOffset srcOffset srcEnd))
        ((srcEnd - srcOffset) * src.dtype.width ≠ 0 →
          m.platform.defers (.between dst.location src.location) = false →
          m.Clear (rangeCopy dst src dstOffset srcOffset srcEnd)) m' T := by
  obtain ⟨h1, h2, h3, h4⟩ := inRange_eq_true.mp hin
  have hw := src.dtype.width_pos
  obtain ⟨m', ht, hp⟩ := transfer_ok h dst.location src.location
    (p := dst.position dstOffset) (q := src.position srcOffset)
    (n := (srcEnd - srcOffset) * src.dtype.width) (s := dst.stream) fun hn => by
      obtain ⟨hdst, hsrc⟩ := byteSize_ne_zero_of_inRange hin hn
      obtain ⟨t, ht, u, hu, htl, hul, htspan, huspan, htake, hgive, hfix⟩ := hc hdst hsrc
      refine ⟨t, ht, u, hu, htl, hul, ?_, spans_position huspan (by omega), hs ▸ htake,
        hs ▸ hgive, hfix⟩
      rw [← hty]
      exact spans_position htspan (by omega)
  refine ⟨m', ?_, hp⟩
  unfold copyRange
  simp only [hin, hs, Bool.not_true, Bool.false_eq_true, if_false, if_true]
  rw [hs] at ht
  exact Action.within_of_ok (g := Prod.fst) (s := (m, dst)) ht

/-- Between buffers on one stream a copy that is not put off is performed at once. -/
theorem copyRange_eq_of_not_defers {dst src dst' : Buffer} {dstOffset srcOffset srcEnd : Nat}
    (hin : inRange dst src dstOffset srcOffset srcEnd = true) (hs : dst.stream = src.stream)
    (h : src.copyRange dstOffset srcOffset srcEnd (m, dst) = .ok () (m', dst'))
    (hd : m.platform.defers (.between dst.location src.location) = false) :
    m'.memory = (m.runCopies [rangeCopy dst src dstOffset srcOffset srcEnd]).memory ∧
      m'.queues = m.queues := by
  unfold copyRange at h
  simp only [hin, hs, Bool.not_true, Bool.false_eq_true, if_false, if_true] at h
  cases ht : transfer dst.location (dst.position dstOffset) src.location (src.position srcOffset)
      ((srcEnd - srcOffset) * src.dtype.width) src.stream m with
  | error e m₁ =>
    rw [Action.onFirst_of_error ht] at h
    cases h
  | ok _ m₁ =>
    rw [Action.onFirst_of_ok ht] at h
    cases h
    exact transfer_eq_of_not_defers ht hd

/-- Between host buffers on one stream the copy is performed at once. -/
theorem copyRange_host {dst src : Buffer} {dstOffset srcOffset srcEnd : Nat}
    (hin : inRange dst src dstOffset srcOffset srcEnd = true) (hs : dst.stream = src.stream)
    (hdst : dst.location = .host) (hsrc : src.location = .host) (hlt : srcOffset < srcEnd) :
    ∃ m', src.copyRange dstOffset srcOffset srcEnd (m, dst) = .ok () (m', dst) ∧
      m'.memory = (m.runCopies [rangeCopy dst src dstOffset srcOffset srcEnd]).memory ∧
      m'.queues = m.queues := by
  have hn : (srcEnd - srcOffset) * src.dtype.width ≠ 0 :=
    Nat.mul_ne_zero (by omega) (Nat.ne_of_gt src.dtype.width_pos)
  have hdone := transfer_host m (p := dst.position dstOffset) (q := src.position srcOffset) hn
    src.stream
  refine ⟨((m.emit (.bufferCopy .hostToHost ((srcEnd - srcOffset) * src.dtype.width)
    src.stream)).runCopies [rangeCopy dst src dstOffset srcOffset srcEnd]).recordCopy .hostToHost
      ((srcEnd - srcOffset) * src.dtype.width), ?_, rfl, rfl⟩
  unfold copyRange
  simp only [hin, hs, hdst, hsrc, Bool.not_true, Bool.false_eq_true, if_false, if_true]
  exact Action.within_of_ok (g := Prod.fst) (s := (m, dst)) hdone

/-- Elements are copied as asked for, after the destination was brought onto the stream of the
source; or the ranges do not fit and nothing happens. -/
theorem copyRange_cases {dst src : Buffer} (h : m.Keeps (dst.holdings (.bound dst.stream) ++ T))
    (hdst : dst.Proper) (hsrc : src.Readable T) (hty : dst.dtype = src.dtype)
    (dstOffset srcOffset srcEnd : Nat) :
    (inRange dst src dstOffset srcOffset srcEnd = false ∧
      src.copyRange dstOffset srcOffset srcEnd (m, dst) =
        .error (.range dstOffset srcOffset srcEnd src.size dst.size) (m, dst)) ∨
    inRange dst src dstOffset srcOffset srcEnd = true ∧
    ∃ m', src.copyRange dstOffset srcOffset srcEnd (m, dst) =
        .ok () (m', { dst with stream := src.stream }) ∧
      m.Progress (dst.holdings (.bound dst.stream) ++ T)
        ((if dst.stream = src.stream then [] else [.wait]) ++
          Effect.copies (rangeCopy dst src dstOffset srcOffset srcEnd))
        ((srcEnd - srcOffset) * src.dtype.width ≠ 0 →
          m.platform.defers (.between dst.location src.location) = false →
          (joined dst src m).Clear (rangeCopy dst src dstOffset srcOffset srcEnd)) m'
        (dst.holdings (.bound src.stream) ++ T) := by
  cases hin : inRange dst src dstOffset srcOffset srcEnd with
  | false =>
    refine .inl ⟨rfl, ?_⟩
    unfold copyRange
    simp only [hin, Bool.not_false, if_true]
  | true =>
    refine .inr ⟨rfl, ?_⟩
    -- the same copy once both buffers are on one stream
    have hjoined : m.Progress (dst.holdings (.bound dst.stream) ++ T)
        (if dst.stream = src.stream then [] else [.wait]) True (joined dst src m)
        (dst.holdings (.bound src.stream) ++ T) := by
      unfold joined
      by_cases hs : dst.stream = src.stream
      · rw [if_pos hs, if_pos hs, ← hs]
        exact .refl h
      · rw [if_neg hs, if_neg hs]
        exact rebind_progress h src.stream
    have hin' : inRange { dst with stream := src.stream } src dstOffset srcOffset srcEnd = true :=
      hin
    obtain ⟨m', hcopy, hp⟩ := copyRange_of_stream_eq hjoined.keeps hin' rfl hty fun hd hsz => by
        obtain ⟨t, ht, huse, htloc, htspan, -⟩ :=
          hdst.holding (List.Subset.refl (dst.holdings (.bound src.stream))) hd
        obtain ⟨u, hu, huspan, huloc, hgive⟩ := hsrc hsz
        refine ⟨t, List.mem_append_left _ ht, u, List.mem_append_right _ hu, htloc, huloc, htspan,
          huspan, ?_, hgive, ?_⟩
        · rw [huse]
          rfl
        · rw [huse]
          exact fun _ hf => hf.elim
    refine ⟨m', ?_, (hjoined.trans hp).imp fun he => ⟨trivial, fun hn hd => he hn ?_⟩⟩
    · rw [← hcopy]
      unfold copyRange joined
      have hin' : inRange { dst with stream := src.stream } src dstOffset srcOffset srcEnd =
        true := hin
      by_cases hs : dst.stream = src.stream
      · simp only [hin, hin', hs, Bool.not_true, Bool.false_eq_true, if_false, if_true]
        rw [← hs]
      · simp only [hin, hin', hs, Bool.not_true, Bool.false_eq_true, if_false, if_true]
        rfl
    · rw [hjoined.platform] at hd
      exact hd

/-! ## Looking and writing without waiting -/

/-- What happens to storage when elements are written, if they fit. -/
def pokeEffects (b : Buffer) (index : Nat) (xs : List b.dtype.Value) : List Effect :=
  if index + xs.length ≤ b.size then Effect.writes (b.position index) (b.dtype.encode xs) else []

/-- If something is written, then to a buffer that is not empty. -/
theorem mem_pokeEffects {index : Nat} {xs : List b.dtype.Value} {e : Effect}
    (he : e ∈ b.pokeEffects index xs) :
    b.byteSize ≠ 0 ∧ e = .write (b.position index) (b.dtype.encode xs) := by
  unfold pokeEffects at he
  split at he
  · next hfit =>
    obtain ⟨hne, rfl⟩ := Effect.mem_writes.mp he
    have hw := b.dtype.width_pos
    have hlen : xs.length ≠ 0 := fun hz => hne (by
      rw [List.length_eq_zero_iff.mp hz]
      rfl)
    exact ⟨Nat.mul_ne_zero (by omega) (by omega), rfl⟩
  · cases he

/-- The elements of a host buffer are written at once if they fit; others cannot be written. -/
theorem poke_cases (h : m.Keeps (b.holdings (.bound b.stream) ++ T)) (hb : b.Proper)
    (index : Nat) (xs : List b.dtype.Value) :
    b.location = .device ∧ b.poke index xs m = .error (.notHostAccessible .device) m ∨
    b.location = .host ∧ ∃ m', b.poke index xs m = .ok () m' ∧
      m.Progress (b.holdings (.bound b.stream) ++ T) (b.pokeEffects index xs)
        (index + xs.length ≤ b.size → xs ≠ [] →
          m.Avoided (b.position index) (b.dtype.encode xs).length) m'
        (b.holdings (.bound b.stream) ++ T) := by
  unfold poke ensureHost pokeEffects
  cases hl : b.location with
  | device => exact .inl ⟨rfl, rfl⟩
  | host =>
    refine .inr ⟨rfl, ?_⟩
    by_cases hfit : index + xs.length ≤ b.size
    · simp only [if_pos hfit]
      refine ⟨b.storeBytes index (b.dtype.encode xs) m, rfl, ?_⟩
      · unfold Effect.writes storeBytes
        by_cases hnil : b.dtype.encode xs = []
        · rw [if_pos hnil, hnil, Memory.write_nil]
          exact (Machine.Progress.refl h).imp fun _ => trivial
        · rw [if_neg hnil]
          have hxs : xs ≠ [] := fun hz => hnil (by rw [hz]; rfl)
          have hn : b.byteSize ≠ 0 := by
            have hw := b.dtype.width_pos
            have hlen := List.length_pos_iff.mpr hxs
            exact Nat.mul_ne_zero (by omega) (by omega)
          obtain ⟨t, ht, huse, -, -, hdata⟩ :=
            hb.holding (List.Subset.refl (b.holdings (.bound b.stream))) hn
          have hblock : (b.position index).block = t.block := congrArg Pointer.block hdata
          refine (Machine.progress_write h (List.mem_append_left _ ht) hblock _ fun hf => ?_).imp
            fun hp => hp hfit hxs
          rw [huse] at hf
          exact hf.elim
    · simp only [if_neg hfit]
      exact ⟨m, rfl, (Machine.Progress.refl h).imp fun _ => trivial⟩

end Buffer

end DeviceBatch
