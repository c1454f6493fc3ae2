import DeviceBatch.Proofs.Addresses

/-!
# One stream for each buffer

Every copy that waits and touches the storage of a buffer waits on the stream that the buffer is
bound to, however the buffer came by its stream: it was made with it, copied or moved from another
buffer, bound to it for a copy, or is a staging buffer, an output or a delivered output. So once
that stream has been waited for, nothing is left that touches the buffer (`single_stream`).

Storage that a stream keeps alive is touched on that stream only, and what requests store is not
written at all.

A move or the adoption of a buffer by a tensor that fails while a copy waits for what it drops is
not among the steps to a reachable session. After it a copy of one stream can meet the storage of a
buffer of another, which was put where the dropped storage was (`failedMove_crosses_streams`).
-/

namespace DeviceBatch

open Local

/-! ## Owners -/

namespace Local

def Response.buffers (r : Response) : List Buffer := r.outputs.map DeliveredOutput.data

/-- The buffers of a batch: its outputs, its staging buffers, and what it has delivered. -/
def Batch.buffers (b : Batch) : List Buffer :=
  b.outputs.map (fun o => o.tensor.buffer) ++
    (b.held.inputs.staging ++ b.responses.flatMap Response.buffers)

end Local

theorem Buffer.mem_holdings_of_owned {b : Buffer} {a : Allocation} (ha : b.storage = .owned a)
    (hne : a.bytes ≠ 0) (use : Use) : ⟨a, use⟩ ∈ b.holdings use := by
  unfold holdings Allocation.holdings
  rw [ha]
  simp only [if_neg hne, List.mem_singleton]

namespace Session

variable {s : Session} {platform : Platform} {device : Nat} {b : Buffer} {a : Allocation}

/-- The buffers of a session that own storage; inputs of batches do not, and requests do not bind
theirs to a stream. -/
def owners (s : Session) : List Buffer :=
  (s.slots.filter fun p => !p.2.isInput).map (fun p => p.2.data) ++
    (s.batches.flatMap Local.Batch.buffers ++ s.kept.flatMap Response.buffers)

/-- The buffer owns storage of the session that copies of its stream use and no others. -/
structure Holds (s : Session) (b : Buffer) : Prop where
  proper : b.Proper
  held : ∃ use, (use = .bound b.stream ∨ use = .staged b.stream) ∧ b.holdings use ⊆ s.holdings

theorem Holds.of_bound (hp : b.Proper) (h : b.holdings (.bound b.stream) ⊆ s.holdings) :
    s.Holds b := ⟨hp, _, .inl rfl, h⟩

theorem holds_response {r : Response} (hr : r.Sound) (hheld : r.holdings ⊆ s.holdings)
    (hb : b ∈ r.buffers) : s.Holds b := by
  obtain ⟨o, ho, rfl⟩ := List.mem_map.mp hb
  exact .of_bound (hr o ho).1 fun t ht => hheld (List.mem_flatMap.mpr ⟨o, ho, ht⟩)

/-- What a batch has beyond its outputs is the same for all batches. -/
theorem holds_stock {batch : Local.Batch} {requests : List Request} (hs : batch.Sound requests)
    (hheld : batch.stock ⊆ s.holdings)
    (hb : b ∈ batch.held.inputs.staging ++ batch.responses.flatMap Response.buffers) :
    s.Holds b := by
  rcases List.mem_append.mp hb with hb | hb
  · obtain ⟨hproper, -, hstream⟩ := hs.staging b hb
    refine ⟨hproper, _, .inr rfl, fun t ht => hheld (List.mem_append_right _ ?_)⟩
    exact List.mem_flatMap.mpr ⟨b, hb, hstream ▸ ht⟩
  · obtain ⟨r, hr, hb⟩ := List.mem_flatMap.mp hb
    exact holds_response (hs.responses r hr)
      (fun t ht => hheld (List.mem_append_left _ (List.mem_flatMap.mpr ⟨r, hr, ht⟩))) hb

/-- What has a place and is no input. -/
theorem Sound.holds_site (hs : s.Sound) {p : Place × Resource} (hp : p ∈ s.sites)
    (hi : p.2.isInput = false) : s.Holds p.2.data :=
  .of_bound (hs.owned p hp hi) fun _ ht => mem_holdings_of_site hp ht

theorem Sound.holds_batch (hs : s.Sound) {batch : Local.Batch} (hbatch : batch ∈ s.batches)
    (hb : b ∈ batch.buffers) : s.Holds b := by
  rcases mem_batches.mp hbatch with hsome | ⟨p, hp, rfl⟩
  · rcases List.mem_append.mp hb with hb | hb
    · obtain ⟨o, ho, rfl⟩ := List.mem_map.mp hb
      exact hs.holds_site (mem_sites_of_output hsome ho) rfl
    · refine holds_stock (hs.batch batch hsome) (fun t ht => List.mem_append_right _ ?_) hb
      rw [stock_of_some hsome]
      exact List.mem_append_right _ (List.mem_append_left _ ht)
  · have hrest : p.2.holdings ⊆ s.holdings := fun t ht =>
      List.mem_append_right _ (List.mem_append_right _ (List.mem_append_right _
        (List.mem_append_left _ (List.mem_flatMap.mpr ⟨p, hp, ht⟩))))
    rcases List.mem_append.mp hb with hb | hb
    · obtain ⟨o, ho, rfl⟩ := List.mem_map.mp hb
      exact .of_bound ((hs.aside p hp).outputs o ho) fun t ht =>
        hrest (List.mem_append_right _ (List.mem_flatMap.mpr ⟨o, ho, ht⟩))
    · exact holds_stock (hs.aside p hp).batch
        (fun t ht => hrest (List.mem_append_left _ ht)) hb

theorem Sound.holds_owner (hs : s.Sound) (hb : b ∈ s.owners) : s.Holds b := by
  rcases List.mem_append.mp hb with hb | hb
  · obtain ⟨p, hp, rfl⟩ := List.mem_map.mp hb
    obtain ⟨hp, hi⟩ := List.mem_filter.mp hp
    exact hs.holds_site (mem_sites_of_slot hp) (by simpa using hi)
  rcases List.mem_append.mp hb with hb | hb
  · obtain ⟨batch, hbatch, hb⟩ := List.mem_flatMap.mp hb
    exact hs.holds_batch hbatch hb
  · obtain ⟨r, hr, hb⟩ := List.mem_flatMap.mp hb
    refine holds_response (hs.kept r hr) (fun t ht => ?_) hb
    exact List.mem_append_right _ (List.mem_append_right _ (List.mem_append_right _
      (List.mem_append_right _ (List.mem_flatMap.mpr ⟨r, hr, ht⟩))))

/-! ## Its stream and no other -/

variable {m : Machine} {stream : Stream} {c : PendingCopy}

/-- The storage of an owner, as a holding. -/
theorem Holds.exists_holding (h : s.Holds b) (ha : b.storage = .owned a) (hne : a.bytes ≠ 0) :
    ∃ t ∈ s.holdings, t.block = a.block ∧ (t.use = .bound b.stream ∨ t.use = .staged b.stream) := by
  obtain ⟨use, huse, hheld⟩ := h.held
  exact ⟨⟨a, use⟩, hheld (Buffer.mem_holdings_of_owned ha hne use), rfl, huse⟩

/-- As long as the storage of the session is kept, what touches an owner waits on its stream. -/
theorem Holds.stream_of_touches (h : s.Holds b) (ha : b.storage = .owned a) (hne : a.bytes ≠ 0)
    (hk : m.Keeps s.holdings) (hc : m.Pending stream c) (ht : c.Touches a.block) :
    stream = b.stream := by
  obtain ⟨t, hmem, hblock, huse⟩ := h.exists_holding ha hne
  exact (Machine.Orderly.stream_of_touches hk (Machine.Keeps.mem hmem) hc (hblock ▸ ht) huse).symm

/-- When nothing waits on the stream of an owner, nothing touches it. -/
theorem Holds.untouched (h : s.Holds b) (ha : b.storage = .owned a) (hne : a.bytes ≠ 0)
    (hk : m.Keeps s.holdings) (hidle : ∀ c, ¬ m.Pending b.stream c) : m.Untouched a.block :=
  fun _ c hc ht => hidle c (h.stream_of_touches ha hne hk hc ht ▸ hc)

end Session

/-! ## Waiting for it -/

/-- Nothing waits on a stream that has just been waited for. -/
theorem Machine.idle_synchronize (m : Machine) (stream : Stream) (c : PendingCopy) :
    ¬ (m.synchronize stream).Pending stream c := by
  rintro ⟨q, hq, -⟩
  have hmem := queues_drain m stream hq
  exact of_decide_eq_true (List.mem_filter.mp hmem).2 rfl

theorem Buffer.pending_of_release {b : Buffer} {m : Machine} {stream : Stream} {c : PendingCopy}
    (h : (b.release m).Pending stream c) : m.Pending stream c := by
  obtain ⟨q, hq, hc⟩ := h
  refine ⟨q, ?_, hc⟩
  unfold release at hq
  cases hs : b.storage with
  | owned a =>
    rw [hs] at hq
    exact Machine.queues_dropGuard m (.storage a) hq
  | borrowed location data =>
    rw [hs] at hq
    exact hq

/-- Once the elements of a buffer have been read, nothing waits on its stream. -/
theorem Buffer.idle_of_toList {b : Buffer} {m m' : Machine} {xs : List b.dtype.Value}
    (h : b.toList m = .ok xs m') (c : PendingCopy) : ¬ m'.Pending b.stream c := by
  have hfetch : ∃ bytes, b.fetchBytes m = .ok bytes m' := by
    obtain ⟨bytes, m₁, hf, hend⟩ := Action.bind_eq_ok h
    cases hend
    exact ⟨bytes, hf⟩
  obtain ⟨bytes, hf⟩ := hfetch
  unfold fetchBytes at hf
  cases hl : b.location with
  | host =>
    simp only [hl, Action.change_bind, Action.get_bind] at hf
    cases hf
    exact m.idle_synchronize b.stream c
  | device =>
    simp only [hl] at hf
    obtain ⟨host, m₁, -, hrest⟩ := Action.bind_eq_ok hf
    rw [Action.change_bind, Action.get_bind] at hrest
    cases hrest
    exact fun hp => m₁.idle_synchronize b.stream c (pending_of_release hp)

namespace Session

variable {s : Session} {platform : Platform} {device : Nat} {b : Buffer} {a : Allocation}

theorem Holds.readable (h : s.Holds b) : b.Readable s.holdings := by
  obtain ⟨use, huse, hheld⟩ := h.held
  intro hb
  obtain ⟨t, ht, htuse, hloc, hspan, -⟩ := h.proper.holding hheld hb
  refine ⟨t, ht, hspan, hloc, ?_⟩
  rw [htuse]
  rcases huse with rfl | rfl <;> rfl

theorem Holds.untouched_rebind (h : s.Holds b) (ha : b.storage = .owned a) (hne : a.bytes ≠ 0)
    (hk : s.machine.Keeps s.holdings) (stream : Stream) :
    (b.rebind stream s.machine).2.Untouched a.block := by
  obtain ⟨hp, hidle⟩ := Machine.progress_synchronize (hk.emit (.reboundStream b.stream stream))
    b.stream
  exact h.untouched ha hne hp.keeps hidle

theorem Holds.untouched_toList (h : s.Holds b) (ha : b.storage = .owned a) (hne : a.bytes ≠ 0)
    (hk : s.machine.Keeps s.holdings) {xs : List b.dtype.Value} {m : Machine}
    (hm : b.toList s.machine = .ok xs m) : m.Untouched a.block := by
  refine h.untouched ha hne ?_ (Buffer.idle_of_toList hm)
  unfold Buffer.toList at hm
  rcases Buffer.fetchBytes_cases hk h.readable with ⟨e, -, -, he⟩ | ⟨m', hf, hp⟩
  · rw [Action.bind_of_error he] at hm
    cases hm
  · rw [Action.bind_of_ok hf] at hm
    cases hm
    exact hp.keeps

/-- In every reachable session, what waits and touches the storage of a buffer waits on the stream
of the buffer, so nothing touches it any more once that stream was waited for, be it to bind the
buffer to another one or to read it. What waits and touches storage that a stream keeps alive waits
on that stream. What requests store is only read. And what waits is for the storage it was issued
for, wherever blocks lie.

No step to a reachable session is a move or a tensor adoption that fails and drops host storage
while a waiting copy touches it. -/
theorem single_stream (h : Reachable platform device s) :
    (∀ b ∈ s.owners, ∀ a, b.storage = .owned a → a.bytes ≠ 0 →
      (∀ stream c, s.machine.Pending stream c → c.Touches a.block → stream = b.stream) ∧
      (∀ stream, (b.rebind stream s.machine).2.Untouched a.block) ∧
      ∀ xs m, b.toList s.machine = .ok xs m → m.Untouched a.block) ∧
    (∀ p ∈ s.machine.queues, ∀ a, .storage a ∈ p.2.guards → a.bytes ≠ 0 →
      ∀ stream c, s.machine.Pending stream c → c.Touches a.block → stream = p.1) ∧
    (∀ r ∈ s.requests, ∀ i ∈ r.inputs, ∀ a, i.data.storage = .owned a → a.bytes ≠ 0 →
      s.machine.Unwritten a.block) ∧
    ∀ address, s.machine.memory.Placed address → s.machine.readdressed address = s.machine := by
  have hs := h.sound
  refine ⟨fun b hb a ha hne => ?_, fun p hp a hg hne stream c hc ht => ?_,
    fun r hr i hi a ha hne => ?_, fun _ => h.readdressed_eq⟩
  · have hholds := hs.holds_owner hb
    exact ⟨fun stream c hc ht => hholds.stream_of_touches ha hne hs.keeps hc ht,
      hholds.untouched_rebind ha hne hs.keeps,
      fun xs m hm => hholds.untouched_toList ha hne hs.keeps hm⟩
  · have hkept : (⟨a, .bound p.1⟩ : Holding) ∈ s.machine.queues.kept :=
      List.mem_flatMap.mpr ⟨p, hp, List.mem_filterMap.mpr
        ⟨.storage a, hg, Guard.holding?_eq_some.mpr ⟨rfl, hne, rfl⟩⟩⟩
    exact (Machine.Orderly.stream_of_touches hs.keeps (List.mem_append_right _ hkept) hc ht
      (.inl rfl)).symm
  · have hheld : (⟨a, .stored⟩ : Holding) ∈ r.holdings :=
      List.mem_flatMap.mpr ⟨i, hi, Buffer.mem_holdings_of_owned ha hne .stored⟩
    exact Machine.Orderly.unwritten_of_stored hs.keeps
      (Machine.Keeps.mem (mem_holdings_of_requests hr hheld)) rfl

/-- A copy on some stream touches the storage of the buffer. -/
def isTouched (s : Session) (b : Buffer) : Bool :=
  match b.storage with
  | .owned a => a.bytes != 0 && s.machine.queues.any fun p => p.2.copies.any fun c =>
      c.dst.block == a.block || c.src.block == a.block
  | .borrowed .. => false

/-- While copies of three streams wait, those that touch the buffer that was moved to the host wait
on its stream, and none does after it was bound to another one. -/
theorem bustle_on_streams :
    let s := ((start (.simulated ⟨2, 64, true⟩) 0).performAll bustle).2
    Reachable (.simulated ⟨2, 64, true⟩) 0 s ∧ s.machine.queues.map Prod.fst = [⟨3⟩, ⟨4⟩, ⟨5⟩] ∧
      ∃ b ∈ s.owners, b.stream = ⟨5⟩ ∧ s.isTouched b ∧ ∃ a, b.storage = .owned a ∧
        (∀ stream c, s.machine.Pending stream c → c.Touches a.block → stream = ⟨5⟩) ∧
        (b.rebind ⟨6⟩ s.machine).2.Untouched a.block := by
  intro s
  have hfound : s.owners.any (fun b => b.stream == ⟨5⟩ && s.isTouched b) = true := by
    decide +kernel
  obtain ⟨b, hb, hfound⟩ := List.any_eq_true.mp hfound
  obtain ⟨hstream, htouched⟩ := Bool.and_eq_true_iff.mp hfound
  have hstream : b.stream = ⟨5⟩ := eq_of_beq hstream
  refine ⟨reachable_bustle, by decide +kernel, b, hb, hstream, htouched, ?_⟩
  unfold isTouched at htouched
  cases hstorage : b.storage with
  | borrowed location data =>
    rw [hstorage] at htouched
    cases htouched
  | owned a =>
    rw [hstorage] at htouched
    have hne : a.bytes ≠ 0 := by simpa using (Bool.and_eq_true_iff.mp htouched).1
    obtain ⟨honly, hrebind, -⟩ := (single_stream reachable_bustle).1 b hb a hstorage hne
    exact ⟨a, rfl, fun stream c hc ht => (honly stream c hc ht).trans hstream, hrebind ⟨6⟩⟩

/-- A copy of a host buffer waits, a move of the buffer fails, and a buffer is made on another
stream. -/
def crossed : List Command := failedMove ++ [
  .buffer (.moveTo "moved" "near" .device),
  .buffer (.ofList "next" .uint8 [8] .host 0 ⟨5⟩)]

/-- The new buffer may lie where the one was that the move dropped, and then the copy that still
waits on the first stream reads it, although it is on the other stream. -/
theorem failedMove_crosses_streams :
    let start := Session.start (.simulated ⟨1, 1, true⟩) 0
    let s := (start.performAll crossed).2
    let address := Memory.reusing 1 3
    start.CallerPermits address crossed ∧ ∃ b ∈ s.owners, ∃ a c, b.storage = .owned a ∧
      a.bytes ≠ 0 ∧ b.stream = ⟨5⟩ ∧ (s.machine.readdressed address).Pending .standard c ∧
      c.Touches a.block := by
  intro start s address
  have hpermits : start.CallerPermits address crossed :=
    ⟨by decide +kernel, ⟨show Free _ "near" by decide +kernel, trivial⟩,
      by decide +kernel, ⟨show Free _ "far" by decide +kernel, trivial⟩,
      by decide +kernel, callerPermitted_moveTo (by decide +kernel) (by decide +kernel),
      by decide +kernel, ⟨show Free _ "next" by decide +kernel, trivial⟩,
      show Memory.Placed address _ by decide +kernel⟩
  have howner : ⟨.owned ⟨3, 1, .host, 0⟩, .uint8, 1, 0, ⟨5⟩⟩ ∈ s.owners := by decide +kernel
  have hqueue : (.standard, ⟨[⟨⟨2, 0⟩, ⟨3, 0⟩, 1⟩], []⟩) ∈
      (s.machine.readdressed address).queues := by
    decide +kernel
  exact ⟨hpermits, _, howner, ⟨3, 1, .host, 0⟩, _, rfl, by decide, rfl,
    ⟨_, hqueue, List.mem_cons_self⟩, .inr rfl⟩

end Session

end DeviceBatch
