import DeviceBatch.Proofs.Copying
import DeviceBatch.Proofs.Moving
import DeviceBatch.Proofs.Widths

/-!
# What an input costs

An input of a batch that is given out has cost nothing if there is only one request and it stores
the input where it is wanted, or if there are no bytes. Otherwise one block was given out, of as
many bytes as all requests store, and one copy into it was issued for each request that stores any
(`Gather.Spends`). The copies that need not wait have been performed in the order of the requests,
and the others stand in that order behind those of the stream of the batch (`Gather.issuedCopies`).

All that happens to the machine on the way is that copies into one block are issued on one stream,
for the new buffer and the views of the stored inputs are on the same stream, so that no copy brings
it to another one. This is what `Machine.Poured` says and what the steps of `Gather.fillFrom` keep.
-/

namespace DeviceBatch

open Local

/-! ## Copies that are issued -/

namespace Machine

variable {m m' m'' : Machine} {block count count' bytes bytes' : Nat} {stream : Stream}
  {done done' new new' : List PendingCopy}

/-- Copies were issued on a stream. Some of them are done, the others wait behind those that waited
before, and nothing was given out or taken back. -/
structure Queued (m : Machine) (stream : Stream) (done new : List PendingCopy) (m' : Machine) :
    Prop where
  platform : m'.platform = m.platform
  memory : m'.memory = m.memory.run done
  live : m'.live = m.live
  used : m'.used = m.used
  counted : m'.stats = { m.stats with
    copies := m'.stats.copies
    copiedBytes := m'.stats.copiedBytes }
  kept : m'.queues.owned = m.queues.owned
  queues : ∀ s, m'.queues.get s =
    let q := m.queues.get s
    if s = stream then { q with copies := q.copies ++ new } else q

namespace Queued

theorem refl (m : Machine) (stream : Stream) : m.Queued stream [] [] m where
  platform := rfl
  memory := rfl
  live := rfl
  used := rfl
  counted := rfl
  kept := rfl
  queues s := by simp

theorem trans (h : m.Queued stream done new m') (h' : m'.Queued stream done' new' m'') :
    m.Queued stream (done ++ done') (new ++ new') m'' where
  platform := h'.platform.trans h.platform
  memory := by rw [h'.memory, h.memory, Memory.run_append]
  live := h'.live.trans h.live
  used := h'.used.trans h.used
  counted := by rw [h'.counted, h.counted]
  kept := h'.kept.trans h.kept
  queues s := by
    rw [h'.queues s, h.queues s]
    by_cases hs : s = stream
    · simp only [if_pos hs, List.append_assoc]
    · simp only [if_neg hs]

theorem lengths (h : m.Queued stream done new m') (k : Nat) :
    (m'.memory.block? k).map List.length = (m.memory.block? k).map List.length := by
  rw [h.memory, Memory.length_block?_run]

theorem next (h : m.Queued stream done new m') : m'.memory.next = m.memory.next := by
  rw [h.memory, Memory.next_run]

end Queued

/-- The copy of a range waits behind the others of its stream, or it has been performed. -/
theorem queued_issued (dst src : Buffer) (dstOffset srcOffset srcEnd : Nat) (m : Machine) :
    let c := Buffer.rangeCopy dst src dstOffset srcOffset srcEnd
    let defers := m.platform.defers (.between dst.location src.location)
    m.Queued src.stream (if defers = false then [c] else []) (if defers = true then [c] else [])
      (Buffer.issued dst src dstOffset srcOffset srcEnd m) := by
  intro c defers
  cases hd : defers with
  | true =>
    rw [Buffer.issued_of_defers hd, if_neg (Ne.symm Bool.false_ne_true), if_pos rfl]
    refine ⟨rfl, rfl, rfl, rfl, rfl, ?_, fun s => ?_⟩
    · have hsame := Queues.owned_update (X := 0)
        (f := fun q => { q with copies := q.copies ++ [c] })
        (fun q => (add_zero _).symm) src.stream m.queues
      exact hsame.trans (add_zero _)
    · refine (Queues.get_update src.stream s _ m.queues).trans ?_
      by_cases hs : s = src.stream
      · simp [hs, c]
      · simp [hs]
  | false =>
    rw [Buffer.issued_of_not_defers hd, if_pos rfl, if_neg Bool.false_ne_true]
    exact ⟨rfl, rfl, rfl, rfl, rfl, rfl, (Queued.refl m src.stream).queues⟩

/-- Copies into one block were issued on a stream. They were counted, and no other block has
changed; if there were none, nothing has. -/
structure Poured (m : Machine) (block : Nat) (stream : Stream) (done new : List PendingCopy)
    (count bytes : Nat) (m' : Machine) : Prop extends m.Queued stream done new m' where
  blocks : ∀ k, k ≠ block → m'.memory.block? k = m.memory.block? k
  copies : m'.stats.copies = m.stats.copies + count
  copiedBytes : m'.stats.copiedBytes = m.stats.copiedBytes + bytes
  idle : count = 0 → m' = m

namespace Poured

theorem refl (m : Machine) (block : Nat) (stream : Stream) :
    m.Poured block stream [] [] 0 0 m where
  toQueued := .refl m stream
  blocks _ _ := rfl
  copies := rfl
  copiedBytes := rfl
  idle _ := rfl

theorem trans (h : m.Poured block stream done new count bytes m')
    (h' : m'.Poured block stream done' new' count' bytes' m'') :
    m.Poured block stream (done ++ done') (new ++ new') (count + count') (bytes + bytes') m'' where
  toQueued := h.toQueued.trans h'.toQueued
  blocks k hk := (h'.blocks k hk).trans (h.blocks k hk)
  copies := by rw [h'.copies, h.copies, Nat.add_assoc]
  copiedBytes := by rw [h'.copiedBytes, h.copiedBytes, Nat.add_assoc]
  idle hz := (h'.idle (by omega)).trans (h.idle (by omega))

end Poured

theorem poured_issued (dst src : Buffer) (dstOffset srcOffset srcEnd : Nat) (m : Machine) :
    let c := Buffer.rangeCopy dst src dstOffset srcOffset srcEnd
    let defers := m.platform.defers (.between dst.location src.location)
    m.Poured dst.data.block src.stream
      (if defers = false then [c] else []) (if defers = true then [c] else [])
      1 ((srcEnd - srcOffset) * src.dtype.width)
      (Buffer.issued dst src dstOffset srcOffset srcEnd m) := by
  intro c defers
  have hqueued := queued_issued dst src dstOffset srcOffset srcEnd m
  refine ⟨hqueued, fun k hk => ?_, ?_, ?_, fun hz => absurd hz Nat.one_ne_zero⟩
  · rw [hqueued.memory]
    refine Memory.block?_run _ fun d hd => ?_
    split at hd
    · rw [List.mem_singleton.mp hd]
      exact hk.symm
    · cases hd
  · dsimp only [Buffer.issued]
    split <;> rfl
  · dsimp only [Buffer.issued]
    split <;> rfl

/-- What is reported of a block makes no difference to how it was given out. -/
theorem Allocated.emit {location : Location} {device : Nat}
    (h : m.Allocated bytes location device m') (event : Event) :
    (m.emit event).Allocated bytes location device (m'.emit event) :=
  ⟨h.platform, h.memory, h.queues, h.stats, h.metrics, congrArg (Array.push · event) h.events,
    h.strays, h.table⟩

end Machine

namespace Local

variable {m m' : Machine} {g g' : Buffer} {device offset : Nat} {location : Location}
  {stream : Stream} {part : StoredInput} {parts : List StoredInput}

namespace Gather

/-! ## Filling a buffer -/

/-- The copies of the parts into a buffer, one behind the other. -/
def partCopies (g : Buffer) (stream : Stream) (offset : Nat) : List StoredInput → List PendingCopy
  | [] => []
  | part :: rest =>
    partCopy g stream offset part :: partCopies g stream (offset + part.data.size) rest

/-- Those of them that a platform puts off, or those that it performs at once. It defers copies that
touch a device, and no bytes are never copied. -/
def issuedCopies (platform : Platform) (deferred : Bool) (g : Buffer) (stream : Stream)
    (offset : Nat) : List StoredInput → List PendingCopy
  | [] => []
  | part :: rest =>
    (if part.data.byteSize ≠ 0 ∧
        platform.defers (.between g.location part.data.location) = deferred then
      [partCopy g stream offset part] else []) ++
        issuedCopies platform deferred g stream (offset + part.data.size) rest

theorem issuedCopies_sublist (platform : Platform) (deferred : Bool) (g : Buffer) (stream : Stream)
    (offset : Nat) (parts : List StoredInput) :
    (issuedCopies platform deferred g stream offset parts).Sublist
      (partCopies g stream offset parts) := by
  induction parts generalizing offset with
  | nil => exact .slnil
  | cons part rest ih =>
    have hfirst : (if part.data.byteSize ≠ 0 ∧
        platform.defers (.between g.location part.data.location) = deferred then
          [partCopy g stream offset part] else []).Sublist [partCopy g stream offset part] := by
      split
      · exact List.Sublist.refl _
      · exact List.nil_sublist _
    exact hfirst.append (ih _)

/-- How many of the parts have bytes. -/
def filledCount (parts : List StoredInput) : Nat := parts.countP fun part => part.data.byteSize ≠ 0

theorem filledCount_eq_zero (h : (parts.map fun part => part.data.byteSize).sum = 0) :
    filledCount parts = 0 := by
  refine List.countP_eq_zero.mpr fun part hpart => ?_
  have hz : part.data.byteSize = 0 :=
    List.sum_eq_zero_iff.mp h _ (List.mem_map_of_mem hpart)
  simp [hz]

/-- One part is copied into a buffer that is on the stream. -/
theorem copyRange_poured (hstream : g.stream = stream)
    (hrun : (source stream part).copyRange offset 0 part.data.size (m, g) = .ok () (m', g')) :
    g' = g ∧ m.Poured g.data.block stream
      (issuedCopies m.platform false g stream offset [part])
      (issuedCopies m.platform true g stream offset [part])
      (filledCount [part]) part.data.byteSize m' := by
  obtain ⟨hg, hm⟩ := Buffer.copyRange_eq_ok hrun
  have hsame : { g with stream := (source stream part).stream } = g := by
    rw [show (source stream part).stream = stream from rfl, ← hstream]
  have hjoined : Buffer.joined g (source stream part) m = m := if_pos hstream
  have hbytes : (part.data.size - 0) * (source stream part).dtype.width = part.data.byteSize := rfl
  rw [hjoined, hbytes] at hm
  refine ⟨hg.trans hsame, ?_⟩
  by_cases hz : part.data.byteSize = 0
  · rw [if_pos hz] at hm
    rw [hm]
    simpa [issuedCopies, filledCount, hz] using Machine.Poured.refl m g.data.block stream
  · rw [if_neg hz] at hm
    rw [hm]
    have hissued : ∀ deferred, issuedCopies m.platform deferred g stream offset [part] =
        if m.platform.defers (.between g.location part.data.location) = deferred then
          [partCopy g stream offset part] else [] := fun deferred => by
      simp [issuedCopies, hz]
    have hcount : filledCount [part] = 1 := by simp [filledCount, hz]
    rw [hissued, hissued, hcount]
    exact Machine.poured_issued g (source stream part) offset 0 part.data.size m

/-- A buffer is filled by one copy for each part that has bytes. -/
theorem fillFrom_poured (hstream : g.stream = stream)
    (hrun : fillFrom stream offset parts (m, g) = .ok () (m', g')) :
    g' = g ∧ m.Poured g.data.block stream
      (issuedCopies m.platform false g stream offset parts)
      (issuedCopies m.platform true g stream offset parts)
      (filledCount parts) (parts.map fun part => part.data.byteSize).sum m' := by
  induction parts generalizing m offset with
  | nil =>
    cases hrun
    exact ⟨rfl, .refl _ g.data.block stream⟩
  | cons part rest ih =>
    obtain ⟨_, ⟨m₁, g₁⟩, hfirst, hnext⟩ := Action.bind_eq_ok hrun
    obtain ⟨rfl, hone⟩ := copyRange_poured hstream hfirst
    obtain ⟨rfl, hrest⟩ := ih hnext
    refine ⟨rfl, ?_⟩
    rw [hone.platform] at hrest
    have hall := hone.trans hrest
    simpa [issuedCopies, filledCount, List.countP_cons, Nat.add_comm] using hall

/-! ## The new buffer -/

/-- The parts were gathered into a new buffer. Its block is the only storage that was given out, all
other blocks are as before, and one copy was issued for each part that has bytes: those that had to
wait stand at the end of one queue, and the new block holds what the others have written into it. -/
structure Spends (m : Machine) (parts : List StoredInput) (location : Location) (device : Nat)
    (stream : Stream) (g : Buffer) (m' : Machine) : Prop where
  buffer : let total := (parts.map fun part => part.data.byteSize).sum
    g = ⟨.owned ⟨m.memory.next, total, location, device⟩, .uint8, total, device, stream⟩
  platform : m'.platform = m.platform
  stats : m'.stats = { m.stats with
    allocations := m.stats.allocations + 1
    liveBytes := m.stats.liveBytes + g.byteSize
    copies := m.stats.copies + filledCount parts
    copiedBytes := m.stats.copiedBytes + g.byteSize }
  /-- The block was given out full of zeros, then the copies that need not wait were performed. -/
  memory : m'.memory = (m.memory.alloc (List.replicate g.byteSize 0)).run
    (issuedCopies m.platform false g stream 0 parts)
  next : m'.memory.next = m.memory.next + 1
  fresh : (m'.memory.block? m.memory.next).map List.length = some g.byteSize
  blocks : ∀ k, k ≠ m.memory.next → m'.memory.block? k = m.memory.block? k
  /-- Device storage is entered into the table, host storage is not. -/
  table : location = .host ∧ m'.live = m.live ∧ m'.used = m.used ∨
    location = .device ∧ ∃ used, m.used[device]? = some used ∧
      m'.live = m.live ++ [⟨m.memory.next, g.byteSize, device⟩] ∧
      m'.used = m.used.set device (used + g.byteSize)
  queues : ∀ s, m'.queues.get s =
    let q := m.queues.get s
    if s = stream then
      { q with copies := q.copies ++ issuedCopies m.platform true g stream 0 parts } else q

/-- What is reported makes no difference. -/
theorem Spends.of_events {m₁ m₂ : Machine} (h : Spends m₁ parts location device stream g m')
    (hm : m₁ = { m with events := m₁.events }) (hm' : m₂ = { m' with events := m₂.events }) :
    Spends m parts location device stream g m₂ := by
  rw [hm] at h
  rw [hm']
  exact ⟨h.buffer, h.platform, h.stats, h.memory, h.next, h.fresh, h.blocks, h.table, h.queues⟩

/-- A block that was given out and the copies into it. -/
theorem spends_of_poured {m₀ : Machine} {total : Nat}
    (htotal : total = (parts.map fun part => part.data.byteSize).sum)
    (hg : g = ⟨.owned ⟨m.memory.next, total, location, device⟩, .uint8, total, device, stream⟩)
    (hgiven : m.Allocated total location device m₀)
    (hpoured : m₀.Poured g.data.block stream
      (issuedCopies m₀.platform false g stream 0 parts)
      (issuedCopies m₀.platform true g stream 0 parts) (filledCount parts) total m') :
    Spends m parts location device stream g m' := by
  have hsize : g.byteSize = total := by
    rw [hg]
    exact Nat.mul_one total
  have hblock : g.data.block = m.memory.next := by rw [hg]; rfl
  rw [hblock, hgiven.platform] at hpoured
  have hnew : ∀ k, m₀.memory.block? k =
      if k = m.memory.next then some (List.replicate total 0) else m.memory.block? k := by
    intro k
    rw [hgiven.memory, Memory.block?_alloc]
  refine ⟨?_, ?_, ?_, ?_, ?_, ?_, ?_, ?_, ?_⟩
  · rw [← htotal]
    exact hg
  · rw [hpoured.platform, hgiven.platform]
  · rw [hpoured.counted, hpoured.copies, hpoured.copiedBytes, hgiven.stats, hsize]
    rfl
  · rw [hpoured.memory, hgiven.memory, hsize]
  · rw [hpoured.next, hgiven.memory, Memory.next_alloc]
  · rw [hpoured.lengths, hnew, if_pos rfl, hsize]
    simp
  · intro k hk
    rw [hpoured.blocks k hk, hnew, if_neg hk]
  · rw [hpoured.live, hpoured.used, hsize]
    exact hgiven.table
  · intro s
    rw [hpoured.queues, hgiven.queues]

/-- Parts that were put one behind the other have cost nothing but the report if they have no bytes,
and otherwise one block and a copy for each part that has bytes. -/
theorem concatenate_eq_ok (hrun : concatenate parts location device stream m = .ok g m') :
    let total := (parts.map fun part => part.data.byteSize).sum
    (∃ block, g = ⟨.owned ⟨block, total, location, device⟩, .uint8, total, device, stream⟩) ∧
      (total = 0 ∧ m' = { m with events := m'.events } ∨
        total ≠ 0 ∧ Spends m parts location device stream g m') := by
  intro total
  have hbytes : total * ElementType.uint8.width = total := Nat.mul_one total
  obtain ⟨g₁, m₁, hmade, hnext⟩ := Action.bind_eq_ok hrun
  have halloc : Buffer.allocate .uint8 total location device stream m = .ok g₁ m₁ := hmade
  cases hfill : fillFrom stream 0 parts (m₁, g₁) with
  | error e p =>
    rw [hfill] at hnext
    cases hnext
  | ok _ p =>
    rw [hfill] at hnext
    cases hnext
    obtain ⟨hg, hgiven⟩ := Buffer.allocate_eq_ok halloc
    rw [hbytes] at hg hgiven
    have hstream : g₁.stream = stream := by rw [hg]
    obtain ⟨hsame, hpoured⟩ := fillFrom_poured hstream hfill
    rw [hsame]
    refine ⟨⟨g₁.data.block, hg⟩, ?_⟩
    rcases hgiven with ⟨hz, hm₁⟩ | ⟨hn, hblock, m₀, hgiven, hm₁⟩
    · -- Nothing was given out, and nothing was copied either.
      have hidle := hpoured.idle (filledCount_eq_zero hz)
      rw [hidle, hm₁]
      exact .inl ⟨hz, rfl⟩
    · rw [hblock] at hg
      rw [hm₁] at hpoured
      have hspends := spends_of_poured (m := m.emit _) rfl hg (hgiven.emit _) hpoured
      exact .inr ⟨hn, hspends.of_events rfl rfl⟩

/-! ## Collecting -/

/-- There is one part only, and it lies where it is wanted. Host memory is the same for all
devices. -/
def InPlace (parts : List StoredInput) (location : Location) (device : Nat) : Prop :=
  ∃ single, parts = [single] ∧ single.data.location = location ∧
    (location = .device → single.data.device = device)

theorem inPlace_of_inPlace? (h : inPlace? parts location device = some part) :
    InPlace parts location device := by
  obtain ⟨rfl, hlocation⟩ := eq_of_inPlace? h
  refine ⟨part, rfl, hlocation, ?_⟩
  rintro rfl
  simpa [inPlace?, liesAt, hlocation, Location.isHost] using h

theorem not_inPlace_of_inPlace? (h : inPlace? parts location device = none) :
    ¬ InPlace parts location device := by
  rintro ⟨single, rfl, hlocation, hdevice⟩
  cases location with
  | host => simp [inPlace?, liesAt, hlocation, Location.isHost] at h
  | device => simp [inPlace?, liesAt, hlocation, hdevice rfl] at h

theorem aimed_eq (m : Machine) (query : InputQuery) :
    aimed m query = { m with events := (aimed m query).events } := by
  unfold aimed
  split
  · rfl
  · rfl

/-- What was done to collect an input: it is used in place, or put into one staging buffer. -/
theorem collect_eq_ok {requests : List Request} {query : InputQuery} {gather gather' : Gather}
    {c : CollectedInput} (hrun : collect requests query (m, gather) = .ok c (m', gather')) :
    ∃ parts new, requests.mapM (fun r => r.input query.name) = .ok parts ∧
      gather' = { gather with staging := gather.staging ++ new } ∧
      c.byteSize = (parts.map fun part => part.data.byteSize).sum ∧
      (c.location, c.device) = target m query ∧
      (InPlace parts (target m query).1 (target m query).2 ∧ new = [] ∧
          m' = { m with events := m'.events } ∨
        ¬ InPlace parts (target m query).1 (target m query).2 ∧ ∃ g, new = [g] ∧
          ((parts.map fun part => part.data.byteSize).sum = 0 ∧ m' = { m with events := m'.events } ∨
            (parts.map fun part => part.data.byteSize).sum ≠ 0 ∧
              Spends m parts (target m query).1 (target m query).2 query.stream g m')) := by
  have haim := aimed_eq m query
  cases hparts : requests.mapM (fun r => r.input query.name) with
  | error e =>
    rw [collect_of_missing hparts] at hrun
    cases hrun
  | ok parts =>
    refine ⟨parts, ?_⟩
    cases hin : inPlace? parts (target m query).1 (target m query).2 with
    | some single =>
      rw [collect_of_inPlace hparts hin] at hrun
      cases hrun
      obtain ⟨rfl, -⟩ := eq_of_inPlace? hin
      refine ⟨[], rfl, by simp, by simp, rfl, .inl ⟨inPlace_of_inPlace? hin, rfl, ?_⟩⟩
      rw [haim]
      rfl
    | none =>
      cases hgather : concatenate parts (target m query).1 (target m query).2 query.stream
          (aimed m query) with
      | error e m₁ =>
        rw [collect_of_error hparts hin hgather] at hrun
        cases hrun
      | ok g m₁ =>
        rw [collect_of_ok hparts hin hgather] at hrun
        cases hrun
        obtain ⟨⟨block, hg⟩, hcost⟩ := concatenate_eq_ok hgather
        have hsize : g.size = (parts.map fun part => part.data.byteSize).sum := by rw [hg]
        refine ⟨[g], rfl, rfl, hsize, rfl, .inr ⟨not_inPlace_of_inPlace? hin, g, rfl, ?_⟩⟩
        rcases hcost with ⟨hz, hm₁⟩ | ⟨hn, hspends⟩
        · refine .inl ⟨hz, ?_⟩
          rw [hm₁, haim]
          rfl
        · exact .inr ⟨hn, hspends.of_events haim rfl⟩

end Gather

/-! ## An input that is given out -/

namespace Batch

variable {b b' : Batch} {name : String} {dtype : ElementType} {t : Tensor}

/-- What is taken for the input lies where it was asked for. -/
theorem target_of_toBuffer {query : InputQuery} {c : CollectedInput} {buffer : Buffer}
    (htarget : (c.location, c.device) = Gather.target m query)
    (h : c.toBuffer dtype query = .ok buffer) :
    Gather.target m query = (query.location, query.device) := by
  unfold Gather.target at htarget ⊢
  split
  · next hc =>
    -- Then the input lies on the host, but was asked for on a device.
    rw [if_pos hc] at htarget
    rw [Bool.and_eq_true] at hc
    have hlocation : c.location = .host := congrArg Prod.fst htarget
    unfold CollectedInput.toBuffer at h
    rw [if_pos] at h
    · cases h
    · left
      rw [hlocation]
      intro heq
      rw [← heq] at hc
      cases hc.1
  · rfl

/-- An input is given out as what was collected for it. -/
theorem getInput_eq_ok
    (hrun : DeviceBatch.Batch.getInput exchange name dtype location device (m, b) =
      .ok t (m', b')) :
    ∃ bytes c m₁ gather,
      Gather.collect b.requests ⟨name, bytes, location, device, b.stream⟩ (m, b.held.inputs) =
        .ok c (m₁, gather) ∧
      c.toBuffer dtype ⟨name, bytes, location, device, b.stream⟩ = .ok t.buffer ∧
      m' = { m₁ with events := m'.events } ∧
      b' = { b with held := { b.held with inputs := gather } } := by
  cases hshape : b.combinedShape exchange name with
  | error e =>
    rw [getInput_of_shape_error hshape] at hrun
    cases hrun
  | ok shape =>
    cases hbytes : DeviceBatch.Batch.inputBytes name dtype shape with
    | error e =>
      rw [getInput_of_bytes_error hshape hbytes] at hrun
      cases hrun
    | ok bytes =>
      let query : InputQuery := ⟨name, bytes, location, device, b.stream⟩
      cases hcollect : Gather.collect b.requests query (m, b.held.inputs) with
      | error e p =>
        rw [getInput_of_collect_error hshape hbytes hcollect] at hrun
        cases hrun
      | ok c p =>
        obtain ⟨m₁, gather⟩ := p
        obtain ⟨_, new, _, rfl, _⟩ := Gather.collect_eq_ok hcollect
        cases hbuffer : c.toBuffer dtype query with
        | error e =>
          rw [getInput_of_buffer_error hshape hbytes hcollect hbuffer] at hrun
          cases hrun
        | ok buffer =>
          rw [getInput_of_buffer hshape hbytes hcollect hbuffer] at hrun
          cases ht : Tensor.ofBuffer shape buffer with
          | error e =>
            rw [ht] at hrun
            cases hrun
          | ok held =>
            rw [ht] at hrun
            cases hrun
            obtain rfl := Tensor.buffer_of_ofBuffer ht
            exact ⟨bytes, c, m₁, _, hcollect, hbuffer, rfl, rfl⟩

/-- An input that is given out has cost nothing exactly if the only request stores it in place, or
if it has no bytes; then nothing but the trace of the machine has changed. Otherwise the cost is
that of gathering the input: one block, and a copy for each request that stores any bytes. In no
case was a stream waited for, or anything given back. -/
theorem getInput_costs
    (hrun : DeviceBatch.Batch.getInput exchange name dtype location device (m, b) =
      .ok t (m', b')) :
    ∃ parts new, b.stored name = .ok parts ∧ b' = b.withStaging new ∧
      t.buffer.byteSize = (parts.map fun part => part.data.byteSize).sum ∧
      m'.stats.synchronizations = m.stats.synchronizations ∧
      m'.stats.deallocations = m.stats.deallocations ∧
      (m'.stats.allocations = m.stats.allocations ∧ m'.stats.copies = m.stats.copies ↔
        Gather.InPlace parts location device ∨ t.buffer.byteSize = 0) ∧
      (Gather.InPlace parts location device ∨ t.buffer.byteSize = 0 →
        m' = { m with events := m'.events }) ∧
      (¬ (Gather.InPlace parts location device ∨ t.buffer.byteSize = 0) →
        ∃ g, new = [g] ∧ Gather.Spends m parts location device b.stream g m') := by
  obtain ⟨bytes, c, m₁, gather, hcollect, hbuffer, hm', rfl⟩ := getInput_eq_ok hrun
  obtain ⟨parts, new, hfound, rfl, hsize, htarget, hcost⟩ := Gather.collect_eq_ok hcollect
  have hbytes : t.buffer.byteSize = (parts.map fun part => part.data.byteSize).sum :=
    (CollectedInput.toBuffer_eq_ok hbuffer).2.trans hsize
  rw [target_of_toBuffer htarget hbuffer] at hcost
  -- Either nothing was done, or the whole input was gathered.
  have hcases : (Gather.InPlace parts location device ∨ t.buffer.byteSize = 0) ∧
        m' = { m with events := m'.events } ∨
      ¬ (Gather.InPlace parts location device ∨ t.buffer.byteSize = 0) ∧
        ∃ g, new = [g] ∧ Gather.Spends m parts location device b.stream g m' := by
    rw [hbytes]
    rcases hcost with ⟨hin, -, hm₁⟩ | ⟨hin, g, hnew, ⟨hz, hm₁⟩ | ⟨hn, hspends⟩⟩
    · refine .inl ⟨.inl hin, ?_⟩
      rw [hm', hm₁]
    · refine .inl ⟨.inr hz, ?_⟩
      rw [hm', hm₁]
    · exact .inr ⟨not_or.mpr ⟨hin, hn⟩, g, hnew, hspends.of_events rfl hm'⟩
  refine ⟨parts, new, hfound, rfl, hbytes, ?_⟩
  rcases hcases with ⟨hfree, hsame⟩ | ⟨hnot, g, hnew, hspends⟩
  · rw [hsame]
    exact ⟨rfl, rfl, ⟨fun _ => hfree, fun _ => ⟨rfl, rfl⟩⟩, fun _ => rfl, fun h => absurd hfree h⟩
  · refine ⟨by rw [hspends.stats], by rw [hspends.stats], ⟨fun h => ?_, fun h => absurd h hnot⟩,
      fun h => absurd h hnot, fun _ => ⟨g, hnew, hspends⟩⟩
    have hmore : m'.stats.allocations = m.stats.allocations + 1 := by rw [hspends.stats]
    omega

/-- Requests that store one byte on the host, no bytes, and two bytes on a device, on a platform
that defers its copies. -/
def assorted : List Command := [
  .batch (.request 1 [⟨"x", .uint8, [1], [1], .host, 0⟩] [] []),
  .batch (.request 2 [⟨"x", .uint8, [0], [], .host, 0⟩] [] []),
  .batch (.request 3 [⟨"x", .uint8, [2], [2, 3], .device, 0⟩] [] []),
  .batch (.create none {} ⟨3⟩)]

/-- Asked for on the device all is gathered by two copies, which wait on the stream of the batch. -/
theorem assorted_costs :
    let s := ((Session.start (.simulated ⟨1, 64, true⟩) 0).performAll assorted).2
    ∃ b t m' b', s.batch = some b ∧
      DeviceBatch.Batch.getInput exchange "x" .uint8 .device 0 (s.machine, b) = .ok t (m', b') ∧
      m'.stats.copies = s.machine.stats.copies + 2 ∧
      ((s.machine.queues.get ⟨3⟩).copies.length, (m'.queues.get ⟨3⟩).copies.length) = (0, 2) ∧
      ∃ parts g, b.stored "x" = .ok parts ∧ b' = b.withStaging [g] ∧
        Gather.Spends s.machine parts .device 0 b.stream g m' := by
  intro s
  have hfacts : s.batch.map (fun b =>
      let result := (DeviceBatch.Batch.getInput exchange "x" .uint8 .device 0).outcome (s.machine, b)
      (result.1.isOk, result.2.1.stats.copies, s.machine.stats.copies,
        (s.machine.queues.get ⟨3⟩).copies.length, (result.2.1.queues.get ⟨3⟩).copies.length)) =
        some (true, 3, 1, 0, 2) := by
    decide +kernel
  cases hb : s.batch with
  | none =>
    rw [hb] at hfacts
    cases hfacts
  | some b =>
    rw [hb, Option.map_some, Option.some_inj] at hfacts
    cases hrun : DeviceBatch.Batch.getInput exchange "x" .uint8 .device 0 (s.machine, b) with
    | error e p => simp [Action.outcome_of_error hrun, Except.isOk, Except.toBool] at hfacts
    | ok t p =>
      simp only [Action.outcome_of_ok hrun, Prod.mk.injEq] at hfacts
      obtain ⟨-, hcopies, hbefore, hqueue, hqueue'⟩ := hfacts
      obtain ⟨parts, new, hfound, hstaging, -, -, -, hfree, -, hspent⟩ := getInput_costs hrun
      have hnot : ¬ (Gather.InPlace parts .device 0 ∨ t.buffer.byteSize = 0) := by
        intro h
        have hsame := (hfree.mpr h).2
        omega
      obtain ⟨g, rfl, hspends⟩ := hspent hnot
      refine ⟨b, t, p.1, p.2, rfl, hrun, by rw [hcopies, hbefore], ?_, parts, g, hfound, hstaging,
        hspends⟩
      rw [hqueue, hqueue']

end Batch

end Local

end DeviceBatch
