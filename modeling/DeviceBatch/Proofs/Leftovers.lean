import DeviceBatch.Proofs.Costs

/-!
# What a refused input leaves behind

An input of a batch may be refused before anything is gathered, or for want of storage to gather it
in. Then nothing has changed but what was reported. It is never refused half way, for requests store
their inputs in live storage (`Gather.concatenate_stages`). And it may be refused after it was
gathered, for the batch looks at what came of that: where it lies, and how many elements it has
(`Batch.Undeliverable`). Then the staging buffer stays with the batch, as that of an input that was
given out does, with the copies into it (`Gather.Stages`). So the next attempt makes another one,
and all of them are given back with the batch.
-/

namespace DeviceBatch

open Local

variable {A : Multiset Allocation}

/-- What belongs to one of several things belongs to all of them. -/
theorem owned_subset_sum {β : Type} (own : β → Multiset Allocation) {b : β} {bs : List β}
    (h : b ∈ bs) : own b ⊆ (bs.map own).sum := by
  obtain ⟨before, behind, rfl⟩ := List.append_of_mem h
  intro a ha
  simp [ha]

/-! ## Buffers that live -/

namespace Buffer

variable {m m' : Machine} {b : Buffer} {stream : Stream} {done new : List PendingCopy}

/-- A buffer whose storage somebody has lives. -/
theorem lives_of_owned {a : Allocation} (h : m.Accounts A) (hb : b.storage = .owned a)
    (hfits : a.bytes = b.byteSize) (hsub : b.owned ⊆ A) : b.Lives m := by
  by_cases hz : b.byteSize = 0
  · exact .of_empty hz
  · have hdata : b.data = a.pointer := by
      unfold data
      rw [hb]
      rfl
    have howned : b.owned = {a} := by
      unfold owned
      rw [hb]
      exact Allocation.owned_of_ne (hfits ▸ hz)
    have hmem : a ∈ A := hsub (howned ▸ Multiset.mem_singleton_self a)
    refine .of_accounts h hmem (congrArg Pointer.block hdata) ?_ ?_
    · rw [hdata, hfits]
      exact (Nat.zero_add _).le
    · unfold location
      rw [hb]
      rfl

/-- Copies that are issued do not end the life of a buffer. -/
theorem Lives.queued (h : b.Lives m) (hm : m.Queued stream done new m') :
    b.Lives m' where
  holds := (Memory.holds_congr (hm.lengths _)).trans h.holds
  unkept hn := by
    unfold Machine.Unkept
    rw [hm.kept]
    exact h.unkept hn
  table hn hl := by
    unfold Machine.inDeviceAllocation
    rw [hm.platform, hm.live]
    exact h.table hn hl

end Buffer

/-! ## Gathering -/

namespace Local

variable {m m' : Machine} {n device : Nat} {location : Location} {stream : Stream}
  {parts : List StoredInput}

/-- An input that a request has stored lives as long as somebody has the request. -/
theorem StoredInput.Grounded.lives {i : StoredInput} (hi : i.Grounded n) (h : m.Accounts A)
    (hsub : i.data.owned ⊆ A) : i.data.Lives m := by
  cases hs : i.data.storage with
  | borrowed location data =>
    have howned := hi.owned
    rw [hs] at howned
    cases howned
  | owned a => exact Buffer.lives_of_owned h hs (hi.data.fits a hs) hsub

namespace Gather

/-- One copy into a buffer is never refused. -/
theorem copyRange_accepted {g : Buffer} {part : StoredInput} {offset : Nat} (hg : g.Lives m)
    (hdtype : g.dtype = .uint8) (hstream : g.stream = stream) (hpart : part.data.Lives m)
    (hbytes : part.data.dtype = .uint8) (hfit : offset + part.data.size ≤ g.size) :
    ∃ m', (source stream part).copyRange offset 0 part.data.size (m, g) = .ok () (m', g) := by
  have hin : Buffer.inRange g (source stream part) offset 0 part.data.size = true :=
    Buffer.inRange_eq_true.mpr ⟨Nat.zero_le _, Nat.le_refl _, by omega, by omega⟩
  have hsource : (source stream part).Lives m := ⟨hpart.holds, hpart.unkept, hpart.table⟩
  have hsame : { g with stream := (source stream part).stream } = g := by
    rw [show (source stream part).stream = stream from rfl, ← hstream]
  have hrun := Buffer.copyRange_of_lives hg hsource (hdtype.trans hbytes.symm) hin
  rw [hsame] at hrun
  exact ⟨_, hrun⟩

/-- So a buffer is filled with all parts. -/
theorem fillFrom_accepted {g : Buffer} {offset : Nat} (hg : g.Lives m) (hdtype : g.dtype = .uint8)
    (hstream : g.stream = stream)
    (hparts : ∀ part ∈ parts, part.data.Lives m ∧ part.data.dtype = .uint8)
    (hfit : offset + (parts.map fun part => part.data.size).sum ≤ g.size) :
    ∃ m', fillFrom stream offset parts (m, g) = .ok () (m', g) := by
  induction parts generalizing m offset with
  | nil => exact ⟨m, rfl⟩
  | cons part rest ih =>
    rw [List.forall_mem_cons] at hparts
    rw [List.map_cons, List.sum_cons] at hfit
    obtain ⟨hpart, hrest⟩ := hparts
    have hfirst : offset + part.data.size ≤ g.size := by omega
    obtain ⟨m₁, hrun⟩ := copyRange_accepted hg hdtype hstream hpart.1 hpart.2 hfirst
    have hm : m.Queued stream _ _ m₁ := (copyRange_poured hstream hrun).2.toQueued
    have hfit' : offset + part.data.size + (rest.map fun part => part.data.size).sum ≤ g.size := by
      omega
    obtain ⟨m', hrun'⟩ := ih (hg.queued hm)
      (fun q hq => ⟨(hrest q hq).1.queued hm, (hrest q hq).2⟩) hfit'
    exact ⟨m', (Action.bind_of_ok hrun).trans hrun'⟩

/-! ## The staging buffer -/

/-- The parts were gathered into a new buffer: it is the only storage that was given out, and all
copies that wait besides those that waited before are those into it. -/
structure Stages (m : Machine) (parts : List StoredInput) (location : Location) (device : Nat)
    (stream : Stream) (g : Buffer) (m' : Machine) : Prop where
  buffer : let total := (parts.map fun part => part.data.byteSize).sum
    ∃ block, g = ⟨.owned ⟨block, total, location, device⟩, .uint8, total, device, stream⟩
  /-- Nothing is given out for parts that are empty. -/
  allocations : m'.stats.liveAllocations = m.stats.liveAllocations + if g.byteSize = 0 then 0 else 1
  liveBytes : m'.stats.liveBytes = m.stats.liveBytes + g.byteSize
  inUse : ∀ d, m'.bytesInUse d =
    m.bytesInUse d + if location = .device ∧ d = device then g.byteSize else 0
  waiting : ∃ new, new.Sublist (partCopies g stream 0 parts) ∧ ∀ s, m'.queues.get s =
    let q := m.queues.get s
    if s = stream then { q with copies := q.copies ++ new } else q

/-- What is given out on a device is entered into the books. -/
theorem Spends.inUse {g : Buffer} (h : Spends m parts location device stream g m') (d : Nat) :
    m'.bytesInUse d = m.bytesInUse d + if location = .device ∧ d = device then g.byteSize else 0 := by
  unfold Machine.bytesInUse
  rcases h.table with ⟨rfl, -, hused⟩ | ⟨rfl, used, hd, -, hused⟩
  · rw [hused, if_neg (fun h => nomatch h.1)]
    rfl
  · rw [hused]
    by_cases heq : d = device
    · subst heq
      rw [if_pos ⟨rfl, rfl⟩, List.getElem?_set_self (List.getElem?_eq_some_iff.mp hd).1, hd]
      rfl
    · rw [if_neg (fun h => heq h.2), List.getElem?_set_ne (Ne.symm heq)]
      rfl

/-- Nothing is given out for parts that are empty. -/
theorem stages_of_empty {g : Buffer}
    (hg : let total := (parts.map fun part => part.data.byteSize).sum
      ∃ block, g = ⟨.owned ⟨block, total, location, device⟩, .uint8, total, device, stream⟩)
    (hz : (parts.map fun part => part.data.byteSize).sum = 0)
    (hm : m' = { m with events := m'.events }) :
    Stages m parts location device stream g m' := by
  have hsize : g.byteSize = 0 := by
    obtain ⟨block, rfl⟩ := hg
    exact (Nat.mul_one _).trans hz
  rw [hm]
  refine ⟨hg, ?_, ?_, fun d => ?_, [], List.nil_sublist _, fun s => ?_⟩
  · rw [if_pos hsize]
    rfl
  · rw [hsize]
    rfl
  · rw [hsize, ite_self]
    rfl
  · simp

/-- A new block is the only thing that changes in what is given out. -/
theorem stages_of_spends {g : Buffer} (h : m.Accounts A)
    (hn : (parts.map fun part => part.data.byteSize).sum ≠ 0)
    (hspends : Spends m parts location device stream g m') :
    Stages m parts location device stream g m' := by
  have hsize : g.byteSize ≠ 0 := by
    rw [hspends.buffer]
    exact fun hz => hn ((Nat.mul_one _).symm.trans hz)
  have hcounted := h.balanced.liveAllocations.1
  refine ⟨⟨_, hspends.buffer⟩, ?_, ?_, hspends.inUse, _, issuedCopies_sublist .., hspends.queues⟩
  · rw [if_neg hsize, hspends.stats]
    show m.stats.allocations + 1 - m.stats.deallocations = _ - _ + 1
    omega
  · rw [hspends.stats]

/-- The parts that somebody has are gathered, or there is no storage for them. -/
theorem concatenate_stages (h : m.Accounts A) (hparts : ∀ part ∈ parts, part.Grounded n)
    (hsub : ∀ part ∈ parts, part.data.owned ⊆ A) (location : Location) (device : Nat)
    (stream : Stream) :
    (∃ e, concatenate parts location device stream m = .error e m) ∨
    ∃ g m', concatenate parts location device stream m = .ok g m' ∧
      Stages m parts location device stream g m' := by
  have hsizes : (parts.map fun part => part.data.byteSize) = parts.map fun part => part.data.size :=
    List.map_congr_left fun part hpart => (hparts part hpart).byteSize
  have hmade := Buffer.accounts_allocate h .uint8 (parts.map fun part => part.data.byteSize).sum
    location device stream
  cases halloc : Buffer.allocate .uint8 (parts.map fun part => part.data.byteSize).sum location
      device stream m with
  | error e m₁ =>
    obtain rfl := Buffer.allocate_eq_error halloc
    exact .inl ⟨e, Action.bind_of_error halloc⟩
  | ok g m₁ =>
    have hbooks := hmade.of_ok halloc
    have hg := (Buffer.allocate_eq_ok halloc).1
    have hlives : g.Lives m₁ := by
      refine Buffer.lives_of_owned (a := ⟨g.data.block, _, location, device⟩) hbooks
        (congrArg Buffer.storage hg) ?_ fun a ha => ?_
      · rw [hg]
        rfl
      · exact Multiset.mem_add.mpr (.inl ha)
    have hstored : ∀ part ∈ parts, part.data.Lives m₁ ∧ part.data.dtype = .uint8 := by
      intro part hpart
      refine ⟨(hparts part hpart).lives hbooks fun a ha => ?_, (hparts part hpart).bytes⟩
      exact Multiset.mem_add.mpr (.inr (hsub part hpart ha))
    obtain ⟨m', hrun⟩ := fillFrom_accepted hlives (by rw [hg]) (by rw [hg])
      hstored (by rw [hg, hsizes, Nat.zero_add])
    have hok : concatenate parts location device stream m = .ok g m' := by
      refine (Action.bind_of_ok halloc).trans ?_
      rw [hrun]
    obtain ⟨hbuffer, ⟨hz, hm⟩ | ⟨hn, hspends⟩⟩ := concatenate_eq_ok hok
    · exact .inr ⟨g, m', hok, stages_of_empty hbuffer hz hm⟩
    · exact .inr ⟨g, m', hok, stages_of_spends h hn hspends⟩

/-- What is reported makes no difference to what is left. -/
theorem Stages.of_events {g : Buffer} {m₁ m₂ : Machine}
    (h : Stages m₁ parts location device stream g m') (hm : m₁ = { m with events := m₁.events })
    (hm' : m₂ = { m' with events := m₂.events }) :
    Stages m parts location device stream g m₂ := by
  rw [hm] at h
  rw [hm']
  exact ⟨h.buffer, h.allocations, h.liveBytes, h.inUse, h.waiting⟩

/-- An input that cannot be collected leaves nothing behind. One that is collected is used in place,
or it is gathered in one staging buffer. -/
theorem collect_stages {requests : List Request} (h : m.Accounts A)
    (hr : ∀ r ∈ requests, r.Grounded n) (hsub : ∀ r ∈ requests, r.owned ⊆ A) (query : InputQuery)
    (gather : Gather) :
    (∃ e m', collect requests query (m, gather) = .error e (m', gather) ∧
      m' = { m with events := m'.events }) ∨
    ∃ parts p m' new, requests.mapM (fun r => r.input query.name) = .ok parts ∧ p.offset = 0 ∧
      collect requests query (m, gather) =
        .ok ⟨some p, (parts.map fun part => part.data.byteSize).sum, (target m query).1,
          (target m query).2⟩ (m', { gather with staging := gather.staging ++ new }) ∧
      (new = [] ∧ m' = { m with events := m'.events } ∨
        ∃ g, new = [g] ∧ Stages m parts (target m query).1 (target m query).2 query.stream g m') := by
  have haim := aimed_eq m query
  have hbooks : (aimed m query).Accounts A := by
    unfold aimed
    split
    · exact h.emit id
    · exact h
  cases hparts : requests.mapM (fun r => r.input query.name) with
  | error e => exact .inl ⟨e, m, collect_of_missing hparts, rfl⟩
  | ok parts =>
    have hstored : ∀ part ∈ parts, part.Grounded n ∧ part.data.owned ⊆ A := by
      intro part hpart
      obtain ⟨r, hmem, hi⟩ := mem_inputs_of_part hparts hpart
      have hone : part.data.owned ⊆ r.owned := owned_subset_sum (fun i => i.data.owned) hi
      exact ⟨hr r hmem part hi, Multiset.Subset.trans hone (hsub r hmem)⟩
    cases hin : inPlace? parts (target m query).1 (target m query).2 with
    | some single =>
      obtain ⟨rfl, -⟩ := eq_of_inPlace? hin
      have howned := (hstored single (List.mem_singleton_self _)).1.owned
      refine .inr ⟨[single], single.data.data, (aimed m query).emit (.inputInPlace query.name), [],
        rfl, Buffer.offset_of_isOwned howned, ?_, .inl ⟨rfl, ?_⟩⟩
      · rw [collect_of_inPlace hparts hin, List.map_singleton, List.sum_singleton, List.append_nil]
      · rw [haim]
        rfl
    | none =>
      rcases concatenate_stages hbooks (fun part hpart => (hstored part hpart).1)
        (fun part hpart => (hstored part hpart).2) (target m query).1 (target m query).2
        query.stream with ⟨e, hrun⟩ | ⟨g, m', hrun, hstages⟩
      · exact .inl ⟨e, _, collect_of_error hparts hin hrun, haim⟩
      · obtain ⟨block, hg⟩ := hstages.buffer
        refine .inr ⟨parts, g.data, m'.emit (.gatheredInput query.name parts.length g.size
          gather.pinned), [g], rfl, ?_, ?_, .inr ⟨g, rfl, hstages.of_events haim rfl⟩⟩
        · exact Buffer.offset_of_isOwned (by rw [hg]; rfl)
        · rw [collect_of_ok hparts hin hrun]
          congr 2
          rw [hg]

end Gather

/-! ## What a batch refuses -/

namespace Batch

variable {b b' : Batch} {query : InputQuery} {dtype : ElementType} {shape : Shape} {bytes : Nat}
  {e : Error}

/-- Why a batch does not give out what was gathered: it was asked for on a device, and there is no
device memory, or the bytes are no whole number of elements, or not as many as the shape has. -/
inductive Undeliverable (m : Machine) (query : InputQuery) (dtype : ElementType) (shape : Shape)
    (bytes : Nat) : Error → Prop where
  | misplaced (hlocation : query.location = .device)
    (hmemory : m.platform.hasDeviceMemory = false) :
    Undeliverable m query dtype shape bytes (.internalConsistency
      (.misplacedInput query.name .host 0 .device query.device))
  | partialElement (h : bytes % dtype.width ≠ 0) :
    Undeliverable m query dtype shape bytes
      (.shapeMismatch (.partialElement query.name bytes dtype))
  | countMismatch {count : Nat} (hcount : shape.product? = some count)
    (h : count ≠ bytes / dtype.width) :
    Undeliverable m query dtype shape bytes
      (.shapeMismatch (.countMismatch shape count (bytes / dtype.width)))

/-- What was gathered at the place for it is not given out for one of these reasons. -/
theorem undeliverable_of_toBuffer {p : Pointer} (hp : p.offset = 0)
    (h : CollectedInput.toBuffer ⟨some p, bytes, (Gather.target m query).1,
      (Gather.target m query).2⟩ dtype query = .error e) :
    Undeliverable m query dtype shape bytes e := by
  rcases CollectedInput.toBuffer_eq_error rfl hp h with ⟨hpartial, rfl⟩ | ⟨hplace, rfl⟩
  · exact .partialElement hpartial
  · obtain ⟨hlocation, hmemory, htarget⟩ := Gather.target_of_misplaced hplace
    rw [htarget, hlocation]
    exact .misplaced hlocation hmemory

theorem undeliverable_of_ofBuffer {buffer : Buffer} {count : Nat}
    (hcount : shape.product? = some count) (hbuffer : buffer.size = bytes / dtype.width)
    (h : Tensor.ofBuffer shape buffer = .error e) :
    Undeliverable m query dtype shape bytes e := by
  unfold Tensor.ofBuffer at h
  split at h
  · next hnone =>
    rw [hcount] at hnone
    cases hnone
  · next held hheld =>
    cases hcount.symm.trans hheld
    split at h
    · cases h
    · next hne =>
      cases h
      rw [hbuffer] at hne ⊢
      exact .countMismatch hcount hne

theorem size_of_toBuffer {c : CollectedInput} {buffer : Buffer}
    (h : c.toBuffer dtype query = .ok buffer) : buffer.size = c.byteSize / dtype.width := by
  obtain ⟨hdtype, hsize⟩ := CollectedInput.toBuffer_eq_ok h
  rw [← hsize, Buffer.byteSize, hdtype]
  exact (Nat.mul_div_cancel _ dtype.width_pos).symm

theorem product?_of_inputBytes {name : String}
    (h : DeviceBatch.Batch.inputBytes name dtype shape = .ok bytes) :
    ∃ count, shape.product? = some count := by
  unfold DeviceBatch.Batch.inputBytes at h
  split at h
  · cases h
  · next count hcount => exact ⟨count, hcount⟩

/-- The batch has refused an input after it was gathered. -/
structure Leftover (m : Machine) (b : Batch) (query : InputQuery) (dtype : ElementType)
    (shape : Shape) (parts : List StoredInput) (g : Buffer) (e : Error) (m' : Machine)
    (b' : Batch) : Prop where
  found : b.stored query.name = .ok parts
  combined : b.combinedShape exchange query.name = .ok shape
  whole : DeviceBatch.Batch.inputBytes query.name dtype shape = .ok query.byteSize
  refused : Undeliverable m query dtype shape (parts.map fun part => part.data.byteSize).sum e
  gathered : Gather.Stages m parts (Gather.target m query).1 (Gather.target m query).2 b.stream g m'
  staging : b' = b.withStaging [g]

/-- Once an input is collected, a refusal is reported and that is all. -/
theorem leaves_of_collected {m₁ m₂ : Machine} {new : List Buffer}
    (hfound : b.stored query.name = .ok parts)
    (hcombined : b.combinedShape exchange query.name = .ok shape)
    (hwhole : DeviceBatch.Batch.inputBytes query.name dtype shape = .ok query.byteSize)
    (hnew : new = [] ∧ m₁ = { m with events := m₁.events } ∨
      ∃ g, new = [g] ∧ Gather.Stages m parts (Gather.target m query).1 (Gather.target m query).2
        b.stream g m₁)
    (hm₂ : m₂ = { m₁ with events := m₂.events })
    (hrefused : Undeliverable m query dtype shape (parts.map fun part => part.data.byteSize).sum e) :
    (b.withStaging new = b ∧ m₂ = { m with events := m₂.events }) ∨
      ∃ shape parts g, Leftover m b query dtype shape parts g e m₂ (b.withStaging new) := by
  rcases hnew with ⟨rfl, hm⟩ | ⟨g, rfl, hstages⟩
  · rw [hm] at hm₂
    exact .inl ⟨b.withStaging_nil, hm₂⟩
  · exact .inr ⟨shape, parts, g, hfound, hcombined, hwhole, hrefused, hstages.of_events rfl hm₂,
      rfl⟩

/-- A batch that refuses an input is as before, and nothing but the trace of the machine has
changed, unless the input has been gathered. -/
theorem getInput_leaves (h : m.Accounts A) (hr : ∀ r ∈ b.requests, r.Grounded n)
    (hsub : ∀ r ∈ b.requests, r.owned ⊆ A) {name : String}
    (hrun : DeviceBatch.Batch.getInput exchange name dtype location device (m, b) =
      .error e (m', b')) :
    (b' = b ∧ m' = { m with events := m'.events }) ∨
    ∃ bytes shape parts g,
      Leftover m b ⟨name, bytes, location, device, b.stream⟩ dtype shape parts g e m' b' := by
  cases hshape : b.combinedShape exchange name with
  | error e' =>
    rw [getInput_of_shape_error hshape] at hrun
    cases hrun
    exact .inl ⟨rfl, rfl⟩
  | ok shape =>
    cases hwhole : DeviceBatch.Batch.inputBytes name dtype shape with
    | error e' =>
      rw [getInput_of_bytes_error hshape hwhole] at hrun
      cases hrun
      exact .inl ⟨rfl, rfl⟩
    | ok bytes =>
      let query : InputQuery := ⟨name, bytes, location, device, b.stream⟩
      rcases Gather.collect_stages h hr hsub query b.held.inputs with
        ⟨e', m₁, hcollect, hm⟩ | ⟨parts, p, m₁, new, hfound, hp, hcollect, hnew⟩
      · rw [getInput_of_collect_error hshape hwhole hcollect] at hrun
        cases hrun
        exact .inl ⟨rfl, hm⟩
      · cases hbuffer : CollectedInput.toBuffer ⟨some p,
            (parts.map fun part => part.data.byteSize).sum, (Gather.target m query).1,
            (Gather.target m query).2⟩ dtype query with
        | error e' =>
          rw [getInput_of_buffer_error hshape hwhole hcollect hbuffer] at hrun
          cases hrun
          exact (leaves_of_collected hfound hshape hwhole hnew rfl
            (undeliverable_of_toBuffer hp hbuffer)).imp_right fun hleft => ⟨bytes, hleft⟩
        | ok buffer =>
          rw [getInput_of_buffer hshape hwhole hcollect hbuffer] at hrun
          cases ht : Tensor.ofBuffer shape buffer with
          | ok t =>
            rw [ht] at hrun
            cases hrun
          | error e' =>
            rw [ht] at hrun
            cases hrun
            obtain ⟨count, hcount⟩ := product?_of_inputBytes hwhole
            exact (leaves_of_collected hfound hshape hwhole hnew rfl
              (undeliverable_of_ofBuffer hcount (size_of_toBuffer hbuffer) ht)).imp_right
                fun hleft => ⟨bytes, hleft⟩

end Batch

end Local

/-! ## In every session -/

namespace Session

variable {s : Session} {b : Local.Batch}

/-- What the requests of a session store belongs to the session. -/
theorem owned_request_subset {r : Request} (hr : r ∈ s.requests) : r.owned ⊆ s.owned := by
  have hone : r.owned ⊆ (s.requests.map Request.owned).sum := owned_subset_sum Request.owned hr
  intro a ha
  rw [owned_eq_requests]
  exact Multiset.mem_add.mpr (.inl (hone ha))

/-- What the batch in progress owns, and what others own. -/
theorem exists_owned_batch (hb : s.batch = some b) : ∃ A, s.owned = b.owned + A := by
  rw [owned_eq_batch, hb]
  exact ⟨_, rfl⟩

/-- In every session whose batch still has its requests, a refused input leaves the batch as it was
and changes nothing but the trace of the machine, unless it was gathered before the batch refused
it. Then its staging buffer has been added to the machine and to the batch, with the copies into it,
and is given back with the batch. -/
theorem getInput_refused {platform : Platform} {device : Nat} {steps : List Step}
    (hsteps : (start platform device).Allows steps)
    (hb : (steps.foldl after (start platform device)).batch = some b)
    (hrequests : b.requests ⊆ (steps.foldl after (start platform device)).requests)
    {name : String} {dtype : ElementType} {location : Location} {target : Nat} {e : Error}
    {m' : Machine} {b' : Local.Batch}
    (hrun : Batch.getInput Local.exchange name dtype location target
      ((steps.foldl after (start platform device)).machine, b) = .error e (m', b')) :
    let s := steps.foldl after (start platform device)
    (b' = b ∧ m' = { s.machine with events := m'.events }) ∨
    (∃ bytes shape parts g, Local.Batch.Leftover s.machine b
      ⟨name, bytes, location, target, b.stream⟩ dtype shape parts g e m' b') ∧
      ∃ A, s.owned = b.owned + A ∧ (b'.release Local.exchange m').Accounts A := by
  intro s
  have hbooks : s.machine.Accounts s.owned :=
    ((accounted_start platform device).foldl_after hsteps).machine_zero
  have hgrounded : s.Grounded := grounded_after platform device steps
  rcases Local.Batch.getInput_leaves hbooks (hgrounded.known.batch b hb).requests
    (fun r hr => owned_request_subset (hrequests hr)) hrun with hnothing | hleft
  · exact .inl hnothing
  · refine .inr ⟨hleft, ?_⟩
    obtain ⟨A, hA⟩ := exists_owned_batch hb
    have howns : Local.Batch.Owns A (s.machine, b) := by
      unfold Local.Batch.Owns
      rw [← hA]
      exact hbooks
    have hafter := (Local.Batch.owns_getInput howns name dtype location target).of_error hrun
    exact ⟨A, hA, Local.Batch.accounts_release hafter⟩

/-- Two requests that store one byte each for an input, on a platform that defers its copies. -/
def narrowing : List Command := [
  .batch (.request 1 [⟨"x", .uint8, [1], [1], .host, 0⟩] [] []),
  .batch (.request 2 [⟨"x", .uint8, [1], [2], .host, 0⟩] [] []),
  .batch (.create none {} ⟨3⟩)]

/-- Asked for as elements of four bytes, both bytes are gathered on the device and then refused. -/
theorem narrowing_refused :
    let s := (narrowing.map .perform).foldl after (start (.simulated ⟨1, 64, true⟩) 0)
    ∃ b e m' b', s.batch = some b ∧
      Batch.getInput Local.exchange "x" .uint32 .device 0 (s.machine, b) = .error e (m', b') ∧
      (∃ bytes shape parts g, Local.Batch.Leftover s.machine b
        ⟨"x", bytes, .device, 0, b.stream⟩ .uint32 shape parts g e m' b') ∧
      ∃ A, s.owned = b.owned + A ∧ (b'.release Local.exchange m').Accounts A := by
  intro s
  have hallows : (start (.simulated ⟨1, 64, true⟩) 0).Allows (narrowing.map .perform) :=
    ⟨trivial, trivial, rfl, trivial⟩
  have hpermits : (start (.simulated ⟨1, 64, true⟩) 0).Permits narrowing :=
    ⟨trivial, trivial, rfl, trivial⟩
  have hreachable : Reachable (.simulated ⟨1, 64, true⟩) 0 s := Reachable.start.performAll hpermits
  have hfacts : s.batch.map (fun b =>
      let result := (Batch.getInput Local.exchange "x" .uint32 .device 0).outcome (s.machine, b)
      (result.1.isOk, b.held.inputs.staging.length, result.2.2.held.inputs.staging.length)) =
        some (false, 0, 1) := by
    decide +kernel
  cases hb : s.batch with
  | none =>
    rw [hb] at hfacts
    cases hfacts
  | some b =>
    rw [hb, Option.map_some, Option.some_inj] at hfacts
    have hrequests : b.requests ⊆ s.requests := (hreachable.sound.batch b hb).requests.subset
    cases hrun : Batch.getInput Local.exchange "x" .uint32 .device 0 (s.machine, b) with
    | ok t p => simp [Action.outcome_of_ok hrun, Except.isOk, Except.toBool] at hfacts
    | error e p =>
      rcases getInput_refused hallows hb hrequests hrun with ⟨hsame, -⟩ | hleft
      · -- The batch is not as before: it has a staging buffer.
        simp only [Action.outcome_of_error hrun, hsame, Prod.mk.injEq] at hfacts
        omega
      · exact ⟨b, e, p.1, p.2, rfl, hrun, hleft⟩

/-- Two requests on a platform that has no device memory. -/
def misplacing : List Command := [
  .batch (.request 1 [⟨"x", .uint8, [1], [1], .host, 0⟩] [] []),
  .batch (.request 2 [⟨"x", .uint8, [1], [2], .host, 0⟩] [] []),
  .batch (.create none {} .standard)]

/-- Asked for on a device the input is refused, and there is one allocation more than before. -/
theorem misplacing_leaves :
    let s := (misplacing.map .perform).foldl after (start .host 0)
    ∃ b e m' b', s.batch = some b ∧
      Batch.getInput Local.exchange "x" .uint8 .device 0 (s.machine, b) = .error e (m', b') ∧
      (s.machine.stats.liveAllocations, s.machine.stats.liveBytes,
        b.held.inputs.staging.length) = (2, 2, 0) ∧
      (m'.stats.liveAllocations, m'.stats.liveBytes, b'.held.inputs.staging.length) =
        (3, 4, 1) := by
  intro s
  have hbefore : s.batch.map (fun b => (s.machine.stats.liveAllocations, s.machine.stats.liveBytes,
      b.held.inputs.staging.length)) = some (2, 2, 0) := by
    decide +kernel
  have hafter : s.batch.map (fun b =>
      let result := (Batch.getInput Local.exchange "x" .uint8 .device 0).outcome (s.machine, b)
      (result.1.isOk, result.2.1.stats.liveAllocations, result.2.1.stats.liveBytes,
        result.2.2.held.inputs.staging.length)) = some (false, 3, 4, 1) := by
    decide +kernel
  cases hb : s.batch with
  | none =>
    rw [hb] at hbefore
    cases hbefore
  | some b =>
    rw [hb, Option.map_some, Option.some_inj] at hbefore hafter
    cases hrun : Batch.getInput Local.exchange "x" .uint8 .device 0 (s.machine, b) with
    | ok t p => simp [Action.outcome_of_ok hrun, Except.isOk, Except.toBool] at hafter
    | error e p =>
      rw [Action.outcome_of_error hrun] at hafter
      exact ⟨b, e, p.1, p.2, rfl, hrun, hbefore, congrArg Prod.snd hafter⟩

end Session

end DeviceBatch
