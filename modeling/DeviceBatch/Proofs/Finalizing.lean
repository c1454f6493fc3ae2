import DeviceBatch.Proofs.Scattering

/-!
# Finalized batches

Finalizing hands every output out to the responses, slice by slice and output by output. Meanwhile
nothing happens but that storage is added for the responses (`Local.Scatter.Spread`), so what a
response gets is the part of the output as it was when the batch was finalized
(`Local.Batch.Obtained`).
-/

namespace DeviceBatch

namespace Local.Scatter

variable {m m' : Machine} {T : List Holding} {y : Buffer} {slice : Slice} {location : Location}

/-! ## Handing out slices -/

theorem part_adds {m₀ : Machine} {U : List Holding} (hk : m₀.Keeps T) (hy : y.Readable T)
    (h : m₀.Adds T m U) (slice : Slice) (location : Location) :
    part m y slice location = part m₀ y slice location := by
  have hbytes : y.bytes m = y.bytes m₀ :=
    Memory.read_congr_of_ne_zero fun hn => h.memory _ (hy.block_outlook hk hn).1
  have hout : y.outlookBytes m.outlook = y.outlookBytes m₀.outlook :=
    Memory.read_congr_of_ne_zero fun hn => h.outlook _ (hy.block_outlook hk hn).1
  unfold part
  rw [h.platform, hbytes, hout]

/-- Where the request with that number wants an output, if it wants it. -/
def wanted (requests : List Request) (i : Nat) (name : String) : Option (Location × Nat) :=
  requests[i]?.bind fun r => r.wants name

section Handing

variable (m₀ : Machine) (T : List Holding) (requests : List Request) (before : List Response)
  (maximum : Nat) (S : Stream → Prop)

/-- Since the scattering began, nothing has happened but that storage was added for responses, which
is on streams of `S`. -/
structure Spread (p : Machine × Scatter × List Response) : Prop where
  machine : m₀.Adds (before.flatMap Response.holdings ++ T) p.1
    (p.2.2.flatMap Response.holdings ++ T)
  sound : ∀ r ∈ p.2.2, r.Sound
  streams : ∀ r ∈ p.2.2, ∀ d ∈ r.outputs, S d.data.stream
  maximum : p.2.1.maximum = maximum
  length : p.2.2.length = requests.length
  batches : m₀.metrics.SameBatches p.1.metrics

/-- What the response with number `i` has of an output. -/
structure Delivered (m : Machine) (waiting : Bool) (i : Nat) (o : RecordedOutput)
    (d : DeliveredOutput) : Prop where
  name : d.name = o.name
  shape : d.shape = (sliceOf maximum (requests.map Request.rows) o.tensor i).shape
  dtype : d.dtype = o.tensor.buffer.dtype
  stream : d.data.stream = o.tensor.buffer.stream
  placed : wanted requests i o.name = some (d.data.location, d.data.device)
  size : d.data.byteSize = (sliceOf maximum (requests.map Request.rows) o.tensor i).length
  limit : d.data.byteSize < Machine.hostBlockLimit
  bytes : d.data.outlookBytes m.outlook = part m₀ o.tensor.buffer
    (sliceOf maximum (requests.map Request.rows) o.tensor i) d.data.location
  settled : waiting = true ∨ (d.data.byteSize ≠ 0 → m.Unwritten d.data.data.block)

/-- The responses have what their requests want of the outputs `L`, in the order of the outputs,
besides what they had before. -/
def HandedOut (m : Machine) (waiting : Bool) (L : Nat → List RecordedOutput)
    (responses : List Response) : Prop :=
  ∀ i r, responses[i]? = some r → ∃ r₀ ds, before[i]? = some r₀ ∧
    r = { r₀ with outputs := r₀.outputs ++ ds } ∧
    List.Forall₂ (Delivered m₀ requests maximum m waiting i)
      ((L i).filter fun o => (wanted requests i o.name).isSome) ds

/-- There is no storage for the slice of an output that the response with number `i` was to get.
Asking for it leaves the machine as it is. -/
def Denied (m : Machine) (i : Nat) (o : RecordedOutput) (e : Error) : Prop :=
  ∃ location device, wanted requests i o.name = some (location, device) ∧
    copySlice (bytesView o.tensor.buffer) (sliceOf maximum (requests.map Request.rows) o.tensor i)
      location device m = .error e m

/-- Handing out an output stops with an error: before anybody has got it, because it cannot be cut,
or when the responses before the one with number `i` have got it, because there is no storage for
the next slice. -/
def Stops (p : Machine × Scatter × List Response) (i : Nat) (o : RecordedOutput) (e : Error)
    (p' : Machine × Scatter × List Response) : Prop :=
  let cut := p.2.1.slices (requests.map Request.rows) (.ofTensor o.name o.tensor)
  i = 0 ∧ cut = .error e ∧ p' = p ∨
    ∃ slices, cut = .ok slices ∧
      deliverFrom (.ofTensor o.name o.tensor) (bytesView o.tensor.buffer) 0
        (((requests.zip slices).take p.2.2.length).take i) p = .ok () p' ∧
      Denied requests p'.2.1.maximum p'.1 i o e

end Handing

section Handing

variable {m₀ : Machine} {requests : List Request} {before : List Response} {maximum : Nat}
  {S : Stream → Prop} {i : Nat} {o : RecordedOutput} {L : Nat → List RecordedOutput}
  {p : Machine × Scatter × List Response}

/-- Before anything is handed out. -/
theorem Spread.start {T : List Holding} {scatter : Scatter}
    (hk : m₀.Keeps (before.flatMap Response.holdings ++ T)) (hnone : ∀ r ∈ before, r.outputs = [])
    (hmax : scatter.maximum = maximum) (hlen : before.length = requests.length) :
    Spread m₀ T requests before maximum S (m₀, scatter, before) where
  machine := .refl hk
  sound r hr := Response.sound_of_outputs_nil (hnone r hr)
  streams r hr := by
    rw [hnone r hr]
    exact fun _ hd => absurd hd List.not_mem_nil
  maximum := hmax
  length := hlen
  batches := .refl _

theorem HandedOut.start {m : Machine} {waiting : Bool} :
    HandedOut m₀ requests before maximum m waiting (fun _ => []) before :=
  fun _ r hr => ⟨r, [], hr, by rw [List.append_nil], .nil⟩

/-- What was handed out to responses that had nothing is all that they have. -/
theorem HandedOut.outputs {m : Machine} {waiting : Bool} {responses : List Response} {r : Response}
    (h : HandedOut m₀ requests before maximum m waiting L responses)
    (hnone : ∀ r ∈ before, r.outputs = []) (hr : responses[i]? = some r) :
    List.Forall₂ (Delivered m₀ requests maximum m waiting i)
      ((L i).filter fun o => (wanted requests i o.name).isSome) r.outputs := by
  obtain ⟨r₀, ds, hr₀, heq, hall⟩ := h i r hr
  have hds : r.outputs = ds := by
    rw [heq, hnone r₀ (List.mem_of_getElem? hr₀)]
    rfl
  rw [hds]
  exact hall

/-- What was delivered stays so while more storage is added. -/
theorem Delivered.adds {d : DeliveredOutput} {waiting waiting' : Bool} {U U' : List Holding}
    (hd : Delivered m₀ requests maximum m waiting i o d) (h : m.Adds U m' U') (hk : m.Keeps U)
    (hproper : d.data.Proper) (hU : d.data.holdings (.bound d.data.stream) ⊆ U)
    (hw : waiting = true → waiting' = true) :
    Delivered m₀ requests maximum m' waiting' i o d := by
  have hsame : d.data.outlookBytes m'.outlook = d.data.outlookBytes m.outlook :=
    hproper.outlookBytes_congr _ fun t ht => h.outlook _ (hk.block_lt (Machine.Keeps.mem (hU ht)))
  refine { hd with bytes := hsame.trans hd.bytes, settled := ?_ }
  refine hd.settled.imp hw fun hu hn s c hc => ?_
  rcases h.pending s c hc with hc | hc
  · exact hu hn s c hc
  · obtain ⟨t, ht, -, -, -, hdata⟩ := hproper.holding hU hn
    have hlt := hk.block_lt (Machine.Keeps.mem ht)
    intro heq
    rw [heq, hdata] at hc
    exact Nat.not_le.mpr hlt hc

/-- The same for all responses. -/
theorem HandedOut.adds {waiting waiting' : Bool} {responses : List Response} {U' : List Holding}
    (hh : HandedOut m₀ requests before maximum m waiting L responses)
    (h : m.Adds (responses.flatMap Response.holdings ++ T) m' U')
    (hk : m.Keeps (responses.flatMap Response.holdings ++ T))
    (hsound : ∀ r ∈ responses, r.Sound) (hw : waiting = true → waiting' = true) :
    HandedOut m₀ requests before maximum m' waiting' L responses := by
  intro i r hr
  obtain ⟨r₀, ds, hr₀, heq, hds⟩ := hh i r hr
  have hmem := List.mem_of_getElem? hr
  have hheld : ∀ d ∈ r.outputs, d.data.holdings (.bound d.data.stream) ⊆
      responses.flatMap Response.holdings ++ T := fun d hd t ht =>
    List.mem_append_left _ (List.mem_flatMap.mpr ⟨r, hmem, List.mem_flatMap.mpr ⟨d, hd, ht⟩⟩)
  refine ⟨r₀, ds, hr₀, heq, forall₂_imp_of_mem hds fun o _ d hd hgot => ?_⟩
  have hd : d ∈ r.outputs := by
    rw [heq]
    exact List.mem_append_right _ hd
  exact hgot.adds h hk (hsound r hmem d hd).1 (hheld d hd) hw

/-- A slice is what the response gets that it was cut for. -/
theorem Delivered.of_sliced {U : List Holding} {d : Buffer} {device : Nat} (hk : m₀.Keeps T)
    (hy : o.tensor.buffer.Readable T) (hm : m₀.Adds T m U)
    (hslice : slice = sliceOf maximum (requests.map Request.rows) o.tensor i)
    (hd : Sliced m U o.tensor.buffer slice location device m' d)
    (hwant : wanted requests i o.name = some (location, device)) (waiting : Bool) :
    Delivered m₀ requests maximum m' (waiting || (0 < slice.length &&
        m'.platform.defers (.between location o.tensor.buffer.location))) i o
      ⟨o.name, slice.shape, o.tensor.buffer.dtype, d⟩ where
  name := rfl
  shape := by rw [hslice]
  dtype := rfl
  stream := hd.stream
  placed := by rw [hwant, hd.placed.1, hd.placed.2]
  size := by rw [← hslice, Buffer.byteSize, hd.dtype, hd.size]; exact Nat.mul_one _
  limit := hd.limit
  bytes := by rw [← hslice, hd.bytes, part_adds hk hy hm, hd.placed.1]
  settled := by
    rw [hd.machine.platform]
    cases hdefers : m.platform.defers (.between location o.tensor.buffer.location) with
    | false => exact .inr (hd.settled hdefers)
    | true =>
      by_cases hz : slice.length = 0
      · refine .inr fun hn => absurd ?_ hn
        rw [Buffer.byteSize, hd.size, hz, Nat.zero_mul]
      · refine .inl ?_
        rw [decide_eq_true (Nat.pos_of_ne_zero hz), Bool.true_and, Bool.or_true]

/-- One more output in the response with number `i`. -/
theorem perm_modify {responses : List Response} {r : Response} (hr : responses[i]? = some r)
    (d : DeliveredOutput) :
    ((responses.modify i fun r => { r with outputs := r.outputs ++ [d] }).flatMap
      Response.holdings).Perm
        (d.data.holdings (.bound d.data.stream) ++ responses.flatMap Response.holdings) := by
  induction responses generalizing i with
  | nil => cases hr
  | cons first rest ih =>
    cases i with
    | zero =>
      rw [List.modify_zero_cons, List.flatMap_cons, List.flatMap_cons, ← List.append_assoc]
      refine List.Perm.append_right _ ?_
      unfold Response.holdings
      rw [List.flatMap_append, List.flatMap_cons, List.flatMap_nil, List.append_nil]
      exact List.perm_append_comm
    | succ i =>
      rw [List.modify_succ_cons, List.flatMap_cons, List.flatMap_cons]
      exact ((ih hr).append_left _).trans (List.perm_append_comm_assoc ..)

theorem response_of_modify {responses : List Response} {r : Response} {d : DeliveredOutput}
    {k : Nat} (h : (responses.modify i fun r => { r with outputs := r.outputs ++ [d] })[k]? =
      some r) :
    ∃ r', responses[k]? = some r' ∧
      r = if i = k then { r' with outputs := r'.outputs ++ [d] } else r' := by
  rw [List.getElem?_modify] at h
  obtain ⟨r', hr', rfl⟩ := Option.map_eq_some_iff.mp h
  refine ⟨r', hr', ?_⟩
  split <;> rfl

/-- An output of a response after one more was put into a response is this one or was there. -/
theorem mem_outputs_of_modify {responses : List Response} {r : Response} {d e : DeliveredOutput}
    (hr : r ∈ responses.modify i fun r => { r with outputs := r.outputs ++ [d] })
    (he : e ∈ r.outputs) : e = d ∨ ∃ r' ∈ responses, e ∈ r'.outputs := by
  obtain ⟨k, hk⟩ := List.mem_iff_getElem?.mp hr
  obtain ⟨r', hr', rfl⟩ := response_of_modify hk
  have hmem := List.mem_of_getElem? hr'
  split at he
  · rcases List.mem_append.mp he with he | he
    · exact .inr ⟨r', hmem, he⟩
    · exact .inl (List.mem_singleton.mp he)
  · exact .inr ⟨r', hmem, he⟩

/-- A request that does not want the output is passed over. -/
theorem HandedOut.skip {waiting : Bool} {responses : List Response}
    (hh : HandedOut m₀ requests before maximum m waiting L responses)
    (hw : wanted requests i o.name = none) :
    HandedOut m₀ requests before maximum m waiting (Function.update L i (L i ++ [o]))
      responses := by
  intro k r hk
  by_cases hki : k = i
  · subst hki
    rw [Function.update_self, List.filter_append, List.filter_cons_of_neg (by rw [hw]; decide),
      List.filter_nil, List.append_nil]
    exact hh k r hk
  · rw [Function.update_of_ne hki]
    exact hh k r hk

/-- A response is given what its request wants. -/
theorem HandedOut.hand {waiting : Bool} {responses : List Response} {d : DeliveredOutput}
    (hh : HandedOut m₀ requests before maximum m waiting L responses)
    (hd : Delivered m₀ requests maximum m waiting i o d) :
    HandedOut m₀ requests before maximum m waiting (Function.update L i (L i ++ [o]))
      (responses.modify i fun r => { r with outputs := r.outputs ++ [d] }) := by
  intro k r hk
  obtain ⟨r', hr', rfl⟩ := response_of_modify hk
  obtain ⟨r₀, ds, hr₀, rfl, hds⟩ := hh k r' hr'
  by_cases hki : i = k
  · subst hki
    refine ⟨r₀, ds ++ [d], hr₀, ?_, ?_⟩
    · rw [if_pos rfl, ← List.append_assoc]
    · rw [Function.update_self, List.filter_append,
        List.filter_cons_of_pos (by rw [hd.placed]; rfl), List.filter_nil]
      exact List.rel_append hds (.cons hd .nil)
  · refine ⟨r₀, ds, hr₀, if_neg hki, ?_⟩
    rw [Function.update_of_ne (Ne.symm hki)]
    exact hds

/-- A response is given a new buffer. -/
theorem Spread.hand {scatter : Scatter} {responses : List Response} {d : DeliveredOutput}
    (hs : Spread m₀ T requests before maximum S (m, scatter, responses)) (hi : i < requests.length)
    (hd : m.Adds (responses.flatMap Response.holdings ++ T) m'
      (d.data.holdings (.bound d.data.stream) ++ (responses.flatMap Response.holdings ++ T)))
    (hproper : d.data.Proper) (hdtype : d.data.dtype = .uint8) (hstream : S d.data.stream)
    (hbatches : m.metrics.SameBatches m'.metrics) (waiting : Bool) :
    Spread m₀ T requests before maximum S (m', { scatter with waiting := waiting },
      responses.modify i fun r => { r with outputs := r.outputs ++ [d] }) where
  machine := by
    have hi : i < responses.length := by
      rw [show responses.length = requests.length from hs.length]
      exact hi
    exact (hs.machine.trans hd).perm ((List.append_assoc ..).symm ▸
      (perm_modify (List.getElem?_eq_getElem hi) d).symm.append_right T)
  sound r hr e he := by
    rcases mem_outputs_of_modify hr he with rfl | ⟨r', hr', he⟩
    · exact ⟨hproper, hdtype⟩
    · exact hs.sound r' hr' e he
  streams r hr e he := by
    rcases mem_outputs_of_modify hr he with rfl | ⟨r', hr', he⟩
    · exact hstream
    · exact hs.streams r' hr' e he
  maximum := hs.maximum
  length := (List.length_modify ..).trans hs.length
  batches := hs.batches.trans hbatches

/-- The slice of one request is delivered, or there is no storage for it and nothing happens. -/
theorem deliver_cases (hk : m₀.Keeps (before.flatMap Response.holdings ++ T))
    (hy : o.tensor.buffer.Readable T) (hS : S o.tensor.buffer.stream) {request : Request}
    (hr : requests[i]? = some request) {slice : Slice}
    (hslice : slice = sliceOf maximum (requests.map Request.rows) o.tensor i)
    (hfit : slice.start + slice.length ≤ o.tensor.buffer.byteSize)
    (hs : Spread m₀ T requests before maximum S p)
    (hh : HandedOut m₀ requests before maximum p.1 p.2.1.waiting L p.2.2) :
    (∃ e, e.IsAllocation ∧ Denied requests maximum p.1 i o e ∧
      deliver (.ofTensor o.name o.tensor) (bytesView o.tensor.buffer) i request slice p =
        .error e p) ∨
    ∃ p', deliver (.ofTensor o.name o.tensor) (bytesView o.tensor.buffer) i request slice p =
        .ok () p' ∧ Spread m₀ T requests before maximum S p' ∧
      HandedOut m₀ requests before maximum p'.1 p'.2.1.waiting (Function.update L i (L i ++ [o]))
        p'.2.2 := by
  obtain ⟨m, scatter, responses⟩ := p
  have hwanted : wanted requests i o.name = request.wants o.name := by
    unfold wanted
    rw [hr]
    rfl
  unfold deliver
  cases hwant : request.wants (OutputView.ofTensor o.name o.tensor).name with
  | none => exact .inr ⟨_, rfl, hs, hh.skip (hwanted.trans hwant)⟩
  | some place =>
    obtain ⟨location, device⟩ := place
    have hkeeps := hs.machine.keeps
    have hreadable := hy.mono (List.subset_append_right (responses.flatMap Response.holdings) T)
    rcases copySlice_cases hkeeps hreadable hfit location device with
      ⟨e, halloc, he⟩ | ⟨d, m', hrun, hd⟩
    · exact .inl ⟨e, halloc, ⟨location, device, hwanted.trans hwant, hslice ▸ he⟩,
        Action.bind_of_error (Action.onFirst_of_error he _)⟩
    · have hentry := Delivered.of_sliced hk (hy.mono (List.subset_append_right _ _)) hs.machine
        hslice hd (hwanted.trans hwant) scatter.waiting
      refine .inr ⟨_, Action.bind_of_ok (Action.onFirst_of_ok hrun _),
        hs.hand (List.getElem?_eq_some_iff.mp hr).1 hd.machine hd.proper hd.dtype ?_ hd.batches _,
        (hh.adds hd.machine hkeeps hs.sound fun hw => ?_).hand hentry⟩
      · rw [hd.stream]
        exact hS
      · show (scatter.waiting || _) = true
        rw [show scatter.waiting = true from hw, Bool.true_or]

/-- The outputs that are handed out if the response with number `index` gets one more and then `n`
others do. -/
theorem handed_next (L : Nat → List RecordedOutput) (o : RecordedOutput) (index n : Nat) :
    (fun k => if index + 1 ≤ k ∧ k < index + 1 + n
      then Function.update L index (L index ++ [o]) k ++ [o]
      else Function.update L index (L index ++ [o]) k) =
      fun k => if index ≤ k ∧ k < index + (n + 1) then L k ++ [o] else L k := by
  funext k
  by_cases hk : k = index
  · subst hk
    rw [if_neg (by omega), if_pos (by omega), Function.update_self]
  · rw [Function.update_of_ne hk]
    congr 1
    exact propext (by omega)

theorem handed_none (L : Nat → List RecordedOutput) (o : RecordedOutput) (index : Nat) :
    (fun k => if index ≤ k ∧ k < index + 0 then L k ++ [o] else L k) = L :=
  funext fun k => if_neg (by omega)

/-- The slices of one output are delivered, or those before the first one for which there is no
storage. -/
theorem deliverFrom_cases (hk : m₀.Keeps (before.flatMap Response.holdings ++ T))
    (hy : o.tensor.buffer.Readable T) (hS : S o.tensor.buffer.stream) {index : Nat}
    {pairs : List (Request × Slice)}
    (hpairs : ∀ k (h : k < pairs.length), requests[index + k]? = some pairs[k].1 ∧
      pairs[k].2 = sliceOf maximum (requests.map Request.rows) o.tensor (index + k) ∧
      pairs[k].2.start + pairs[k].2.length ≤ o.tensor.buffer.byteSize)
    (hs : Spread m₀ T requests before maximum S p)
    (hh : HandedOut m₀ requests before maximum p.1 p.2.1.waiting L p.2.2) :
    (∃ e p' n, e.IsAllocation ∧ deliverFrom (.ofTensor o.name o.tensor) (bytesView o.tensor.buffer)
      index pairs p = .error e p' ∧ Spread m₀ T requests before maximum S p' ∧
      deliverFrom (.ofTensor o.name o.tensor) (bytesView o.tensor.buffer) index (pairs.take n) p =
        .ok () p' ∧ Denied requests maximum p'.1 (index + n) o e ∧
      HandedOut m₀ requests before maximum p'.1 p'.2.1.waiting
        (fun k => if index ≤ k ∧ k < index + n then L k ++ [o] else L k) p'.2.2) ∨
    ∃ p', deliverFrom (.ofTensor o.name o.tensor) (bytesView o.tensor.buffer) index pairs p =
        .ok () p' ∧ Spread m₀ T requests before maximum S p' ∧
      HandedOut m₀ requests before maximum p'.1 p'.2.1.waiting
        (fun k => if index ≤ k ∧ k < index + pairs.length then L k ++ [o] else L k) p'.2.2 := by
  induction pairs generalizing index L p with
  | nil =>
    refine .inr ⟨p, rfl, hs, ?_⟩
    rw [List.length_nil, handed_none]
    exact hh
  | cons pair rest ih =>
    obtain ⟨hr, hslice, hfit⟩ := hpairs 0 (Nat.zero_lt_succ _)
    rw [Nat.add_zero] at hr hslice
    rcases deliver_cases hk hy hS hr hslice hfit hs hh with
      ⟨e, halloc, hdenied, he⟩ | ⟨p₁, hrun, hs₁, hh₁⟩
    · refine .inl ⟨e, p, 0, halloc, Action.bind_of_error he, hs, rfl, hdenied, ?_⟩
      rw [handed_none]
      exact hh
    · have hrest : ∀ k (h : k < rest.length), requests[index + 1 + k]? = some rest[k].1 ∧
          rest[k].2 = sliceOf maximum (requests.map Request.rows) o.tensor (index + 1 + k) ∧
          rest[k].2.start + rest[k].2.length ≤ o.tensor.buffer.byteSize := by
        intro k hk
        have hnext := hpairs (k + 1) (Nat.succ_lt_succ hk)
        rw [Nat.add_assoc, Nat.add_comm 1 k]
        exact hnext
      -- The first response has got the output, and those behind it get it.
      rcases ih hrest hs₁ hh₁ with
        ⟨e, p', n, halloc, he, hs', hsome, hdenied, hh'⟩ | ⟨p', hrun', hs', hh'⟩
      · rw [handed_next] at hh'
        rw [Nat.add_assoc, Nat.add_comm 1 n] at hdenied
        exact .inl ⟨e, p', n + 1, halloc, (Action.bind_of_ok hrun).trans he, hs',
          (Action.bind_of_ok hrun).trans hsome, hdenied, hh'⟩
      · rw [handed_next] at hh'
        exact .inr ⟨p', (Action.bind_of_ok hrun).trans hrun', hs', hh'⟩

/-- What was handed out is so after an event. -/
theorem HandedOut.emit {waiting : Bool} {responses : List Response}
    (hh : HandedOut m₀ requests before maximum m waiting L responses)
    (hk : m.Keeps (responses.flatMap Response.holdings ++ T))
    (hsound : ∀ r ∈ responses, r.Sound) (event : Event) :
    HandedOut m₀ requests before maximum (m.emit event) waiting L responses :=
  hh.adds ((Machine.Adds.refl hk).emit event) hk hsound id

theorem HandedOut.congr {waiting : Bool} {responses : List Response}
    {L' : Nat → List RecordedOutput}
    (hh : HandedOut m₀ requests before maximum m waiting L responses)
    (hL : ∀ i < responses.length, L i = L' i) :
    HandedOut m₀ requests before maximum m waiting L' responses := fun i r hr =>
  hL i (List.getElem?_eq_some_iff.mp hr).1 ▸ hh i r hr

/-- An output that cannot be cut is handed out to nobody, and nothing happens. Any other is handed
out to all responses, or to those before the first one for which there is no storage. -/
theorem process_cases (hk : m₀.Keeps (before.flatMap Response.holdings ++ T))
    (hy : o.tensor.buffer.Readable T) (hS : S o.tensor.buffer.stream)
    (hsingle : maximum = 0 → requests.length ≤ 1)
    {D : List RecordedOutput} (hs : Spread m₀ T requests before maximum S p)
    (hh : HandedOut m₀ requests before maximum p.1 p.2.1.waiting (fun _ => D) p.2.2) :
    (∃ e, p.2.1.slices (requests.map Request.rows) (.ofTensor o.name o.tensor) = .error e ∧
      process requests (.ofTensor o.name o.tensor) p = .error e p) ∨
    (∃ e p' n, e.IsAllocation ∧ process requests (.ofTensor o.name o.tensor) p = .error e p' ∧
      Spread m₀ T requests before maximum S p' ∧ Stops requests p n o e p' ∧
      HandedOut m₀ requests before maximum p'.1 p'.2.1.waiting
        (fun i => if i < n then D ++ [o] else D) p'.2.2) ∨
    ∃ p', process requests (.ofTensor o.name o.tensor) p = .ok () p' ∧
      Spread m₀ T requests before maximum S p' ∧
      HandedOut m₀ requests before maximum p'.1 p'.2.1.waiting (fun _ => D ++ [o]) p'.2.2 := by
  obtain ⟨m, scatter, responses⟩ := p
  unfold process
  cases hcut : scatter.slices (requests.map Request.rows) (.ofTensor o.name o.tensor) with
  | error e => exact .inl ⟨e, rfl, Action.ofExcept_bind_of_error hcut _ _⟩
  | ok cut =>
    right
    obtain ⟨hslices, hfits⟩ := slices_eq_ok hcut (by
      rw [show scatter.maximum = maximum from hs.maximum, List.length_map]
      exact hsingle)
    rw [List.length_map, show scatter.maximum = maximum from hs.maximum] at hslices
    have hlength : responses.length = requests.length := hs.length
    -- Every request has a slice, so `zip` drops none of them.
    have hcount : requests.length ≤ cut.length := by
      by_contra hlt
      have hnone := hslices cut.length (Nat.lt_of_not_le hlt)
      rw [List.getElem?_eq_none (Nat.le_refl _)] at hnone
      cases hnone
    have hpairs : ∀ k (h : k < ((requests.zip cut).take responses.length).length),
        requests[0 + k]? = some ((requests.zip cut).take responses.length)[k].1 ∧
        ((requests.zip cut).take responses.length)[k].2 =
          sliceOf maximum (requests.map Request.rows) o.tensor (0 + k) ∧
        ((requests.zip cut).take responses.length)[k].2.start +
          ((requests.zip cut).take responses.length)[k].2.length ≤ o.tensor.buffer.byteSize := by
      intro k hk
      rw [List.length_take, List.length_zip] at hk
      rw [Nat.zero_add, List.getElem_take, List.getElem_zip]
      have hget := hslices k (by omega)
      rw [List.getElem?_eq_getElem (by omega), Option.some.injEq] at hget
      exact ⟨List.getElem?_eq_getElem (by omega), hget, hfits _ (List.getElem_mem _)⟩
    have hcutting := Action.ofExcept_bind_of_ok (σ := Machine × Scatter × List Response)
      (β := Unit) hcut
    rcases deliverFrom_cases hk hy hS hpairs hs hh with
      ⟨e, p', n, halloc, he, hs', hsome, hdenied, hh'⟩ | ⟨p', hrun, hs', hh'⟩
    · refine .inl ⟨e, p', n, halloc, (hcutting _ _).trans (Action.bind_of_error he), hs',
        .inr ⟨cut, hcut, hsome, ?_⟩,
        hh'.congr fun i _ => by simp only [Nat.zero_le, true_and, Nat.zero_add]⟩
      rw [Nat.zero_add] at hdenied
      rw [hs'.maximum]
      exact hdenied
    · refine .inr ⟨_, (hcutting _ _).trans (Action.bind_of_ok hrun),
        ⟨hs'.machine.emit _, hs'.sound, hs'.streams, hs'.maximum, hs'.length, hs'.batches⟩,
        (hh'.congr fun i hi => ?_).emit hs'.machine.keeps hs'.sound _⟩
      rw [show p'.2.2.length = requests.length from hs'.length] at hi
      exact if_pos ⟨Nat.zero_le _, by rw [List.length_take, List.length_zip]; omega⟩

end Handing

/-! ## What is queued -/

section Queued

variable {o : RecordedOutput} {p p' : Machine × Scatter × List Response} {requests : List Request}

/-- If a slice is delivered, nobody wanted it, or it was copied and entered in the response. -/
theorem deliver_eq_ok {i : Nat} {request : Request}
    (h : deliver (.ofTensor o.name o.tensor) (bytesView o.tensor.buffer) i request slice p =
      .ok () p') :
    request.wants o.name = none ∧ p' = p ∨
    ∃ location device d m, request.wants o.name = some (location, device) ∧
      copySlice (bytesView o.tensor.buffer) slice location device p.1 = .ok d m ∧
      p' = (m, { p.2.1 with waiting := p.2.1.waiting || (0 < slice.length &&
          m.platform.defers (.between location o.tensor.buffer.location)) },
        p.2.2.modify i fun r => { r with
          outputs := r.outputs ++ [⟨o.name, slice.shape, o.tensor.buffer.dtype, d⟩] }) := by
  obtain ⟨m, scatter, responses⟩ := p
  unfold deliver at h
  cases hwant : request.wants o.name with
  | none =>
    rw [show request.wants (OutputView.ofTensor o.name o.tensor).name = none from hwant] at h
    cases h
    exact .inl ⟨rfl, rfl⟩
  | some place =>
    obtain ⟨location, device⟩ := place
    rw [show request.wants (OutputView.ofTensor o.name o.tensor).name = some (location, device)
      from hwant] at h
    obtain ⟨d, ⟨m₁, sides⟩, hfirst, hend⟩ := Action.bind_eq_ok h
    obtain ⟨hc, rfl⟩ := Action.onFirst_eq_ok hfirst
    cases hend
    exact .inr ⟨location, device, d, m₁, rfl, hc, rfl⟩

/-- A copy that is queued for a response is noted. -/
theorem queues_of_deliver {i : Nat} {request : Request}
    (h : deliver (.ofTensor o.name o.tensor) (bytesView o.tensor.buffer) i request slice p =
      .ok () p') (hw : p'.2.1.waiting = false) :
    p.2.1.waiting = false ∧ p'.1.queues = p.1.queues := by
  rcases deliver_eq_ok h with ⟨-, rfl⟩ | ⟨location, device, d, m, -, hcopy, rfl⟩
  · exact ⟨hw, rfl⟩
  · obtain ⟨-, hplatform, hqueues, -⟩ := copySlice_eq_ok hcopy
    obtain ⟨hbefore, hnow⟩ := Bool.or_eq_false_iff.mp hw
    refine ⟨hbefore, hqueues ?_⟩
    rw [show slice.length * (bytesView o.tensor.buffer).dtype.width = slice.length from
      Nat.mul_one _, ← hplatform]
    exact hnow

theorem queues_of_deliverFrom {index : Nat} {pairs : List (Request × Slice)}
    (h : deliverFrom (.ofTensor o.name o.tensor) (bytesView o.tensor.buffer) index pairs p =
      .ok () p') (hw : p'.2.1.waiting = false) :
    p.2.1.waiting = false ∧ p'.1.queues = p.1.queues := by
  induction pairs generalizing index p with
  | nil =>
    cases h
    exact ⟨hw, rfl⟩
  | cons pair rest ih =>
    obtain ⟨u, q, hd, hnext⟩ := Action.bind_eq_ok h
    obtain ⟨hrest, hsame⟩ := ih hnext
    obtain ⟨hfirst, hsame'⟩ := queues_of_deliver hd hrest
    exact ⟨hfirst, hsame.trans hsame'⟩

/-- An output that could be processed was cut, and its slices were delivered. -/
theorem process_eq_ok (h : process requests (.ofTensor o.name o.tensor) p = .ok () p') :
    ∃ cut q, p.2.1.slices (requests.map Request.rows) (.ofTensor o.name o.tensor) = .ok cut ∧
      deliverFrom (.ofTensor o.name o.tensor) (bytesView o.tensor.buffer) 0
        ((requests.zip cut).take p.2.2.length) p = .ok () q ∧
      p' = (q.1.emit (.scatteredOutput o.name requests.length p.2.1.pinned), q.2) := by
  obtain ⟨m, scatter, responses⟩ := p
  obtain ⟨_, _, hget, hrun⟩ := Action.bind_eq_ok h
  cases hget
  obtain ⟨cut, _, hslices, hrest⟩ := Action.bind_eq_ok hrun
  obtain ⟨hcut, rfl⟩ := Action.ofExcept_eq_ok hslices
  obtain ⟨u, q, hd, hend⟩ := Action.bind_eq_ok hrest
  cases hend
  exact ⟨cut, q, hcut, hd, rfl⟩

theorem queues_of_process (h : process requests (.ofTensor o.name o.tensor) p = .ok () p')
    (hw : p'.2.1.waiting = false) : p.2.1.waiting = false ∧ p'.1.queues = p.1.queues := by
  obtain ⟨cut, q, -, hd, rfl⟩ := process_eq_ok h
  have hqueued := queues_of_deliverFrom hd (show q.2.1.waiting = false from hw)
  exact hqueued

end Queued

end Local.Scatter

/-! ## Finalizing -/

namespace Local.Batch

open Scatter

variable {m₀ m m' : Machine} {T : List Holding} {requests : List Request} {before : List Response}
  {maximum : Nat} {S : Stream → Prop}

section Side

variable {output : OutputView} {sides : Sides} {scatter : Scatter}
  {responses responses' : List Response} {e : Error}

/-! What the scattering side does, with the gathering side beside it. -/

theorem scatter_of_ok (h : Scatter.process requests output (m, sides.outputs, responses) =
      .ok () (m', scatter, responses')) :
    exchange.scatter requests output (m, sides, responses) =
      .ok () (m', { sides with outputs := scatter }, responses') := by
  show Sides.onOutputs (Scatter.process requests _) (m, sides, responses) = _
  unfold Sides.onOutputs Action.within
  rw [h]

theorem scatter_of_error (h : Scatter.process requests output (m, sides.outputs, responses) =
      .error e (m', scatter, responses')) :
    exchange.scatter requests output (m, sides, responses) =
      .error e (m', { sides with outputs := scatter }, responses') := by
  show Sides.onOutputs (Scatter.process requests _) (m, sides, responses) = _
  unfold Sides.onOutputs Action.within
  rw [h]

end Side

/-- Handing out the outputs succeeds and leads there, apart from the note whether copies wait, which
is the answer. -/
def Reaches (requests : List Request) (outputs : List RecordedOutput)
    (p : Machine × Sides × List Response) (q : Machine × Scatter × List Response) : Prop :=
  DeviceBatch.Batch.scatterAll exchange requests outputs p = .ok q.2.1.waiting
    (q.1, { p.2.1 with outputs := { q.2.1 with waiting := false } }, q.2.2)

/-- The outputs are handed out one after the other, up to where that stops. The answer says whether
copies wait. -/
theorem scatterAll_cases (hk : m₀.Keeps (before.flatMap Response.holdings ++ T))
    (hsingle : maximum = 0 → requests.length ≤ 1)
    {outputs D : List RecordedOutput} (hy : ∀ o ∈ outputs, o.tensor.buffer.Readable T)
    (hS : ∀ o ∈ outputs, S o.tensor.buffer.stream)
    {sides : Sides} {responses : List Response}
    (hs : Spread m₀ T requests before maximum S (m, sides.outputs, responses))
    (hh : HandedOut m₀ requests before maximum m sides.outputs.waiting (fun _ => D) responses) :
    ∃ m' scatter responses', Spread m₀ T requests before maximum S (m', scatter, responses') ∧
      ((∃ e k o n q, ¬ e.RefusesCopy ∧
        DeviceBatch.Batch.scatterAll exchange requests outputs (m, sides, responses) =
          .error e (m', { sides with outputs := scatter }, responses') ∧
        outputs[k]? = some o ∧ Reaches requests (outputs.take k) (m, sides, responses) q ∧
        Stops requests q n o e (m', scatter, responses') ∧
        HandedOut m₀ requests before maximum m' scatter.waiting
          (fun i => D ++ (outputs.take k ++ if i < n then [o] else [])) responses') ∨
      ∃ waiting, DeviceBatch.Batch.scatterAll exchange requests outputs (m, sides, responses) =
          .ok waiting (m', { sides with outputs := scatter }, responses') ∧
        HandedOut m₀ requests before maximum m' waiting (fun _ => D ++ outputs) responses') := by
  induction outputs generalizing m sides responses D with
  | nil =>
    refine ⟨m, { sides.outputs with waiting := false }, responses,
      ⟨hs.machine, hs.sound, hs.streams, hs.maximum, hs.length, hs.batches⟩,
      .inr ⟨sides.outputs.waiting, rfl, ?_⟩⟩
    rw [List.append_nil]
    exact hh
  | cons o rest ih =>
    rcases process_cases hk (hy o List.mem_cons_self) (hS o List.mem_cons_self) hsingle hs hh with
      ⟨e, hcut, he⟩ | ⟨e, ⟨m₁, scatter, responses₁⟩, n, halloc, he, hs₁, hstops, hh₁⟩ |
      ⟨⟨m₁, scatter, responses₁⟩, hrun, hs₁, hh₁⟩
    · refine ⟨m, sides.outputs, responses, hs, .inl ⟨e, 0, o, 0, (m, sides.outputs, responses),
        Scatter.slices_unrefused _ _ _ e hcut, Action.bind_of_error (scatter_of_error he), rfl, rfl,
        .inl ⟨rfl, hcut, rfl⟩, hh.congr fun i _ => ?_⟩⟩
      rw [if_neg (Nat.not_lt_zero i), List.take_zero, List.append_nil, List.append_nil]
    · refine ⟨m₁, scatter, responses₁, hs₁, .inl ⟨e, 0, o, n, (m, sides.outputs, responses),
        halloc.not_refusesCopy, Action.bind_of_error (scatter_of_error he), rfl, rfl, hstops,
        hh₁.congr fun i _ => ?_⟩⟩
      by_cases hi : i < n
      · rw [if_pos hi, if_pos hi, List.take_zero, List.nil_append]
      · rw [if_neg hi, if_neg hi, List.take_zero, List.append_nil, List.append_nil]
    · have hstep := scatter_of_ok hrun
      have hs₁' : Spread m₀ T requests before maximum S
          (m₁, ({ sides with outputs := scatter } : Sides).outputs, responses₁) := hs₁
      obtain ⟨m', scatter', responses', hs', hrest⟩ := ih
        (fun o ho => hy o (List.mem_cons_of_mem _ ho))
        (fun o ho => hS o (List.mem_cons_of_mem _ ho)) hs₁' hh₁
      refine ⟨m', scatter', responses', hs', ?_⟩
      rcases hrest with ⟨e, k, o', n, q, hcause, he, hk, hreached, hstops, hh'⟩ |
        ⟨waiting, hrun', hh'⟩
      · refine .inl ⟨e, k + 1, o', n, q, hcause, (Action.bind_of_ok hstep).trans he, hk,
          (Action.bind_of_ok hstep).trans hreached, hstops, hh'.congr fun i _ => ?_⟩
        rw [List.append_assoc, List.take_succ_cons]
        rfl
      · refine .inr ⟨waiting, (Action.bind_of_ok hstep).trans hrun', ?_⟩
        rw [List.append_assoc] at hh'
        exact hh'

/-- The batch once its responses were filled, or as far as that went. -/
def handed (b : Batch) (scatter : Scatter) (responses : List Response) : Batch :=
  { b with held := { b.held with outputs := scatter }, responses, state := .finalized }

/-- What the response with number `i` has of an output of a finalized batch. The bytes are there
without more waiting if the output was on the stream of the batch. -/
structure Obtained (m : Machine) (b : Batch) (m' : Machine) (i : Nat) (o : RecordedOutput)
    (d : DeliveredOutput) : Prop where
  name : d.name = o.name
  shape : d.shape =
    (sliceOf b.held.outputs.maximum (b.requests.map Request.rows) o.tensor i).shape
  dtype : d.dtype = o.tensor.buffer.dtype
  placed : wanted b.requests i o.name = some (d.data.location, d.data.device)
  limit : d.data.byteSize < Machine.hostBlockLimit
  bytes : d.data.outlookBytes m'.outlook = part m o.tensor.buffer
    (sliceOf b.held.outputs.maximum (b.requests.map Request.rows) o.tensor i) d.data.location
  present : o.tensor.buffer.stream = b.stream → d.data.bytes m' = d.data.outlookBytes m'.outlook

/-- If no copy was put off, what waits is what waited before. -/
theorem queues_of_scatterAll {outputs : List RecordedOutput} {sides sides' : Sides}
    {responses responses' : List Response} {waiting : Bool}
    (h : DeviceBatch.Batch.scatterAll exchange requests outputs (m, sides, responses) =
      .ok waiting (m', sides', responses')) (hw : waiting = false) :
    sides.outputs.waiting = false ∧ m'.queues = m.queues := by
  induction outputs generalizing m sides responses with
  | nil =>
    obtain ⟨rfl, hend⟩ := EStateM.Result.ok.inj h
    cases hend
    exact ⟨hw, rfl⟩
  | cons o rest ih =>
    cases hp : Scatter.process requests (.ofTensor o.name o.tensor)
        (m, sides.outputs, responses) with
    | error e p => cases (Action.bind_of_error (scatter_of_error hp)).symm.trans h
    | ok u p =>
      obtain ⟨hrest, hsame⟩ := ih ((Action.bind_of_ok (scatter_of_ok hp)).symm.trans h)
      obtain ⟨hfirst, hsame'⟩ := queues_of_process hp hrest
      exact ⟨hfirst, hsame.trans hsame'⟩

variable {b : Batch}

section Run

variable {b' : Batch} {e : Error}

theorem flush_of_ok {waiting : Bool}
    (h : DeviceBatch.Batch.onOutputs (DeviceBatch.Batch.scatterAll exchange b.requests b.outputs)
      (m, b) = .ok waiting (m', b')) :
    DeviceBatch.Batch.flush exchange (m, b) =
      .ok waiting (if waiting then m'.synchronize b'.stream else m', b') := by
  unfold DeviceBatch.Batch.flush
  dsimp only
  rw [h]
  cases waiting <;> rfl

theorem flush_of_error
    (h : DeviceBatch.Batch.onOutputs (DeviceBatch.Batch.scatterAll exchange b.requests b.outputs)
      (m, b) = .error e (m', b')) :
    DeviceBatch.Batch.flush exchange (m, b) = .error e (m'.synchronize b'.stream, b') := by
  unfold DeviceBatch.Batch.flush
  dsimp only
  rw [h]

theorem finalize_of_ok {waiting : Bool} (hopen : b.state = .opened)
    (h : DeviceBatch.Batch.flush exchange (m, { b with state := .finalized }) =
      .ok waiting (m', b')) :
    DeviceBatch.Batch.finalize exchange (m, b) = .ok ()
      (DeviceBatch.Batch.reportSuccess b'.requests.length b'.outputs.length waiting m', b') := by
  unfold DeviceBatch.Batch.finalize
  simp only [hopen, h]

theorem finalize_of_error (hopen : b.state = .opened)
    (h : DeviceBatch.Batch.flush exchange (m, { b with state := .finalized }) =
      .error e (m', b')) :
    DeviceBatch.Batch.finalize exchange (m, b) =
      .error e (DeviceBatch.Batch.reportFailure e m', b') := by
  unfold DeviceBatch.Batch.finalize
  simp only [hopen, h]

variable {P : Bool → Machine × Batch → Prop} {R : Unit → Machine × Batch → Prop}
  {Q : Machine × Batch → Prop}

/-- What handing out all outputs leaves, with the waiting that comes after it. -/
theorem leaves_flush
    (h : (DeviceBatch.Batch.onOutputs (DeviceBatch.Batch.scatterAll exchange b.requests
      b.outputs)).Leaves (m, b)
        (fun waiting q => P waiting (if waiting then q.1.synchronize q.2.stream else q.1, q.2))
        fun q => Q (q.1.synchronize q.2.stream, q.2)) :
    (DeviceBatch.Batch.flush exchange).Leaves (m, b) P Q := by
  unfold Action.Leaves at h ⊢
  cases hrun : DeviceBatch.Batch.onOutputs (DeviceBatch.Batch.scatterAll exchange b.requests
      b.outputs) (m, b) with
  | ok waiting q =>
    rw [hrun] at h
    rw [flush_of_ok hrun]
    exact h
  | error e q =>
    rw [hrun] at h
    rw [flush_of_error hrun]
    exact h

/-- What an open batch leaves when it is finalized, with the report that comes after it. -/
theorem leaves_finalize (hopen : b.state = .opened)
    (h : (DeviceBatch.Batch.flush exchange).Leaves (m, { b with state := .finalized })
      (fun waiting q => R () (DeviceBatch.Batch.reportSuccess q.2.requests.length
        q.2.outputs.length waiting q.1, q.2))
      fun q => ∀ e, Q (DeviceBatch.Batch.reportFailure e q.1, q.2)) :
    (DeviceBatch.Batch.finalize exchange).Leaves (m, b) R Q := by
  unfold Action.Leaves at h ⊢
  cases hrun : DeviceBatch.Batch.flush exchange (m, { b with state := .finalized }) with
  | ok waiting q =>
    rw [hrun] at h
    rw [finalize_of_ok hopen hrun]
    exact h
  | error e q =>
    rw [hrun] at h
    rw [finalize_of_error hopen hrun]
    exact h e

end Run

/-- What was delivered is there in the end, after waiting if that was needed. -/
theorem Obtained.of_delivered {m₁ : Machine} {U : List Holding} {waiting : Bool} {i : Nat}
    {o : RecordedOutput} {d : DeliveredOutput}
    (hd : Delivered m b.requests b.held.outputs.maximum m₁ waiting i o d) (hk : m₁.Keeps U)
    (hproper : d.data.Proper) (hU : d.data.holdings (.bound d.data.stream) ⊆ U)
    (hmemory : m'.memory = (if waiting then m₁.synchronize b.stream else m₁).memory)
    (hout : m'.outlook.memory = m₁.outlook.memory) : Obtained m b m' i o d := by
  have hsame : d.data.outlookBytes m'.outlook = d.data.outlookBytes m₁.outlook := by
    unfold Buffer.outlookBytes
    rw [hout]
  refine ⟨hd.name, hd.shape, hd.dtype, hd.placed, hd.limit, hsame.trans hd.bytes,
    fun hstream => ?_⟩
  have hreadable := hproper.readable hU
  rw [hsame, Buffer.bytes, hmemory]
  cases waiting with
  | false =>
    have hu := hd.settled.resolve_left (by simp)
    exact hreadable.bytes_of_unwritten hk hu
  | true =>
    rw [if_pos rfl, ← hstream, ← hd.stream]
    exact hreadable.bytes_synchronize hk

/-- The responses of a batch have what their requests want of the outputs `L`. -/
def Hands (m : Machine) (b : Batch) (m' : Machine) (L : Nat → List RecordedOutput)
    (responses : List Response) : Prop :=
  responses.length = b.requests.length ∧ ∀ i r, responses[i]? = some r →
    List.Forall₂ (Obtained m b m' i) ((L i).filter fun o => (wanted b.requests i o.name).isSome)
      r.outputs

/-- What was handed out until a machine was left makes up the responses, if nothing that they hold
changes after that. -/
theorem Hands.of_handedOut {m₁ : Machine} {scatter : Scatter} {maximum : Nat} {waiting : Bool}
    {L : Nat → List RecordedOutput} {responses : List Response}
    (hs : Spread m T b.requests b.responses maximum S (m₁, scatter, responses))
    (hnone : ∀ r ∈ b.responses, r.outputs = [])
    (hh : HandedOut m b.requests b.responses b.held.outputs.maximum m₁ waiting L responses)
    (hmemory : m'.memory = (if waiting then m₁.synchronize b.stream else m₁).memory)
    (hout : m'.outlook.memory = m₁.outlook.memory) : Hands m b m' L responses := by
  refine ⟨hs.length, fun i r hr => ?_⟩
  have hmem := List.mem_of_getElem? hr
  refine forall₂_imp_of_mem (hh.outputs hnone hr) fun o _ d hd hgot => ?_
  exact Obtained.of_delivered hgot hs.machine.toExtends.keeps (hs.sound r hmem d hd).1
    (fun t ht => List.mem_append_left _
      (List.mem_flatMap.mpr ⟨r, hmem, List.mem_flatMap.mpr ⟨d, hd, ht⟩⟩))
    hmemory hout

/-- What finalizing has done when it failed: it handed out outputs up to where that stopped, then
waited for the stream of the batch. -/
structure FailedAt (m : Machine) (b : Batch) (e : Error) (m' : Machine)
    (responses : List Response) (k n : Nat) (o : RecordedOutput)
    (q p : Machine × Scatter × List Response) : Prop where
  output : b.outputs[k]? = some o
  reached : Reaches b.requests (b.outputs.take k) (m, b.held, b.responses) q
  stops : Stops b.requests q n o e p
  filled : p.2.2 = responses
  batches : m.metrics.SameBatches p.1.metrics
  machine : m' = DeviceBatch.Batch.reportFailure e (p.1.synchronize b.stream)
  settled : ∀ c, ¬ m'.Pending b.stream c
  hands : Hands m b m' (fun i => b.outputs.take k ++ if i < n then [o] else []) responses

/-- Finalizing an open batch hands out its outputs. Whatever comes of it, nothing is lost. -/
theorem finalize_cases (h : m.Keeps T) (hopen : b.state = .opened)
    (hempty : b.responses = b.requests.map Response.empty)
    (hsingle : b.held.outputs.maximum = 0 → b.requests.length ≤ 1)
    (hy : ∀ o ∈ b.outputs, o.tensor.buffer.Readable T)
    (hS : ∀ o ∈ b.outputs, S o.tensor.buffer.stream) :
    ∃ m' scatter responses, m.Extends T m' (responses.flatMap Response.holdings ++ T) ∧
      (∀ r ∈ responses, r.Sound) ∧ (∀ r ∈ responses, ∀ d ∈ r.outputs, S d.data.stream) ∧
      scatter.maximum = b.held.outputs.maximum ∧
      ((∃ e, ¬ e.RefusesCopy ∧ DeviceBatch.Batch.finalize exchange (m, b) =
          .error e (m', b.handed scatter responses) ∧
          ∃ k n o q p, FailedAt m b e m' responses k n o q p) ∨
        DeviceBatch.Batch.finalize exchange (m, b) = .ok () (m', b.handed scatter responses) ∧
        ((∀ c, ¬ m'.Pending b.stream c) ∨ m'.queues = m.queues) ∧
        Hands m b m' (fun _ => b.outputs) responses) := by
  have hnone : ∀ r ∈ b.responses, r.outputs = [] := fun r hr =>
    outputs_of_mem_empty (hempty ▸ hr)
  have hnothing : b.responses.flatMap Response.holdings = [] := by
    rw [hempty, holdings_empty]
  have hk : m.Keeps (b.responses.flatMap Response.holdings ++ T) := by
    rw [hnothing]
    exact h
  have hs : Spread m T b.requests b.responses b.held.outputs.maximum S
      (m, b.held.outputs, b.responses) :=
    .start hk hnone rfl (by rw [hempty, List.length_map])
  have hh : HandedOut m b.requests b.responses b.held.outputs.maximum m b.held.outputs.waiting
      (fun _ => []) b.responses := .start
  obtain ⟨m₁, scatter, responses, hs', hrun⟩ := scatterAll_cases hk hsingle hy hS hs hh
  have hext := hs'.machine.toExtends
  rw [hnothing, List.nil_append] at hext
  have hwait := hext.progress h (Machine.progress_synchronize hext.keeps b.stream).1
    Effect.keepsBelow_wait
  have hdone := (Machine.progress_synchronize hext.keeps b.stream).2
  have hwaitout : (m₁.synchronize b.stream).outlook.memory = m₁.outlook.memory := by
    rw [(Machine.progress_synchronize hext.keeps b.stream).1.outlook trivial]
    rfl
  rcases hrun with ⟨e, k, o, n, q, hcause, he, hko, hreached, hstops, hh'⟩ | ⟨waiting, hrun, hh'⟩
  · refine ⟨DeviceBatch.Batch.reportFailure e (m₁.synchronize b.stream), scatter, responses, ?_,
      hs'.sound, hs'.streams, hs'.maximum, .inl ⟨e, hcause, ?_, k, n, o, q,
        (m₁, scatter, responses), ?_⟩⟩
    · exact (((hwait.emit _).emit _).withMetrics _).emit _
    · exact finalize_of_error hopen
        (flush_of_error (b := { b with state := .finalized }) (Action.within_of_error he))
    · have hwaited : HandedOut m b.requests b.responses b.held.outputs.maximum m₁ true
          (fun i => b.outputs.take k ++ if i < n then [o] else []) responses := by
        intro i r hr
        obtain ⟨r₀, ds, hr₀, heq, hall⟩ := hh' i r hr
        exact ⟨r₀, ds, hr₀, heq, hall.imp fun _ _ hd => { hd with settled := .inl rfl }⟩
      exact {
        output := hko
        reached := hreached
        stops := hstops
        filled := rfl
        batches := hs'.batches
        machine := rfl
        settled := hdone
        hands := .of_handedOut hs' hnone hwaited rfl hwaitout }
  · refine ⟨DeviceBatch.Batch.reportSuccess b.requests.length b.outputs.length waiting
      (if waiting then m₁.synchronize b.stream else m₁), scatter, responses, ?_, hs'.sound,
      hs'.streams, hs'.maximum,
      .inr ⟨?_, ?_, .of_handedOut hs' hnone hh' (by cases waiting <;> rfl) ?_⟩⟩
    · cases waiting
      · exact (((hext.emit _).emit _).withMetrics _).emit _
      · exact (((hwait.emit _).emit _).withMetrics _).emit _
    · exact finalize_of_ok hopen
        (flush_of_ok (b := { b with state := .finalized }) (Action.within_of_ok hrun))
    · cases waiting
      · exact .inr (queues_of_scatterAll hrun rfl).2
      · exact .inl hdone
    · cases waiting
      · rfl
      · exact hwaitout

end Local.Batch

end DeviceBatch
