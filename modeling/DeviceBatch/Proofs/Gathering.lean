import DeviceBatch.Proofs.Storing

/-!
# Gathered inputs

The bytes of an input of a batch are those that the requests stored, one request behind the other
(`Local.Gather.collect_cases`). They lie in the storage of the only request, or in a staging buffer.
Some copies into that buffer may still wait. They write it from the front to the back and read it
nowhere, so it does not matter which of them wait and which were performed at once.
-/

namespace DeviceBatch

/-- Results of an action on every element of a list. -/
theorem forall₂_of_mapM_ok {α β ε : Type} {f : α → Except ε β} {as : List α} {bs : List β}
    (h : as.mapM f = .ok bs) : List.Forall₂ (fun a b => f a = .ok b) as bs := by
  induction as generalizing bs with
  | nil =>
    cases h
    exact .nil
  | cons a as ih =>
    rw [List.mapM_cons] at h
    cases ha : f a with
    | error e =>
      rw [ha] at h
      cases h
    | ok b =>
      cases has : as.mapM f with
      | error e =>
        rw [ha, has] at h
        cases h
      | ok bs' =>
        rw [ha, has] at h
        cases h
        exact .cons ha (ih has)

/-! ## Filling a buffer -/

namespace Local

variable {m m' : Machine} {T : List Holding} {g : Buffer} {stream : Stream} {offset : Nat}
  {done : List UInt8} {part : StoredInput}

/-- An input lies in storage that is held as stored. -/
structure StoredInput.StoredIn (i : StoredInput) (T : List Holding) : Prop where
  proper : i.data.Proper
  dtype : i.data.dtype = .uint8
  held : i.data.holdings .stored ⊆ T

theorem StoredInput.StoredIn.byteSize (h : part.StoredIn T) :
    part.data.byteSize = part.data.size := by
  rw [Buffer.byteSize, h.dtype]
  exact Nat.mul_one _

/-- The input will hold the same bytes after storage was added. -/
theorem StoredInput.StoredIn.outlookBytes_extends (h : part.StoredIn T) {T' : List Holding}
    (he : m.Extends T m' T') :
    part.data.outlookBytes m'.outlook = part.data.outlookBytes m.outlook :=
  h.proper.outlookBytes_congr .stored fun t ht => (he.fixed t (h.held ht) (by
    rw [Buffer.use_of_mem_holdings ht]
    trivial)).2

namespace Gather

/-- The buffer is filled up to an offset. Copies that wait write no bytes behind it and read none of
the buffer. -/
structure Filling (m : Machine) (T : List Holding) (g : Buffer) (stream : Stream) (offset : Nat)
    (done : List UInt8) : Prop where
  keeps : m.Keeps T
  proper : g.Proper
  dtype : g.dtype = .uint8
  bound : g.stream = stream
  held : g.holdings (.staged stream) ⊆ T
  waiting : g.byteSize ≠ 0 → ∀ s d, m.Pending s d → d.src.block ≠ g.data.block ∧
    (d.dst.block = g.data.block → d.dst.offset + d.bytes ≤ offset)
  filled : (g.outlookBytes m.outlook).take offset = done

/-- The part as the copy sees it. -/
def source (stream : Stream) (part : StoredInput) : Buffer :=
  { part.data with storage := .borrowed part.data.location part.data.data, stream }

/-- The copy of a part to its place. -/
def partCopy (g : Buffer) (stream : Stream) (offset : Nat) (part : StoredInput) : PendingCopy :=
  Buffer.rangeCopy g (source stream part) offset 0 part.data.size

theorem Filling.byteSize (h : Filling m T g stream offset done) : g.byteSize = g.size := by
  rw [Buffer.byteSize, h.dtype]
  exact Nat.mul_one _

/-- The copy of the next part writes behind the parts that are there. -/
theorem Filling.offset_partCopy (h : Filling m T g stream offset done) (hg : g.byteSize ≠ 0)
    (part : StoredInput) : (partCopy g stream offset part).dst.offset = offset := by
  obtain ⟨t, -, -, -, -, hdata⟩ := h.proper.holding h.held hg
  show g.data.offset + offset * g.dtype.width = offset
  rw [hdata, h.dtype]
  exact (Nat.zero_add _).trans (Nat.mul_one _)

/-- What is stored does not lie in the buffer. -/
theorem Filling.block_partCopy_ne (h : Filling m T g stream offset done) (hp : part.StoredIn T)
    (hg : g.byteSize ≠ 0) (hn : part.data.byteSize ≠ 0) :
    (partCopy g stream offset part).src.block ≠ g.data.block := by
  obtain ⟨t, ht, htuse, -, -, hdata⟩ := h.proper.holding h.held hg
  obtain ⟨u, hu, huuse, -, -, hdata'⟩ := hp.proper.holding hp.held hn
  intro heq
  have hblock : u.block = t.block := by
    rw [hdata] at heq
    exact (congrArg Pointer.block hdata').symm.trans heq
  have heq := Machine.Orderly.eq_of_block h.keeps (Machine.Keeps.mem hu) (Machine.Keeps.mem ht)
    hblock
  rw [heq, htuse] at huuse
  cases huuse

/-- No waiting copy stands in the way of the next part. -/
theorem Filling.clear (h : Filling m T g stream offset done) (hp : part.StoredIn T)
    (hg : g.byteSize ≠ 0) (hn : part.data.byteSize ≠ 0) :
    m.Clear (partCopy g stream offset part) := by
  obtain ⟨u, hu, huse, -, -, hdata'⟩ := hp.proper.holding hp.held hn
  intro s d hd
  obtain ⟨hsrc, hdst⟩ := h.waiting hg s d hd
  have hunwritten := Machine.Orderly.unwritten_of_stored h.keeps (Machine.Keeps.mem hu) huse s d hd
  have hread : (partCopy g stream offset part).src.block = u.block := congrArg Pointer.block hdata'
  have hwrite : (partCopy g stream offset part).dst.block = g.data.block := rfl
  have hapart : (partCopy g stream offset part).dst.Apart (partCopy g stream offset part).bytes
      d.dst d.bytes :=
    fun hb => .inr (by rw [h.offset_partCopy hg]; exact hdst hb.symm)
  refine ⟨⟨hapart, .of_ne fun heq => hunwritten (heq ▸ hread)⟩, ⟨hapart.symm, ?_⟩⟩
  exact .of_ne fun heq => hsrc (heq ▸ hwrite)

/-- The buffer is filled further by the copy of the next part. -/
theorem Filling.take_partCopy (h : Filling m T g stream offset done) (hp : part.StoredIn T)
    (hin : Buffer.inRange g (source stream part) offset 0 part.data.size = true) :
    (g.outlookBytes (m.outlook.afterAll (Effect.copies (partCopy g stream offset part)))).take
      (offset + part.data.size) = done ++ part.data.outlookBytes m.outlook := by
  have hty : g.dtype = (source stream part).dtype := h.dtype.trans hp.dtype.symm
  have hcopied := Buffer.outlookBytes_rangeCopy h.keeps h.proper h.held hty hin (o := m.outlook) rfl
  have hlen := hp.proper.length_outlookBytes h.keeps hp.held
  have hlen' := h.proper.length_outlookBytes h.keeps h.held
  rw [hp.byteSize] at hlen
  rw [h.byteSize] at hlen'
  have hsource : (source stream part).outlookBytes m.outlook = part.data.outlookBytes m.outlook :=
    rfl
  have hwidth : (source stream part).dtype.width = 1 := by
    rw [show (source stream part).dtype = part.data.dtype from rfl, hp.dtype]
    rfl
  rw [hsource, hwidth, Nat.mul_one, Nat.mul_one, Nat.zero_mul, List.drop_zero, Nat.sub_zero,
    ← hlen, List.take_length] at hcopied
  have hroom : offset + (part.data.outlookBytes m.outlook).length ≤
      (g.outlookBytes m.outlook).length := by
    rw [hlen, hlen']
    obtain ⟨-, -, hdst, hroom⟩ := Buffer.inRange_eq_true.mp hin
    omega
  have htake := Memory.take_splice hroom
  rw [h.filled] at htake
  rw [← hlen]
  refine Eq.trans ?_ htake
  rw [← hcopied, hlen]
  rfl

/-- One more part is put behind the others. -/
theorem Filling.step (h : Filling m T g stream offset done) (hp : part.StoredIn T)
    (hfit : offset + part.data.size ≤ g.size) :
    ∃ m', (source stream part).copyRange offset 0 (source stream part).size (m, g) =
        .ok () (m', g) ∧
      m.Progress T (Effect.copies (partCopy g stream offset part)) True m' T ∧
      Filling m' T g stream (offset + part.data.size)
        (done ++ part.data.outlookBytes m.outlook) := by
  have hin : Buffer.inRange g (source stream part) offset 0 part.data.size = true :=
    Buffer.inRange_eq_true.mpr ⟨Nat.zero_le _, Nat.le_refl _, by omega, by omega⟩
  have hty : g.dtype = (source stream part).dtype := h.dtype.trans hp.dtype.symm
  obtain ⟨m', hrun, hprog⟩ := Buffer.copyRange_of_stream_eq h.keeps hin h.bound hty
    fun hg hn => by
      obtain ⟨t, ht, htuse, htloc, htspan, -⟩ := h.proper.holding h.held hg
      obtain ⟨u, hu, huuse, huloc, huspan, -⟩ := hp.proper.holding hp.held hn
      refine ⟨t, ht, u, hu, htloc, huloc, htspan, huspan, ?_, ?_, fun _ _ => h.clear hp hg hn⟩
      · rw [htuse, huuse]
        exact ⟨rfl, rfl⟩
      · rw [huuse]
        trivial
  have hne : (partCopy g stream offset part).bytes ≠ 0 →
      g.byteSize ≠ 0 ∧ part.data.byteSize ≠ 0 := by
    intro hb
    have hpos := Nat.pos_of_mul_pos_right (Nat.pos_of_ne_zero hb)
    rw [h.byteSize, hp.byteSize]
    omega
  have hprog : m.Progress T (Effect.copies (partCopy g stream offset part)) True m' T :=
    hprog.imp fun _ hb _ => by
      obtain ⟨hg, hn⟩ := hne hb
      exact h.clear hp hg hn
  refine ⟨m', hrun, hprog, hprog.keeps, h.proper, h.dtype, h.bound, h.held, fun hg s d hd => ?_, ?_⟩
  · -- A copy that waits now waited before or is that of this part.
    rcases hprog.pending s d hd with hd | hd
    · obtain ⟨hsrc, hdst⟩ := h.waiting hg s d hd
      exact ⟨hsrc, fun hb => Nat.le_trans (hdst hb) (Nat.le_add_right _ _)⟩
    · obtain ⟨hb, heq⟩ := Effect.mem_copies.mp hd
      cases heq
      refine ⟨h.block_partCopy_ne hp hg (hne hb).2, fun _ => ?_⟩
      rw [h.offset_partCopy hg]
      show offset + (part.data.size - 0) * part.data.dtype.width ≤ _
      rw [hp.dtype]
      simp [ElementType.width]
  · rw [hprog.outlook trivial]
    exact h.take_partCopy hp hin

/-- All parts are put one behind the other. -/
theorem Filling.fillFrom (h : Filling m T g stream offset done) {parts : List StoredInput}
    (hp : ∀ part ∈ parts, part.StoredIn T)
    (hfit : offset + (parts.map fun part => part.data.size).sum ≤ g.size) {n : Nat}
    (hn : g.byteSize ≠ 0 → n ≤ g.data.block) :
    ∃ m' es, Gather.fillFrom stream offset parts (m, g) = .ok () (m', g) ∧
      m.Progress T es True m' T ∧ Effect.KeepsBelow n es ∧
      Filling m' T g stream (offset + (parts.map fun part => part.data.size).sum)
        (done ++ parts.flatMap fun part => part.data.outlookBytes m.outlook) := by
  induction parts generalizing m offset done with
  | nil =>
    refine ⟨m, [], rfl, .refl h.keeps, Effect.keepsBelow_nil, ?_⟩
    rw [List.flatMap_nil, List.append_nil]
    exact h
  | cons part rest ih =>
    have hpart := hp part List.mem_cons_self
    have hrest := fun q hq => hp q (List.mem_cons_of_mem part hq)
    rw [List.map_cons, List.sum_cons] at hfit ⊢
    obtain ⟨m₁, hrun, hprog, hnext⟩ := h.step hpart (by omega)
    obtain ⟨m', es, hrun', hprog', hes, hdone⟩ := ih hnext hrest (by omega)
    have hkeeps : Effect.KeepsBelow n (Effect.copies (partCopy g stream offset part)) := by
      refine Effect.keepsBelow_copies fun hb => hn ?_
      have hpos := Nat.pos_of_mul_pos_right (Nat.pos_of_ne_zero hb)
      rw [h.byteSize]
      omega
    -- The copy writes into the staging buffer only, so the parts behind are as they were.
    have hsame : ∀ q ∈ rest, q.data.outlookBytes m₁.outlook = q.data.outlookBytes m.outlook := by
      intro q hq
      have hstored := hrest q hq
      refine hstored.proper.outlookBytes_congr .stored fun t ht => ?_
      have hut := Buffer.use_of_mem_holdings ht
      refine (hprog.fixed t (hstored.held ht) (by rw [hut]; trivial) fun e he heq => ?_).2
      obtain ⟨hb, rfl⟩ := Effect.mem_copies.mp he
      have hpos := Nat.pos_of_mul_pos_right (Nat.pos_of_ne_zero hb)
      obtain ⟨u, hu, huse, -, -, hdata⟩ := h.proper.holding h.held (by rw [h.byteSize]; omega)
      have hblock : g.data.block = t.block := heq
      rw [hdata] at hblock
      have := Machine.Orderly.eq_of_block h.keeps (Machine.Keeps.mem hu)
        (Machine.Keeps.mem (hstored.held ht)) hblock
      rw [this, hut] at huse
      cases huse
    refine ⟨m', _, (Action.bind_of_ok hrun).trans hrun', (hprog.trans hprog').imp
      fun _ => ⟨trivial, trivial⟩, hkeeps.append hes, ?_⟩
    rw [List.flatMap_cons, ← List.append_assoc, ← Nat.add_assoc,
      ← List.flatMap_congr hsame]
    exact hdone

/-- The staging buffer holds all parts, or there is no storage for it. -/
theorem concatenate_cases (h : m.Keeps T) {parts : List StoredInput}
    (hp : ∀ part ∈ parts, part.StoredIn T) (location : Location) (device : Nat) (stream : Stream) :
    (∃ e, e.IsAllocation ∧ concatenate parts location device stream m = .error e m) ∨
    ∃ g m', concatenate parts location device stream m = .ok g m' ∧ g.Proper ∧ g.dtype = .uint8 ∧
      g.stream = stream ∧ g.size = (parts.map fun part => part.data.byteSize).sum ∧
      g.location = location ∧ m.Extends T m' (g.holdings (.staged stream) ++ T) ∧
      g.outlookBytes m'.outlook = parts.flatMap fun part => part.data.outlookBytes m.outlook := by
  have hsizes : (parts.map fun part => part.data.byteSize) = parts.map fun part => part.data.size :=
    List.map_congr_left fun part hpart => (hp part hpart).byteSize
  unfold concatenate
  rcases Buffer.allocate_cases .uint8 (parts.map fun part => part.data.byteSize).sum location device
    stream h with ⟨e, halloc, ha⟩ | ⟨m₁, ha, hprog⟩
  · exact .inl ⟨e, halloc, Action.bind_of_error ha⟩
  · right
    have hprog := hprog (.staged stream)
    -- The buffer gets a name, for its fields would be unfolded in every goal otherwise.
    obtain ⟨g, hg⟩ : ∃ g, g = Buffer.fresh m.memory.next .uint8
      (parts.map fun part => part.data.byteSize).sum location device stream := ⟨_, rfl⟩
    rw [← hg] at ha hprog
    have hsize : g.size = (parts.map fun part => part.data.byteSize).sum := by rw [hg]; rfl
    have hnew : g.byteSize ≠ 0 → g.data.block = m.memory.next := by
      intro hz
      rw [hg] at hz ⊢
      exact congrArg Pointer.block (Buffer.fresh_data hz)
    have hext := hprog.extends h (Effect.sparesBelow_allocs _).keepsBelow
    have hfilling : Filling m₁ (g.holdings (.staged stream) ++ T) g stream 0 [] := {
      keeps := hprog.keeps
      proper := by rw [hg]; exact Buffer.fresh_proper ..
      dtype := by rw [hg]; rfl
      bound := by rw [hg]; rfl
      held := List.subset_append_left _ _
      waiting := fun hz s d hd => by
        have hu := Buffer.untouched_fresh h hprog Buffer.not_copiesAt_allocs s d hd
        rw [hnew hz]
        exact ⟨fun heq => hu (.inr heq), fun heq => absurd (.inl heq) hu⟩
      filled := List.take_zero }
    have hstored : ∀ part ∈ parts, part.StoredIn (g.holdings (.staged stream) ++ T) :=
      fun part hpart => ⟨(hp part hpart).proper, (hp part hpart).dtype,
        List.subset_append_of_subset_right _ (hp part hpart).held⟩
    obtain ⟨m', es, hrun, hprog', hes, hdone⟩ := hfilling.fillFrom (n := m.memory.next) hstored
      (Nat.le_of_eq (by rw [Nat.zero_add, ← hsizes, hsize])) fun hz => Nat.le_of_eq (hnew hz).symm
    refine ⟨g, m', ?_, hfilling.proper, hfilling.dtype, hfilling.bound, hsize, by rw [hg]; rfl,
      hext.progress h hprog' hes, ?_⟩
    · refine (Action.bind_of_ok ha).trans ?_
      rw [hrun]
    · have hlen := hfilling.proper.length_outlookBytes hdone.keeps hdone.held
      rw [hfilling.byteSize, hsize, hsizes] at hlen
      have hfilled := hdone.filled
      rw [Nat.zero_add, ← hlen, List.take_length, List.nil_append] at hfilled
      rw [hfilled]
      exact List.flatMap_congr fun part hpart => (hp part hpart).outlookBytes_extends hext

/-! ## Collecting -/

theorem eq_of_inPlace? {parts : List StoredInput} {location : Location} {device : Nat}
    {single : StoredInput} (h : inPlace? parts location device = some single) :
    parts = [single] ∧ single.data.location = location := by
  unfold inPlace? at h
  split at h
  · next part =>
    split at h
    · next hlies =>
      cases h
      unfold liesAt at hlies
      rw [Bool.and_eq_true] at hlies
      exact ⟨rfl, eq_of_beq hlies.1⟩
    · cases h
  · cases h

/-- Where an input that is asked for is looked for in fact. -/
def target (m : Machine) (query : InputQuery) : Location × Nat :=
  if query.location.isDevice && !m.platform.hasDeviceMemory then (.host, 0)
  else (query.location, query.device)

/-- The machine after it was reported whether that is not where it was asked for. -/
def aimed (m : Machine) (query : InputQuery) : Machine :=
  if query.location.isDevice && !m.platform.hasDeviceMemory then
    m.emit (.gatheringOnHost query.name)
  else m

theorem extends_aimed (h : m.Keeps T) (query : InputQuery) :
    m.Extends T (aimed m query) T ∧ (aimed m query).outlook = m.outlook := by
  unfold aimed
  split
  · exact ⟨(Machine.Extends.refl h).emit _, rfl⟩
  · exact ⟨.refl h, rfl⟩

section Run

variable {requests : List Request} {query : InputQuery} {gather : Gather}
  {parts : List StoredInput} (hparts : requests.mapM (fun r => r.input query.name) = .ok parts)
include hparts

theorem collect_of_inPlace {single : StoredInput}
    (hin : inPlace? parts (target m query).1 (target m query).2 = some single) :
    collect requests query (m, gather) =
      .ok ⟨some single.data.data, single.data.byteSize, (target m query).1, (target m query).2⟩
        ((aimed m query).emit (.inputInPlace query.name), gather) := by
  unfold target at hin ⊢
  unfold collect aimed
  rw [hparts]
  cases hc : query.location.isDevice && !m.platform.hasDeviceMemory <;>
  · simp only [hc, Bool.false_eq_true, if_false, if_true] at hin
    simp only [Action.ofExcept, pure_bind, Action.get_bind, Action.change_bind, hc,
      Bool.false_eq_true, if_false, if_true, hin]
    rfl

theorem collect_of_ok {m' : Machine}
    (hin : inPlace? parts (target m query).1 (target m query).2 = none)
    (hg : concatenate parts (target m query).1 (target m query).2 query.stream (aimed m query) =
      .ok g m') :
    collect requests query (m, gather) =
      .ok ⟨some g.data, g.size, (target m query).1, (target m query).2⟩
        (m'.emit (.gatheredInput query.name parts.length g.size gather.pinned),
          { gather with staging := gather.staging ++ [g] }) := by
  unfold target at hin hg ⊢
  unfold aimed at hg
  unfold collect
  rw [hparts]
  cases hc : query.location.isDevice && !m.platform.hasDeviceMemory <;>
  · simp only [hc, Bool.false_eq_true, if_false, if_true] at hin hg
    simp only [Action.ofExcept, pure_bind, Action.get_bind, Action.change_bind, hc,
      Bool.false_eq_true, if_false, if_true, hin]
    exact Action.bind_of_ok (Action.onFirst_of_ok hg gather)

theorem collect_of_error {m' : Machine} {e : Error}
    (hin : inPlace? parts (target m query).1 (target m query).2 = none)
    (hg : concatenate parts (target m query).1 (target m query).2 query.stream (aimed m query) =
      .error e m') :
    collect requests query (m, gather) = .error e (m', gather) := by
  unfold target at hin hg
  unfold aimed at hg
  unfold collect
  rw [hparts]
  cases hc : query.location.isDevice && !m.platform.hasDeviceMemory <;>
  · simp only [hc, Bool.false_eq_true, if_false, if_true] at hin hg
    simp only [Action.ofExcept, pure_bind, Action.get_bind, Action.change_bind, hc,
      Bool.false_eq_true, if_false, if_true, hin]
    exact Action.bind_of_error (Action.onFirst_of_error hg gather)

end Run

theorem collect_of_missing {requests : List Request} {query : InputQuery} {gather : Gather}
    {e : Error} (hparts : requests.mapM (fun r => r.input query.name) = .error e) :
    collect requests query (m, gather) = .error e (m, gather) := by
  unfold collect
  rw [hparts]
  rfl

/-- An input that was collected: the machine and what it holds, the buffers that are new, and where
the bytes lie. -/
structure Collected (m : Machine) (T : List Holding) (query : InputQuery)
    (parts : List StoredInput) (m' : Machine) (new : List Buffer) (p : Pointer) (n : Nat)
    (location : Location) : Prop where
  machine : m.Extends T m' (new.flatMap (fun g => g.holdings (.staged query.stream)) ++ T)
  staging : ∀ g ∈ new, g.Proper ∧ g.dtype = .uint8 ∧ g.stream = query.stream
  size : n = (parts.map fun part => part.data.byteSize).sum
  bytes : m'.outlook.memory.read p n =
    parts.flatMap fun part => part.data.outlookBytes m.outlook
  lies : n ≠ 0 → ∃ t ∈ parts.flatMap (fun part => part.data.holdings .stored) ++
      new.flatMap (fun g => g.holdings (.staged query.stream)),
    t.use.IsFixed ∧ t.Spans p n ∧ t.location = location ∧ t.use.Gives query.stream

/-- The requests lie in storage that is held as stored. -/
def StoredAll (requests : List Request) (T : List Holding) : Prop :=
  ∀ r ∈ requests, r.Sound ∧ r.holdings ⊆ T

/-- Every part is an input of a request. -/
theorem mem_inputs_of_part {requests : List Request} {name : String} {parts : List StoredInput}
    (hp : requests.mapM (fun r => r.input name) = .ok parts) {part : StoredInput}
    (hpart : part ∈ parts) : ∃ r ∈ requests, part ∈ r.inputs := by
  obtain ⟨k, hk, rfl⟩ := List.getElem_of_mem hpart
  have hall := List.forall₂_iff_get.mp (forall₂_of_mapM_ok hp)
  have hinput := hall.2 k (hall.1 ▸ hk) hk
  refine ⟨_, List.getElem_mem (hall.1 ▸ hk), ?_⟩
  unfold Request.input at hinput
  split at hinput
  · next i hi =>
    cases hinput
    exact List.mem_of_find?_eq_some hi
  · cases hinput

theorem StoredAll.storedIn {requests : List Request} (h : StoredAll requests T) {name : String}
    {parts : List StoredInput} (hp : requests.mapM (fun r => r.input name) = .ok parts) :
    ∀ part ∈ parts, part.StoredIn T := by
  intro part hpart
  obtain ⟨r, hr, hmem⟩ := mem_inputs_of_part hp hpart
  obtain ⟨hsound, hsub⟩ := h r hr
  obtain ⟨hproper, hdtype⟩ := hsound _ hmem
  exact ⟨hproper, hdtype, fun t ht => hsub (List.mem_flatMap.mpr ⟨_, hmem, ht⟩)⟩

/-- The storage of the parts is storage of the requests. -/
theorem storage_of_parts {requests : List Request} {name : String} {parts : List StoredInput}
    (hp : requests.mapM (fun r => r.input name) = .ok parts) :
    parts.flatMap (fun part => part.data.holdings .stored) ⊆
      requests.flatMap Request.holdings := by
  intro t ht
  obtain ⟨part, hpart, ht⟩ := List.mem_flatMap.mp ht
  obtain ⟨r, hr, hmem⟩ := mem_inputs_of_part hp hpart
  exact List.mem_flatMap.mpr ⟨r, hr, List.mem_flatMap.mpr ⟨part, hmem, ht⟩⟩

/-- The one part that is used where it lies. -/
theorem collected_inPlace (h : m.Keeps T) (query : InputQuery) {part : StoredInput}
    (hp : part.StoredIn T) (hloc : part.data.location = (target m query).1) :
    Collected m T query [part] ((aimed m query).emit (.inputInPlace query.name)) []
      part.data.data part.data.byteSize (target m query).1 where
  machine := (extends_aimed h query).1.emit _
  staging _ hg := absurd hg List.not_mem_nil
  size := (Nat.add_zero _).symm
  bytes := by
    rw [List.flatMap_cons, List.flatMap_nil, List.append_nil]
    show (aimed m query).outlook.memory.read _ _ = _
    rw [(extends_aimed h query).2]
    rfl
  lies hn := by
    obtain ⟨t, ht, huse, htloc, hspan, -⟩ := hp.proper.holding
      (List.Subset.refl (part.data.holdings .stored)) hn
    refine ⟨t, ?_, ?_, hspan, htloc.trans hloc, ?_⟩
    · rw [List.flatMap_cons]
      exact List.mem_append_left _ (List.mem_append_left _ ht)
    · rw [huse]
      trivial
    · rw [huse]
      trivial

/-- Parts that were put one behind the other into a staging buffer. -/
theorem collected_staged {query : InputQuery} {parts : List StoredInput} {g : Buffer} {m' : Machine}
    {location : Location} (hproper : g.Proper) (hdtype : g.dtype = .uint8)
    (hstream : g.stream = query.stream)
    (hsize : g.size = (parts.map fun part => part.data.byteSize).sum)
    (hloc : g.location = location)
    (hext : m.Extends T m' (g.holdings (.staged query.stream) ++ T))
    (hbytes : g.outlookBytes m'.outlook =
      parts.flatMap fun part => part.data.outlookBytes m.outlook) :
    Collected m T query parts m' [g] g.data g.size location := by
  have hn : g.byteSize = g.size := by
    rw [Buffer.byteSize, hdtype]
    exact Nat.mul_one _
  exact {
    machine := by
      rw [List.flatMap_cons, List.flatMap_nil, List.append_nil]
      exact hext
    staging := fun g' hg' => by
      rw [List.mem_singleton.mp hg']
      exact ⟨hproper, hdtype, hstream⟩
    size := hsize
    bytes := by
      rw [← hbytes, ← hn]
      rfl
    lies := fun hz => by
      rw [← hn] at hz ⊢
      obtain ⟨t, ht, huse, htloc, hspan, -⟩ := hproper.holding
        (List.Subset.refl (g.holdings (.staged query.stream))) hz
      refine ⟨t, ?_, ?_, hspan, htloc.trans hloc, ?_⟩
      · rw [List.flatMap_cons, List.flatMap_nil, List.append_nil]
        exact List.mem_append_right _ ht
      · rw [huse]
        trivial
      · rw [huse]
        rfl }

/-- Collecting an input brings the bytes of all requests together, or fails and leaves all as it
was. -/
theorem collect_cases (h : m.Keeps T) {requests : List Request} (hr : StoredAll requests T)
    (query : InputQuery) (gather : Gather) :
    (∃ e m', ¬ e.RefusesCopy ∧ collect requests query (m, gather) = .error e (m', gather) ∧
      m.Extends T m' T) ∨
    ∃ parts m' new p n, requests.mapM (fun r => r.input query.name) = .ok parts ∧
      collect requests query (m, gather) =
        .ok ⟨some p, n, (target m query).1, (target m query).2⟩
          (m', { gather with staging := gather.staging ++ new }) ∧
      Collected m T query parts m' new p n (target m query).1 := by
  cases hparts : requests.mapM (fun r => r.input query.name) with
  | error e =>
    have hfound := Unrefused.mapM fun r (_ : r ∈ requests) => r.input_unrefused query.name
    exact .inl ⟨e, m, hfound e hparts, collect_of_missing hparts, .refl h⟩
  | ok parts =>
    have hstored := hr.storedIn hparts
    obtain ⟨haim, hout⟩ := extends_aimed h query
    cases hin : inPlace? parts (target m query).1 (target m query).2 with
    | some single =>
      right
      obtain ⟨rfl, hloc⟩ := eq_of_inPlace? hin
      refine ⟨[single], _, [], _, _, rfl, ?_,
        collected_inPlace h query (hstored single List.mem_cons_self) hloc⟩
      rw [collect_of_inPlace hparts hin, List.append_nil]
    | none =>
      rcases concatenate_cases haim.keeps hstored (target m query).1 (target m query).2
        query.stream with ⟨e, halloc, hg⟩ |
        ⟨g, m', hg, hproper, hdtype, hstream, hsize, hloc, hext, hbytes⟩
      · exact .inl ⟨e, _, halloc.not_refusesCopy, collect_of_error hparts hin hg, haim⟩
      · rw [hout] at hbytes
        exact .inr ⟨parts, _, [g], g.data, g.size, rfl, collect_of_ok hparts hin hg,
          collected_staged hproper hdtype hstream hsize hloc ((haim.trans hext).emit _) hbytes⟩

end Gather

/-! ## Inputs as tensors -/

namespace Batch

variable {b : Batch}

/-- The batch with more staging buffers. -/
def withStaging (b : Batch) (new : List Buffer) : Batch :=
  { b with
    held := { b.held with
      inputs := { b.held.inputs with staging := b.held.inputs.staging ++ new } } }

theorem onInputs_of_ok {query : InputQuery} {c : CollectedInput} {new : List Buffer}
    (h : Gather.collect b.requests query (m, b.held.inputs) =
      .ok c (m', { b.held.inputs with staging := b.held.inputs.staging ++ new })) :
    DeviceBatch.Batch.onInputs (exchange.collect b.requests query) (m, b) =
      .ok c (m', b.withStaging new) := by
  have hsides : exchange.collect b.requests query (m, b.held) =
      .ok c (m', { b.held with
        inputs := { b.held.inputs with staging := b.held.inputs.staging ++ new } }) := by
    show Sides.onInputs (Gather.collect b.requests query) (m, b.held) = _
    unfold Sides.onInputs Action.within
    rw [h]
  unfold DeviceBatch.Batch.onInputs Action.within
  rw [hsides]
  rfl

theorem onInputs_of_error {query : InputQuery} {e : Error} {gather : Gather}
    (h : Gather.collect b.requests query (m, b.held.inputs) = .error e (m', gather)) :
    DeviceBatch.Batch.onInputs (exchange.collect b.requests query) (m, b) =
      .error e (m', { b with held := { b.held with inputs := gather } }) := by
  have hsides : exchange.collect b.requests query (m, b.held) =
      .error e (m', { b.held with inputs := gather }) := by
    show Sides.onInputs (Gather.collect b.requests query) (m, b.held) = _
    unfold Sides.onInputs Action.within
    rw [h]
  unfold DeviceBatch.Batch.onInputs Action.within
  rw [hsides]

/-- The storage that is new for an input of a batch: the machine, what it holds, and the buffers. -/
structure Staged (m : Machine) (T : List Holding) (b : Batch) (m' : Machine) (new : List Buffer) :
    Prop where
  machine : m.Extends T m' (new.flatMap (fun g => g.holdings (.staged b.stream)) ++ T)
  staging : ∀ g ∈ new, g.Proper ∧ g.dtype = .uint8 ∧ g.stream = b.stream

/-- An input of a batch: a view of the bytes that all requests stored. -/
structure Given (m : Machine) (T : List Holding) (b : Batch) (name : String) (dtype : ElementType)
    (location : Location) (device : Nat) (m' : Machine) (new : List Buffer)
    (parts : List StoredInput) (t : Tensor) : Prop where
  staged : Staged m T b m' new
  opened : b.state = .opened
  shape : b.combinedShape exchange name = .ok t.shape
  found : b.requests.mapM (fun r => r.input name) = .ok parts
  dtype : t.buffer.dtype = dtype
  /-- Host memory is the same for all devices. -/
  placed : t.buffer.location = location ∧ (location = .device → t.buffer.device = device)
  size : t.buffer.byteSize = (parts.map fun part => part.data.byteSize).sum
  bytes : t.buffer.outlookBytes m'.outlook =
    parts.flatMap fun part => part.data.outlookBytes m.outlook
  views : t.buffer.Views b.stream (b.withStaging new).seen

/-- The buffer over what was collected. -/
theorem toBuffer_of_collected {query : InputQuery} {parts : List StoredInput} {new : List Buffer}
    {p : Pointer} {n device : Nat} {location : Location} {dtype : ElementType} {buffer : Buffer}
    (h : Gather.Collected m T query parts m' new p n location)
    (hb : CollectedInput.toBuffer ⟨some p, n, location, device⟩ dtype query = .ok buffer) :
    buffer.dtype = dtype ∧
      (buffer.location = query.location ∧
        (query.location = .device → buffer.device = query.device)) ∧
      buffer.byteSize = n ∧
      buffer.outlookBytes m'.outlook =
        (parts.flatMap fun part => part.data.outlookBytes m.outlook) ∧
      buffer.Views query.stream (parts.flatMap (fun part => part.data.holdings .stored) ++
        new.flatMap fun g => g.holdings (.staged query.stream)) := by
  unfold CollectedInput.toBuffer at hb
  split at hb
  · cases hb
  · next hplace =>
    have hplaced : location = query.location ∧
        (query.location = .device → device = query.device) := by
      rw [not_or, not_and, not_not] at hplace
      exact ⟨hplace.1, fun hd => not_not.mp (hplace.2 hd)⟩
    dsimp only at hb
    split at hb
    · next hz =>
      cases hb
      have hbytes := h.bytes
      rw [show n = 0 from hz, Memory.read_zero] at hbytes
      have hempty : (Buffer.borrow dtype location .dangling 0 device query.stream).byteSize = 0 :=
        Nat.zero_mul _
      refine ⟨rfl, hplaced, hempty.trans hz.symm, ?_, rfl, rfl, fun hn => absurd hempty hn⟩
      rw [← hbytes, Buffer.outlookBytes, hempty, Memory.read_zero]
    · next hz =>
      split at hb
      · cases hb
      · split at hb
        · cases hb
        · next hwhole =>
          cases hb
          have hsize : (Buffer.borrow dtype location p (n / dtype.width) device
              query.stream).byteSize = n :=
            Nat.div_mul_cancel (Nat.dvd_of_mod_eq_zero (by omega))
          refine ⟨rfl, hplaced, hsize, ?_, rfl, rfl, fun _ => ?_⟩
          · rw [Buffer.outlookBytes, hsize]
            exact h.bytes
          · rw [hsize]
            exact h.lies hz

theorem withStaging_nil (b : Batch) : b.withStaging [] = b := by
  unfold withStaging
  rw [List.append_nil]

/-! ### The steps on the way to an input -/

section Steps

variable {name : String} {dtype : ElementType} {location : Location} {device bytes : Nat}
  {shape : Shape} {e : Error}

theorem getInput_of_shape_error (h : b.combinedShape exchange name = .error e) :
    DeviceBatch.Batch.getInput exchange name dtype location device (m, b) = .error e (m, b) :=
  Action.ofExcept_bind_of_error h _ _

variable (hshape : b.combinedShape exchange name = .ok shape)
include hshape

theorem getInput_of_bytes_error
    (h : DeviceBatch.Batch.inputBytes name dtype shape = .error e) :
    DeviceBatch.Batch.getInput exchange name dtype location device (m, b) = .error e (m, b) :=
  (Action.ofExcept_bind_of_ok hshape _ _).trans (Action.ofExcept_bind_of_error h _ _)

variable (hbytes : DeviceBatch.Batch.inputBytes name dtype shape = .ok bytes)
include hbytes

theorem getInput_of_collect_error {gather : Gather}
    (h : Gather.collect b.requests ⟨name, bytes, location, device, b.stream⟩ (m, b.held.inputs) =
      .error e (m', gather)) :
    DeviceBatch.Batch.getInput exchange name dtype location device (m, b) =
      .error e (m', { b with held := { b.held with inputs := gather } }) :=
  (Action.ofExcept_bind_of_ok hshape _ _).trans ((Action.ofExcept_bind_of_ok hbytes _ _).trans
    (Action.bind_of_error (onInputs_of_error h)))

variable {c : CollectedInput} {new : List Buffer}
  (hcollect : Gather.collect b.requests ⟨name, bytes, location, device, b.stream⟩
    (m, b.held.inputs) = .ok c (m', { b.held.inputs with staging := b.held.inputs.staging ++ new }))
include hcollect

theorem getInput_of_buffer_error
    (h : c.toBuffer dtype ⟨name, bytes, location, device, b.stream⟩ = .error e) :
    DeviceBatch.Batch.getInput exchange name dtype location device (m, b) =
      .error e (m', b.withStaging new) :=
  (Action.ofExcept_bind_of_ok hshape _ _).trans ((Action.ofExcept_bind_of_ok hbytes _ _).trans
    ((Action.bind_of_ok (onInputs_of_ok hcollect)).trans (Action.ofExcept_bind_of_error h _ _)))

theorem getInput_of_buffer {buffer : Buffer}
    (h : c.toBuffer dtype ⟨name, bytes, location, device, b.stream⟩ = .ok buffer) :
    DeviceBatch.Batch.getInput exchange name dtype location device (m, b) =
      Action.ofExcept (Tensor.ofBuffer shape buffer)
        (m'.emit (.collectedInput name shape c.byteSize location), b.withStaging new) :=
  (Action.ofExcept_bind_of_ok hshape _ _).trans ((Action.ofExcept_bind_of_ok hbytes _ _).trans
    ((Action.bind_of_ok (onInputs_of_ok hcollect)).trans
      ((Action.ofExcept_bind_of_ok h _ _).trans rfl)))

end Steps

/-- An input is a view of what all requests stored. If it cannot be given out, nothing is lost. -/
theorem getInput_cases (h : m.Keeps T) (hr : Gather.StoredAll b.requests T) (name : String)
    (dtype : ElementType) (location : Location) (device : Nat) :
    (∃ e m' new, ¬ e.RefusesCopy ∧
      DeviceBatch.Batch.getInput exchange name dtype location device (m, b) =
        .error e (m', b.withStaging new) ∧ Staged m T b m' new) ∨
    ∃ t m' new parts, DeviceBatch.Batch.getInput exchange name dtype location device (m, b) =
      .ok t (m', b.withStaging new) ∧
        Given m T b name dtype location device m' new parts t := by
  have hfail : Staged m T b m [] := ⟨.refl h, fun _ hg => absurd hg List.not_mem_nil⟩
  cases hshape : b.combinedShape exchange name with
  | error e =>
    refine .inl ⟨e, m, [], b.combinedShape_unrefused name e hshape, ?_, hfail⟩
    rw [withStaging_nil]
    exact getInput_of_shape_error hshape
  | ok shape =>
    have hopened := DeviceBatch.Batch.opened_of_combinedShape hshape
    cases hcount : DeviceBatch.Batch.inputBytes name dtype shape with
    | error e =>
      refine .inl ⟨e, m, [], inputBytes_unrefused name dtype shape e hcount, ?_, hfail⟩
      rw [withStaging_nil]
      exact getInput_of_bytes_error hshape hcount
    | ok bytes =>
      let query : InputQuery := ⟨name, bytes, location, device, b.stream⟩
      rcases Gather.collect_cases h hr query b.held.inputs with
        ⟨e, m', hcause, hc, hext⟩ | ⟨parts, m', new, p, n, hparts, hc, hcollected⟩
      · refine .inl ⟨e, m', [], hcause, ?_, hext, fun _ hg => absurd hg List.not_mem_nil⟩
        rw [withStaging_nil]
        exact getInput_of_collect_error hshape hcount hc
      · cases hbuffer : CollectedInput.toBuffer ⟨some p, n, (Gather.target m query).1,
            (Gather.target m query).2⟩ dtype query with
        | error e =>
          exact .inl ⟨e, m', new, CollectedInput.toBuffer_unrefused _ dtype query e hbuffer,
            getInput_of_buffer_error hshape hcount hc hbuffer, hcollected.machine,
            hcollected.staging⟩
        | ok buffer =>
          obtain ⟨hdtype, hplaced, hsize, hbytes, hviews⟩ :=
            toBuffer_of_collected hcollected hbuffer
          let m'' := m'.emit (.collectedInput name shape n location)
          have hrun : DeviceBatch.Batch.getInput exchange name dtype location device (m, b) =
              Action.ofExcept (Tensor.ofBuffer shape buffer) (m'', b.withStaging new) :=
            getInput_of_buffer hshape hcount hc hbuffer
          have hstaged : Staged m T b m'' new := ⟨hcollected.machine.emit _, hcollected.staging⟩
          cases ht : Tensor.ofBuffer shape buffer with
          | error e =>
            rw [ht] at hrun
            exact .inl ⟨e, m'', new, Tensor.ofBuffer_unrefused shape buffer e ht, hrun, hstaged⟩
          | ok t =>
            rw [ht] at hrun
            obtain rfl := Tensor.buffer_of_ofBuffer ht
            refine .inr ⟨t, m'', new, parts, hrun, hstaged, hopened, ?_, hparts, hdtype, hplaced,
              hsize.trans hcollected.size, hbytes, hviews.mono (List.append_subset.mpr ⟨?_, ?_⟩)⟩
            · rw [hshape, Tensor.shape_of_ofBuffer ht]
            · exact List.subset_append_of_subset_left _ (Gather.storage_of_parts hparts)
            · unfold seen staged withStaging
              rw [List.flatMap_append]
              exact List.subset_append_of_subset_right _ (List.subset_append_right _ _)

end Batch

end Local

end DeviceBatch
