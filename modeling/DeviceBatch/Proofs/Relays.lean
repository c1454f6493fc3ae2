import DeviceBatch.Proofs.DrainOrder
import DeviceBatch.Proofs.Ledger
import DeviceBatch.Proofs.Refinement
import DeviceBatch.Proofs.Rows
import DeviceBatch.Proofs.Scattering

/-!
# Data handed on from buffer to buffer

Data goes through a chain of buffers: it is put into the first, and each next one is made by moving
the last to the other location or by copying it. Any of these transfers may still be waiting when
the next is issued, sources may be gone by then, and in between streams are waited for, buffers are
bound to other streams, and whatever else is done to buffers outside the chain
(`Session.Relayed`). The data stays what it is (`relayed_intact`).

The invariant is about the blocks in which the data lies, now or on its way there
(`Session.Carries`). Nothing gets into these blocks but from one of them, so whatever happens
outside does not matter, not even where copies that are done at once run ahead of waiting ones.
-/

namespace DeviceBatch

open BufferCommand (emptied)

/-! ## What commands leave alone -/

/-- The place whose buffer a command takes away or writes. -/
def BufferCommand.target? : BufferCommand → Option Place
  | moveTo _ src _ | toTensor _ src _ | toBuffer _ src | release src => some (.slot src)
  | poke place .. | copy place .. => some place
  | _ => none

/-- Blocks that were given out are changed only if they belong to the target. -/
def Session.ChangesAt (s : Session) (target? : Option Place) (es : List Effect) : Prop :=
  ∀ e ∈ es, ∀ b < s.machine.memory.next, e.Changes b →
    ∃ p ∈ s.sites, target? = some p.1 ∧ ∃ t ∈ p.2.holdings, t.block = b

/-- Slots besides the target hold what they held, perhaps on another stream. -/
def Session.Stays (s s' : Session) (target? : Option Place) : Prop :=
  ∀ name r, s.held name = .ok r → target? ≠ some (.slot name) →
    ∃ stream, s'.held name = .ok (r.withStream stream)

/-- What is foreseen happens at the target, or to what is new. -/
structure Foreseen.Confined (f : Foreseen) (s : Session) (target? : Option Place) : Prop where
  effects : s.ChangesAt target? f.effects
  slots : s.Stays f.session target?

theorem Resource.withStream_self (r : Resource) : r.withStream r.data.stream = r := by
  cases r <;> rfl

namespace Session

variable {s s' : Session} {slot src name : String} {place : Place} {r r' : Resource}
  {target? : Option Place} {es fs : List Effect}

/-! ### Slots -/

theorem held_put_self : ({ s with slots := s.slots.put slot r } : Session).held slot = .ok r := by
  show Named.find _ _ = _
  unfold Named.find
  rw [Named.lookup_put, if_pos rfl]

theorem held_put (hfree : s.Free slot) (h : s.held name = .ok r) :
    ({ s with slots := s.slots.put slot r' } : Session).held name = .ok r := by
  have hne : name ≠ slot := by
    rintro rfl
    exact hfree (List.mem_map_of_mem (mem_of_held h))
  show Named.find _ _ = _
  unfold Named.find
  rw [Named.lookup_put, if_neg hne, held_eq_ok h]

theorem held_emptied (hne : name ≠ src) : (emptied s src).held name = s.held name := by
  show Named.find _ _ = Named.find _ _
  unfold Named.find
  rw [show (emptied s src).slots.lookup name = _ from Named.lookup_remove .., if_neg hne]

theorem held_bindAt (h : s.held name = .ok r) (place : Place) (stream : Stream) :
    ∃ t, (bindAt place stream s).held name = .ok (r.withStream t) := by
  cases place with
  | output other => exact ⟨r.data.stream, by rw [Resource.withStream_self]; exact h⟩
  | slot other =>
    by_cases hother : other = name
    · subst hother
      rw [bindAt_slot (held_eq_ok h)]
      exact ⟨stream, held_put_self⟩
    · refine ⟨r.data.stream, ?_⟩
      rw [Resource.withStream_self]
      cases hl : s.slots.lookup other with
      | none =>
        rw [bindAt_of_none hl]
        exact h
      | some r' =>
        rw [bindAt_slot hl]
        show Named.find _ _ = _
        unfold Named.find
        rw [Named.lookup_put, if_neg (Ne.symm hother), held_eq_ok h]

theorem Stays.of_held (h : ∀ name r, s.held name = .ok r → target? ≠ some (.slot name) →
    s'.held name = .ok r) : s.Stays s' target? := by
  intro name r hr hne
  refine ⟨r.data.stream, ?_⟩
  rw [Resource.withStream_self]
  exact h name r hr hne

theorem Stays.refl (s : Session) (target? : Option Place) : s.Stays s target? :=
  .of_held fun _ _ hr _ => hr

theorem stays_put (hfree : s.Free slot) (target? : Option Place) :
    s.Stays { s with slots := s.slots.put slot r } target? :=
  .of_held fun _ _ hr _ => held_put hfree hr

theorem stays_emptied (s : Session) (src : String) :
    s.Stays (emptied s src) (some (.slot src)) :=
  .of_held fun name _ hr hne => (held_emptied fun heq => hne (by rw [heq])).trans hr

theorem stays_replaced (hfree : (emptied s src).Free slot) :
    s.Stays { emptied s src with slots := (emptied s src).slots.put slot r }
      (some (.slot src)) :=
  .of_held fun name _ hr hne =>
    held_put hfree ((held_emptied fun heq => hne (by rw [heq])).trans hr)

theorem stays_bindAt (s : Session) (place : Place) (stream : Stream) (target? : Option Place) :
    s.Stays (bindAt place stream s) target? :=
  fun _ _ hr _ => held_bindAt hr place stream

/-! ### Effects -/

theorem changesAt_nil (s : Session) (target? : Option Place) : s.ChangesAt target? [] :=
  fun _ he => absurd he List.not_mem_nil

theorem ChangesAt.append (h : s.ChangesAt target? es) (h' : s.ChangesAt target? fs) :
    s.ChangesAt target? (es ++ fs) := by
  intro e he
  rcases List.mem_append.mp he with he | he
  · exact h e he
  · exact h' e he

/-- Only new blocks are changed. -/
theorem changesAt_of_keepsBelow (h : Effect.KeepsBelow s.machine.outlook.memory.next es)
    (target? : Option Place) : s.ChangesAt target? es := by
  intro e he b hb hchange
  rw [← Machine.next_outlook] at hb
  exact absurd hchange (h e he b hb)

theorem changesAt_frees (hs : s.Sound) (hr : s.held src = .ok r) :
    s.ChangesAt (some (.slot src)) (Effect.frees r.holdings) := by
  intro e he b _ hchange
  obtain ⟨t, ht, rfl⟩ := List.mem_map.mp he
  exact ⟨_, mem_sites_of_held hs hr, rfl, t, ht, hchange⟩

/-- The elements of a buffer that is no input lie in the storage of its place. -/
theorem Sound.exists_block (hs : s.Sound) (hr : s.resourceAt place = .ok r)
    (hi : r.isInput = false) (hn : r.data.byteSize ≠ 0) :
    ∃ t ∈ r.holdings, t.block = r.data.data.block := by
  obtain ⟨t, ht, -, -, -, hdata⟩ :=
    (hs.owned _ (mem_sites hs hr) hi).holding (List.Subset.refl r.holdings) hn
  exact ⟨t, ht, (congrArg Pointer.block hdata).symm⟩

theorem changesAt_pokeEffects (hs : s.Sound) (hr : s.resourceAt place = .ok r)
    (hi : r.isInput = false) (index : Nat) (xs : List r.data.dtype.Value) :
    s.ChangesAt (some place) (r.data.pokeEffects index xs) := by
  intro e he b _ hchange
  obtain ⟨hn, rfl⟩ := Buffer.mem_pokeEffects he
  obtain ⟨t, ht, hblock⟩ := hs.exists_block hr hi hn
  exact ⟨_, mem_sites hs hr, rfl, t, ht, hblock.trans hchange⟩

theorem changesAt_rangeCopy (hs : s.Sound) (hr : s.resourceAt place = .ok r)
    (hi : r.isInput = false) {source : Buffer} {dstOffset i j : Nat}
    (hin : Buffer.inRange r.data source dstOffset i j = true) :
    s.ChangesAt (some place) (Effect.copies (Buffer.rangeCopy r.data source dstOffset i j)) := by
  intro e he b _ hchange
  obtain ⟨hz, rfl⟩ := Effect.mem_copies.mp he
  obtain ⟨hn, -⟩ := Buffer.byteSize_ne_zero_of_inRange hin hz
  obtain ⟨t, ht, hblock⟩ := hs.exists_block hr hi hn
  exact ⟨_, mem_sites hs hr, rfl, t, ht, hblock.trans hchange⟩

/-! ### All commands -/

/-- A command that finds nothing does nothing. -/
theorem confined_foreseeWith {α : Type} {found : Except Error α} {go : α → Foreseen}
    (h : ∀ a, found = .ok a → (go a).Confined s target?) :
    (foreseeWith s found go).Confined s target? := by
  cases hf : found with
  | ok a => exact h a hf
  | error e => exact ⟨changesAt_nil s target?, .refl s target?⟩

/-- A command that only looks. -/
theorem confined_answer (s : Session) (target? : Option Place) (reply : Reply) :
    (Foreseen.answer s reply []).Confined s target? := ⟨changesAt_nil s target?, .refl s target?⟩

/-- A permitted command on buffers is confined to its target. -/
theorem Sound.confined (hs : s.Sound) {c : BufferCommand} (hc : c.Permitted s)
    (hin : c.SparesInputs s) : (s.foreseen c).Confined s c.target? := by
  cases c with
  | allocate slot dtype size location device stream =>
    exact ⟨changesAt_of_keepsBelow (Effect.sparesBelow_allocs _).keepsBelow _, stays_put hc _⟩
  | ofList slot dtype xs location device stream =>
    have hlen : (dtype.encode (xs.map dtype.ofInt)).length = xs.length * dtype.width := by
      rw [ElementType.length_encode, List.length_map]
    exact ⟨changesAt_of_keepsBelow
      (Buffer.sparesBelow_ofBytesEffects _ _ _ hlen _ _ _).keepsBelow _, stays_put hc _⟩
  | copyTo | clone =>
    refine confined_foreseeWith fun r _ => ?_
    exact ⟨changesAt_of_keepsBelow (Buffer.keepsBelow_copyEffects _ _ _ _) _, stays_put hc _⟩
  | moveTo slot src location =>
    refine confined_foreseeWith fun r hr => ?_
    split
    · exact ⟨changesAt_nil _ _, stays_replaced hc.1⟩
    · exact ⟨.append (changesAt_of_keepsBelow (Buffer.keepsBelow_copyEffects _ _ _ _) _)
        (changesAt_frees hs hr), stays_replaced hc.1⟩
  | borrow => exact hc.elim
  | release slot =>
    refine confined_foreseeWith fun r hr => ?_
    exact ⟨changesAt_frees hs hr, stays_emptied s slot⟩
  | describe | text => exact confined_foreseeWith fun r _ => confined_answer s _ _
  | sameData =>
    exact confined_foreseeWith fun r _ => confined_foreseeWith fun r' _ =>
      confined_answer s _ _
  | peek =>
    exact confined_foreseeWith fun r _ => confined_foreseeWith fun _ _ =>
      confined_answer s _ _
  | toList =>
    refine confined_foreseeWith fun r _ => ?_
    exact ⟨changesAt_of_keepsBelow (Buffer.keepsBelow_fetchEffects _ _) _, .refl s _⟩
  | poke place index xs =>
    refine confined_foreseeWith fun r hr => confined_foreseeWith fun _ _ => ?_
    exact ⟨changesAt_pokeEffects hs hr (hin r hr) index _, .refl s _⟩
  | rebind place stream =>
    refine confined_foreseeWith fun r _ => ?_
    exact ⟨changesAt_of_keepsBelow Effect.keepsBelow_wait _, stays_bindAt s place stream _⟩
  | copy dst src dstOffset range =>
    refine confined_foreseeWith fun r hr => confined_foreseeWith fun r' _ => ?_
    unfold BufferCommand.foreseeCopy
    split
    · next hrange =>
      refine ⟨.append ?_ (changesAt_rangeCopy hs hr (hin r hr) hrange), stays_bindAt s dst _ _⟩
      split
      · exact changesAt_nil s _
      · exact changesAt_of_keepsBelow Effect.keepsBelow_wait _
    · exact ⟨changesAt_nil s _, stays_bindAt s dst _ _⟩
  | allocateTensor slot dtype shape location device stream =>
    unfold foreseen BufferCommand.foresee
    dsimp only
    split
    · exact ⟨changesAt_nil s _, .refl s _⟩
    · exact ⟨changesAt_of_keepsBelow (Effect.sparesBelow_allocs _).keepsBelow _, stays_put hc _⟩
  | toTensor slot src shape =>
    refine confined_foreseeWith fun r hr => ?_
    split
    · exact ⟨changesAt_nil s _, stays_replaced hc.1⟩
    · exact ⟨changesAt_frees hs hr, stays_emptied s src⟩
  | toBuffer slot src =>
    refine confined_foreseeWith fun r _ => ?_
    exact ⟨changesAt_nil s _, stays_replaced hc⟩

end Session

/-! ## Blocks with the data -/

variable {dtype : ElementType} {data : List dtype.Value} {C C' : Nat → Prop} {o o' : Outlook}
  {r : Resource}

/-- The buffer owns storage among the blocks and will hold the data in it. -/
structure Resource.Bears (r : Resource) {dtype : ElementType} (data : List dtype.Value)
    (C : Nat → Prop) (o : Outlook) : Prop where
  owned : r.isInput = false
  proper : r.data.Proper
  type : r.data.dtype = dtype
  size : r.data.size = data.length
  blocks : ∀ t ∈ r.holdings, C t.block
  bytes : r.data.outlookBytes o = dtype.encode data

namespace Resource

theorem mem_holdings_withStream {t : Holding} (ht : t ∈ r.holdings) (stream : Stream) :
    { t with use := .bound stream } ∈ (r.withStream stream).holdings := by
  cases r <;> exact Buffer.mem_holdings ht (.bound stream)

/-- On another stream the storage is the same. -/
theorem exists_holding_of_withStream {t : Holding} {stream : Stream}
    (ht : t ∈ (r.withStream stream).holdings) : ∃ u ∈ r.holdings, u.block = t.block := by
  refine ⟨{ t with use := .bound r.data.stream }, ?_, rfl⟩
  cases r <;> exact Buffer.mem_holdings ht (.bound _)

namespace Bears

/-- As long as its storage keeps what it is to hold, the buffer bears the data. -/
theorem mono (h : r.Bears data C o) (hC : ∀ b, C b → C' b)
    (ho : ∀ t ∈ r.holdings, o'.memory.block? t.block = o.memory.block? t.block) :
    r.Bears data C' o' where
  owned := h.owned
  proper := h.proper
  type := h.type
  size := h.size
  blocks t ht := hC _ (h.blocks t ht)
  bytes := (h.proper.outlookBytes_congr (.bound r.data.stream) ho).trans h.bytes

theorem withStream (h : r.Bears data C o) (stream : Stream) :
    (r.withStream stream).Bears data C o where
  owned := by cases r <;> exact h.owned
  proper := by cases r <;> exact h.proper
  type := by cases r <;> exact h.type
  size := by cases r <;> exact h.size
  blocks t ht := by
    obtain ⟨u, hu, hblock⟩ := exists_holding_of_withStream ht
    rw [← hblock]
    exact h.blocks u hu
  bytes := by cases r <;> exact h.bytes

theorem byteSize_eq (h : r.Bears data C o) : r.data.byteSize = data.length * dtype.width := by
  unfold Buffer.byteSize
  rw [h.size, h.type]

/-- The elements lie in one of the blocks. -/
theorem data_block (h : r.Bears data C o) (hn : r.data.byteSize ≠ 0) : C r.data.data.block := by
  obtain ⟨t, ht, -, -, -, hdata⟩ := h.proper.holding (List.Subset.refl r.holdings) hn
  rw [hdata]
  exact h.blocks t ht

/-- The copy of a buffer with the data is another one, in the next block. -/
theorem copied (h : r.Bears data C o) {next : Nat} {location : Location} {device : Nat}
    (hbytes : (r.data.copied next location device).outlookBytes o' = r.data.outlookBytes o) :
    (Resource.buffer (r.data.copied next location device)).Bears data (next ≤ ·) o' where
  owned := rfl
  proper := Buffer.fresh_proper ..
  type := h.type
  size := h.size
  blocks _ ht := Nat.le_of_eq (Buffer.block_of_mem_fresh ht).symm
  bytes := hbytes.trans h.bytes

end Bears

end Resource

namespace Session

variable {s s' : Session} {names older : List String} {slot src current : String} {r' : Resource}
  {es : List Effect} {P : Prop} {T : List Holding} {m : Machine}

/-- The slots of these names bear the data, in blocks that are filled from one another only and that
nothing else lies in. -/
structure Carries (s : Session) {dtype : ElementType} (data : List dtype.Value)
    (names : List String) (C : Nat → Prop) : Prop where
  closed : s.machine.Closed C
  given : ∀ b, C b → b < s.machine.memory.next
  distinct : names.Nodup
  alone : ∀ t ∈ s.holdings, C t.block → ∃ name ∈ names, ∃ r, s.held name = .ok r ∧ t ∈ r.holdings
  bears : ∀ name ∈ names, ∃ r, s.held name = .ok r ∧ r.Bears data C s.machine.outlook

theorem carries_nil (s : Session) (data : List dtype.Value) :
    s.Carries data [] fun _ => False where
  closed _ _ _ h := h.elim
  given _ h := h.elim
  distinct := List.nodup_nil
  alone _ _ h := h.elim
  bears _ h := absurd h List.not_mem_nil

/-- What happens outside of the blocks, even ahead of its turn, leaves the data alone. -/
theorem Carries.outside (h : s.Carries data names C) (hs' : s'.Sound)
    (hp : s.machine.Progress s.holdings es P s'.machine s'.holdings)
    (hes : ∀ b, C b → ∀ e ∈ es, ¬ e.Changes b)
    (hslots : ∀ name ∈ names, ∀ r, s.held name = .ok r →
      ∃ stream, s'.held name = .ok (r.withStream stream)) : s'.Carries data names C where
  closed := hp.closed h.closed fun c hc hdst => absurd rfl (hes _ hdst (.copy c) hc)
  given b hb := Nat.lt_of_lt_of_le (h.given b hb) hp.next
  distinct := h.distinct
  alone t ht hC := by
    rcases hp.blocks t ht with ⟨u, hu, hblock⟩ | hnew
    · rw [← hblock] at hC
      obtain ⟨name, hname, r, hr, hur⟩ := h.alone u hu hC
      obtain ⟨stream, hr'⟩ := hslots name hname r hr
      -- The slot has storage in this block, and two holdings in one block are the same.
      have hmem := Resource.mem_holdings_withStream hur stream
      have heq := Machine.Orderly.eq_of_block hs'.keeps
        (Machine.Keeps.mem (mem_holdings_of_site (mem_sites_of_mem (mem_of_held hr')) hmem))
        (Machine.Keeps.mem ht) hblock
      rw [heq] at hmem
      exact ⟨name, hname, _, hr', hmem⟩
    · exact absurd (h.given _ hC) (Nat.not_lt_of_le hnew)
  bears name hname := by
    obtain ⟨r, hr, hb⟩ := h.bears name hname
    obtain ⟨stream, hr'⟩ := hslots name hname r hr
    refine ⟨_, hr', (hb.mono (fun _ hC => hC) fun t ht => ?_).withStream stream⟩
    exact hp.apart C h.closed (fun b hC => ⟨h.given b hC, hes b hC⟩) t.block (hb.blocks t ht)

/-- A command with another target leaves the data alone. -/
theorem Carries.did (h : s.Carries data names C) (hs : s.Sound) {f : Foreseen}
    {target? : Option Place} (hf : f.Confined s target?)
    (ht : ∀ name ∈ names, target? ≠ some (.slot name)) (hdid : s.Did f P s') :
    s'.Carries data names C := by
  refine h.outside hdid.sound hdid.progress (fun b hC e he hchange => ?_) fun name hname r hr => ?_
  · obtain ⟨p, hp, htarget, t, htp, rfl⟩ := hf.effects e he b (h.given b hC) hchange
    obtain ⟨name, hname, r, hr, htr⟩ := h.alone t (mem_holdings_of_site hp htp) hC
    have hperm := sites_emptied hs hr
    rcases List.mem_cons.mp (hperm.mem_iff.mp hp) with rfl | hrest
    · exact ht name hname htarget
    · exact hs.block_ne hperm hrest htr htp rfl
  · obtain ⟨stream, hheld⟩ := hf.slots name r hr (ht name hname)
    refine ⟨stream, ?_⟩
    rw [hdid.session]
    exact hheld

/-! ## One more buffer -/

theorem holdings_put (hfree : s.Free slot) :
    ({ s with slots := s.slots.put slot r } : Session).holdings.Perm
      (r.holdings ++ s.holdings) := by
  have hflat := (sites_put (r := r) hfree).flatMap_right fun p => p.2.holdings
  rw [List.flatMap_cons] at hflat
  unfold holdings
  rw [← List.append_assoc]
  exact hflat.append_right _

/-- A new buffer that was filled with the data bears it too. What the machine keeps may be more than
what the session holds, where a buffer has just been taken out of its slot. -/
theorem Carries.put (h : s.Carries data names C) (hk : s.machine.Keeps T) (hT : s.holdings ⊆ T)
    (hfree : s.Free slot) (hr : r.Bears data (s.machine.outlook.memory.next ≤ ·)
      (s.machine.outlook.afterAll es))
    (hp : s.machine.Progress T es True m
      ({ s with machine := m, slots := s.slots.put slot r } : Session).holdings)
    (hes : ∀ name ∈ names, ∀ r, s.held name = .ok r → ∀ t ∈ r.holdings, ∀ e ∈ es,
      ¬ e.Changes t.block)
    (hsrc : ∀ c, .copy c ∈ es → C c.src.block ∨ s.machine.memory.next ≤ c.src.block) :
    ({ s with machine := m, slots := s.slots.put slot r } : Session).Carries data (slot :: names)
      fun b => C b ∨ s.machine.memory.next ≤ b ∧ b < m.memory.next where
  closed st c hc hdst := by
    have hlt := Machine.Orderly.pending_lt hp.keeps hc
    -- A copy that waited before cannot write the new blocks, and one that is new reads the data.
    rcases hp.pending st c hc with hold | hnew
    · rcases hdst with hdst | hdst
      · exact .inl (h.closed st c hold hdst)
      · exact absurd (Machine.Orderly.pending_lt hk hold).1 (Nat.not_lt_of_le hdst.1)
    · exact (hsrc c hnew).imp_right fun hle => ⟨hle, hlt.2⟩
  given b hb := hb.elim (fun hb => Nat.lt_of_lt_of_le (h.given b hb) hp.next) And.right
  distinct := by
    refine List.nodup_cons.mpr ⟨fun hmem => ?_, h.distinct⟩
    obtain ⟨r', hr', -⟩ := h.bears slot hmem
    exact hfree (List.mem_map_of_mem (mem_of_held hr'))
  alone t ht hC := by
    rcases List.mem_append.mp ((holdings_put hfree).mem_iff.mp ht) with ht | ht
    · exact ⟨slot, List.mem_cons_self, r, held_put_self, ht⟩
    · have hlt := Machine.Orderly.block_lt hk (Machine.Keeps.mem (hT ht))
      have hC := hC.resolve_right fun hnew => Nat.not_lt_of_le hnew.1 hlt
      obtain ⟨name, hname, r', hr', htr⟩ := h.alone t ht hC
      exact ⟨name, List.mem_cons_of_mem _ hname, r', held_put hfree hr', htr⟩
  bears name hname := by
    have hexact := hp.outlook trivial
    have hnew := hr.blocks
    rw [Machine.next_outlook] at hnew
    rcases List.mem_cons.mp hname with rfl | hname
    · refine ⟨r, held_put_self, { hr with
        blocks := fun t ht => .inr ⟨hnew t ht, ?_⟩
        bytes := ?_ }⟩
      · exact Machine.Orderly.block_lt hp.keeps (Machine.Keeps.mem
          ((holdings_put hfree).mem_iff.mpr (List.mem_append_left _ ht)))
      · rw [← hr.bytes]
        exact congrArg r.data.outlookBytes hexact
    · obtain ⟨r', hr', hb⟩ := h.bears name hname
      refine ⟨r', held_put hfree hr', hb.mono (fun _ => .inl) fun t ht => ?_⟩
      rw [hexact]
      exact Machine.block?_outlook_afterAll (hes name hname r' hr' t ht)
        (h.given _ (hb.blocks t ht))

/-- The last buffer is taken out of its slot, and the others bear the data still. -/
theorem Carries.emptied (h : s.Carries data (current :: older) C) (hs : s.Sound)
    (hr : s.held current = .ok r) : (emptied s current).Carries data older C := by
  have hne : ∀ name ∈ older, name ≠ current := by
    rintro name hname rfl
    exact (List.nodup_cons.mp h.distinct).1 hname
  have hsplit := holdings_emptied hs hr
  exact {
    closed := h.closed
    given := h.given
    distinct := (List.nodup_cons.mp h.distinct).2
    alone := fun t ht hC => by
      have hmem := hsplit.mem_iff.mpr (List.mem_append_right _ ht)
      obtain ⟨name, hname, r', hr', htr⟩ := h.alone t hmem hC
      rcases List.mem_cons.mp hname with rfl | hname
      · -- The storage that was taken out belongs to no slot any more.
        rw [hr] at hr'
        cases hr'
        exact absurd rfl ((hs.keeps.perm hsplit).block_ne htr ht)
      · exact ⟨name, hname, r', (held_emptied (hne name hname)).trans hr', htr⟩
    bears := fun name hname => by
      obtain ⟨r', hr', hb⟩ := h.bears name (List.mem_cons_of_mem _ hname)
      exact ⟨r', (held_emptied (hne name hname)).trans hr', hb⟩ }

/-! ## Transfers -/

/-- A copy of a buffer with the data reads where the data lies. -/
theorem src_of_mem_copyEffects (hb : r.Bears data C o) {next device : Nat} {location : Location}
    {c : PendingCopy} (hc : .copy c ∈ r.data.copyEffects next location device) :
    C c.src.block := by
  rcases List.mem_append.mp hc with hc | hc
  · obtain ⟨-, heq⟩ := Effect.mem_allocs.mp hc
    cases heq
  · obtain ⟨hn, heq⟩ := Effect.mem_copies.mp hc
    cases heq
    exact hb.data_block hn

/-- A copy that is not from host to host does not run ahead of waiting ones. -/
theorem patient_copyTo (hs : s.Sound) (hr : s.held current = .ok r) {location : Location}
    (hhop : r.data.location = .host → location ≠ .host) (slot : String) (device : Nat) :
    (BufferCommand.copyTo slot (.slot current) location device).Patient s := by
  intro r' hr' _ hdefers
  cases hr.symm.trans hr'
  -- Where copies wait, all but those from host to host do; elsewhere there are none to run ahead of.
  cases hd : s.machine.platform.isDeferred with
  | true =>
    obtain ⟨hdst, hsrc⟩ := host_of_not_defers hd hdefers
    exact absurd hdst (hhop hsrc)
  | false => exact fun st c hc => absurd hc (hs.keeps.not_pending hd st c)

theorem Carries.copied (h : s.Carries data (current :: older) C) (hs : s.Sound)
    (hfree : s.Free slot) {location : Location} {device : Nat}
    (hhop : ∀ r, s.held current = .ok r → r.data.location = .host → location ≠ .host)
    (hdid : s.Did (s.foreseen (.copyTo slot (.slot current) location device))
      ((BufferCommand.copyTo slot (.slot current) location device).Patient s) s') :
    ∃ C', s'.Carries data (slot :: current :: older) C' := by
  obtain ⟨r, hr, hb⟩ := h.bears current List.mem_cons_self
  have hpatient := patient_copyTo hs hr (hhop r hr) slot device
  have hf : s.foreseen (.copyTo slot (.slot current) location device) = .buffer s slot
      (r.data.copied s.machine.outlook.memory.next location device)
      (r.data.copyEffects s.machine.outlook.memory.next location device) :=
    foreseeWith_of_ok (show s.resourceAt (.slot current) = .ok r from hr) _
  rw [hf] at hdid
  obtain ⟨m, hm⟩ : ∃ m, s' = { s with
      machine := m
      slots := s.slots.put slot (.buffer
        (r.data.copied s.machine.outlook.memory.next location device)) } := ⟨_, hdid.session⟩
  subst hm
  have hnew := hb.copied (hs.outlookBytes_copied (show s.resourceAt (.slot current) = .ok r from hr)
    location device)
  refine ⟨_, h.put hs.keeps (List.Subset.refl _) hfree hnew
    (hdid.progress.imp fun _ => hpatient) (fun name _ r' hr' => ?_) fun c hc => ?_⟩
  · exact hs.keepsBelow_leaves (Buffer.keepsBelow_copyEffects _ _ _ _) (List.Subset.refl _)
      (name, r') (mem_of_held hr')
  · exact .inl (src_of_mem_copyEffects hb hc)

theorem Carries.moved (h : s.Carries data (current :: older) C) (hs : s.Sound)
    (hfree : (BufferCommand.emptied s current).Free slot) {location : Location}
    (hhop : ∀ r, s.held current = .ok r → r.data.location ≠ location)
    (hdid : s.Did (s.foreseen (.moveTo slot current location)) True s') :
    ∃ C', s'.Carries data (slot :: older) C' := by
  obtain ⟨r, hr, hb⟩ := h.bears current List.mem_cons_self
  have hf : s.foreseen (.moveTo slot current location) = .buffer (BufferCommand.emptied s current)
      slot (r.data.copied s.machine.outlook.memory.next location r.data.device)
      (r.data.copyEffects s.machine.outlook.memory.next location r.data.device ++
        Effect.frees r.holdings) :=
    (foreseeWith_of_ok hr _).trans (if_neg (hhop r hr))
  rw [hf] at hdid
  obtain ⟨m, hm⟩ : ∃ m, s' = { BufferCommand.emptied s current with
      machine := m
      slots := (BufferCommand.emptied s current).slots.put slot (.buffer
        (r.data.copied s.machine.outlook.memory.next location r.data.device)) } :=
    ⟨_, hdid.session⟩
  subst hm
  have hnew := hb.copied (hs.outlookBytes_moved hr location r.data.device)
  refine ⟨_, (h.emptied hs hr).put hs.keeps (fun t ht => ?_) hfree hnew hdid.progress
    (fun name _ r' hr' t ht e he => ?_) fun c hc => ?_⟩
  · exact (holdings_emptied hs hr).mem_iff.mpr (List.mem_append_right _ ht)
  · rcases List.mem_append.mp he with he | he
    · exact hs.keepsBelow_leaves (Buffer.keepsBelow_copyEffects _ _ _ _) (emptied_subset s current)
        (name, r') (mem_of_held hr') t ht e he
    · exact hs.frees_leave hr (name, r') (mem_of_held hr') t ht e he
  · rcases List.mem_append.mp hc with hc | hc
    · exact .inl (src_of_mem_copyEffects hb hc)
    · obtain ⟨t, -, heq⟩ := List.mem_map.mp hc
      cases heq

/-- The first buffer is made from the data. -/
theorem carries_ofList (hs : s.Sound) (hfree : s.Free slot) (data : List dtype.Value)
    {location : Location} {device : Nat} {stream : Stream}
    (hdid : s.Did (s.foreseen (.ofList slot dtype (data.map dtype.toInt) location device stream))
      True s') : ∃ C, s'.Carries data [slot] C := by
  have hdata : (data.map dtype.toInt).map dtype.ofInt = data := by
    rw [List.map_map]
    exact (List.map_congr_left fun x _ => dtype.ofInt_toInt x).trans (List.map_id data)
  have hf : s.foreseen (.ofList slot dtype (data.map dtype.toInt) location device stream) =
      .buffer s slot (Buffer.ofBytesResult s.machine.outlook.memory.next dtype data.length location
        device stream) (Buffer.ofBytesEffects s.machine.outlook.memory.next dtype data.length
          (dtype.encode data) location device stream) := by
    unfold foreseen BufferCommand.foresee
    dsimp only
    rw [hdata, List.length_map]
  have hlen : (dtype.encode data).length = data.length * dtype.width := dtype.length_encode data
  rw [hf] at hdid
  obtain ⟨m, hm⟩ : ∃ m, s' = { s with
      machine := m
      slots := s.slots.put slot (.buffer (Buffer.ofBytesResult s.machine.outlook.memory.next dtype
        data.length location device stream)) } := ⟨_, hdid.session⟩
  subst hm
  refine ⟨_, (carries_nil s data).put hs.keeps (List.Subset.refl _) hfree ?_ hdid.progress
    (fun name hname => absurd hname List.not_mem_nil) fun c hc => ?_⟩
  · exact {
      owned := rfl
      proper := Buffer.ofBytesResult_proper ..
      type := Buffer.ofBytesResult_dtype ..
      size := Buffer.ofBytesResult_size ..
      blocks := fun _ ht => Buffer.block_of_mem_ofBytesResult ht
      bytes := Buffer.outlookBytes_ofBytesResult _ hlen _ _ _ }
  · rw [← Machine.next_outlook]
    refine .inr (Nat.le_of_not_lt fun hlt => ?_)
    exact (Buffer.sparesBelow_ofBytesEffects _ _ _ hlen _ _ _ _ hc _ hlt).2 (.inr rfl)

/-! ## Chains -/

/-- Data was put into a first buffer and handed on from there. The names are those of the buffers of
the chain that there still are, the last one first. All storage that is asked for is granted. -/
inductive Relayed (platform : Platform) (device : Nat) {dtype : ElementType}
    (data : List dtype.Value) : Session → List String → Prop where
  | start {s : Session} (h : Reachable platform device s) {slot : String} (hfree : s.Free slot)
    {location : Location} {target : Nat} {stream : Stream}
    (hg : Granted (s.perform (.buffer
      (.ofList slot dtype (data.map dtype.toInt) location target stream))).1) :
    Relayed platform device data (s.perform (.buffer
      (.ofList slot dtype (data.map dtype.toInt) location target stream))).2 [slot]
  /-- The last buffer is moved to the other location. -/
  | move {s : Session} {current : String} {older : List String}
    (h : Relayed platform device data s (current :: older)) {slot : String} {location : Location}
    (hc : (BufferCommand.moveTo slot current location).Permitted s)
    (hhop : ∀ r, s.held current = .ok r → r.data.location ≠ location)
    (hg : Granted (s.perform (.buffer (.moveTo slot current location))).1) :
    Relayed platform device data (s.perform (.buffer (.moveTo slot current location))).2
      (slot :: older)
  /-- The last buffer is copied, but not from host to host, and kept. -/
  | copy {s : Session} {current : String} {older : List String}
    (h : Relayed platform device data s (current :: older)) {slot : String} (hfree : s.Free slot)
    {location : Location} {target : Nat}
    (hhop : ∀ r, s.held current = .ok r → r.data.location = .host → location ≠ .host)
    (hg : Granted (s.perform (.buffer (.copyTo slot (.slot current) location target))).1) :
    Relayed platform device data
      (s.perform (.buffer (.copyTo slot (.slot current) location target))).2
      (slot :: current :: older)
  /-- Whatever else is done to buffers. Those of the chain may be read, copied from and bound to
  streams. -/
  | outside {s : Session} {names : List String} (h : Relayed platform device data s names)
    {c : BufferCommand} (hc : (Command.buffer c).Permitted s)
    (ht : ∀ name ∈ names, c.target? ≠ some (.slot name))
    (hg : Granted (s.perform (.buffer c)).1) :
    Relayed platform device data (s.perform (.buffer c)).2 names
  | synchronize {s : Session} {names : List String} (h : Relayed platform device data s names)
    (stream : Stream) :
    Relayed platform device data (s.perform (.platform (.synchronize stream))).2 names
  | reorder {s : Session} {names : List String} (h : Relayed platform device data s names)
    {qs : Queues} (hq : qs.Perm s.machine.queues) :
    Relayed platform device data { s with machine := { s.machine with queues := qs } } names

variable {platform : Platform} {device : Nat}

theorem Carries.reorder (h : s.Carries data names C) (hs : s.Sound) {qs : Queues}
    (hq : qs.Perm s.machine.queues) :
    ({ s with machine := { s.machine with queues := qs } } : Session).Carries data names C where
  closed st c := by
    rintro ⟨q, hmem, hc⟩
    exact h.closed st c ⟨q, hq.mem_iff.mp hmem, hc⟩
  given := h.given
  distinct := h.distinct
  alone := h.alone
  bears name hname := by
    obtain ⟨r, hr, hb⟩ := h.bears name hname
    refine ⟨r, hr, ?_⟩
    show r.Bears data C (Machine.outlook { s.machine with queues := qs })
    rw [hs.keeps.outlook_reorder hq]
    exact hb

theorem Sound.hop (hs : s.Sound) {c : BufferCommand} (hc : (Command.buffer c).Permitted s)
    (hg : Granted (s.perform (.buffer c)).1) :
    s.Did (s.foreseen c) (c.Patient s) (s.perform (.buffer c)).2 :=
  ((hs.performs hc.1 hc.2).did hg).2

/-- Every link of a chain is a session that can be reached, in which the buffers bear the data. -/
theorem Relayed.carries (h : Relayed platform device data s names) :
    Reachable platform device s ∧ ∃ C, s.Carries data names C := by
  induction h with
  | @start s h slot hfree location target stream hg =>
    have hc : (Command.buffer (.ofList slot dtype (data.map dtype.toInt) location target
      stream)).Permitted s := ⟨hfree, trivial⟩
    exact ⟨h.step (p := .perform _) hc, carries_ofList h.sound hfree data (h.sound.hop hc hg)⟩
  | @move s current older _ slot location hc hhop hg ih =>
    obtain ⟨hreach, C, hcarries⟩ := ih
    obtain ⟨r, hr, hb⟩ := hcarries.bears current List.mem_cons_self
    have hc' : (Command.buffer (.moveTo slot current location)).Permitted s := by
      refine ⟨hc, fun r' hr' => ?_⟩
      cases hr.symm.trans hr'
      exact hb.owned
    exact ⟨hreach.step (p := .perform _) hc',
      hcarries.moved hreach.sound hc.1 hhop (hreach.sound.hop hc' hg)⟩
  | @copy s current older _ slot hfree location target hhop hg ih =>
    obtain ⟨hreach, C, hcarries⟩ := ih
    have hc : (Command.buffer (.copyTo slot (.slot current) location target)).Permitted s :=
      ⟨hfree, trivial⟩
    exact ⟨hreach.step (p := .perform _) hc,
      hcarries.copied hreach.sound hfree hhop (hreach.sound.hop hc hg)⟩
  | outside _ hc ht hg ih =>
    obtain ⟨hreach, C, hcarries⟩ := ih
    exact ⟨hreach.step (p := .perform _) hc, C, hcarries.did hreach.sound
      (hreach.sound.confined hc.1 hc.2) ht (hreach.sound.hop hc hg)⟩
  | @synchronize s names _ stream ih =>
    obtain ⟨hreach, C, hcarries⟩ := ih
    have hf : (Foreseen.answer s .done [.wait]).Confined s none :=
      ⟨changesAt_of_keepsBelow Effect.keepsBelow_wait none, .refl s none⟩
    exact ⟨hreach.step (p := .perform (.platform (.synchronize stream))) trivial, C,
      hcarries.did hreach.sound hf (fun _ _ => nofun) (hreach.sound.synchronize stream)⟩
  | reorder _ hq ih =>
    obtain ⟨hreach, C, hcarries⟩ := ih
    exact ⟨hreach.reorder hq, C, hcarries.reorder hreach.sound hq⟩

theorem Relayed.ne_nil (h : Relayed platform device data s names) : names ≠ [] := by
  induction h with
  | start | move | copy => exact List.cons_ne_nil _ _
  | outside _ _ _ _ ih => exact ih
  | synchronize _ _ ih => exact ih
  | reorder _ _ ih => exact ih

/-- A buffer of given elements is filled on the host, so there is host storage for as many. -/
theorem Sound.lt_hostBlockLimit_of_ofList (hs : s.Sound) {dtype : ElementType} {xs : List Int}
    {location : Location} {target : Nat} {stream : Stream} (hg : Granted (s.perform (.buffer
      (.ofList slot dtype xs location target stream))).1) :
    xs.length * dtype.width < Machine.hostBlockLimit := by
  rcases Buffer.allocate_cases dtype xs.length .host target stream hs.keeps with
    ⟨e, he, ha⟩ | ⟨m, ha, -⟩
  · have hlist : Buffer.ofList dtype (xs.map dtype.ofInt) location target stream s.machine =
        .error e s.machine := by
      unfold Buffer.ofList Buffer.ofBytes
      rw [List.length_map]
      exact Action.bind_of_error ha
    have hperf : s.perform (.buffer (.ofList slot dtype xs location target stream)) =
        (.error e, s) :=
      perform_of_error (keepBuffer_of_error (onMachine_of_error hlist))
    rw [hperf] at hg
    exact absurd he (hg e rfl)
  · exact Buffer.lt_hostBlockLimit_of_allocate ha

theorem Relayed.length_lt (h : Relayed platform device data s names) :
    data.length * dtype.width < Machine.hostBlockLimit := by
  induction h with
  | start h hfree hg =>
    have hlt := h.sound.lt_hostBlockLimit_of_ofList hg
    rwa [List.length_map] at hlt
  | move _ _ _ _ ih => exact ih
  | copy _ _ _ _ ih => exact ih
  | outside _ _ _ _ ih => exact ih
  | synchronize _ _ ih => exact ih
  | reorder _ _ ih => exact ih

/-- A buffer that bears the data is read as the data. -/
theorem Sound.reply_toList (hs : s.Sound) (hr : s.held slot = .ok r)
    (hb : r.Bears data C s.machine.outlook)
    (hlt : data.length * dtype.width < Machine.hostBlockLimit) :
    (s.perform (.buffer (.toList (.slot slot)))).1 = .ok (.elements dtype data) := by
  have hat : s.resourceAt (.slot slot) = .ok r := hr
  rcases Buffer.fetchBytes_cases hs.keeps (hs.readable_at hat) with ⟨-, -, hle, -⟩ | ⟨m, ha, -⟩
  · rw [hb.byteSize_eq] at hle
    exact absurd hlt (Nat.not_lt_of_le hle)
  · rw [perform_toList hat ha, hb.bytes, hb.type, ElementType.decode_encode]

/-- Whatever way data was handed on, all buffers of the chain have as many elements of its type, and
each of them, the last one above all, is read as the data. -/
theorem relayed_intact (h : Relayed platform device data s names) :
    names ≠ [] ∧ ∀ name ∈ names,
      (∃ r, s.held name = .ok r ∧ r.data.dtype = dtype ∧ r.data.size = data.length) ∧
      (s.perform (.buffer (.toList (.slot name)))).1 = .ok (.elements dtype data) := by
  obtain ⟨hreach, C, hcarries⟩ := h.carries
  refine ⟨h.ne_nil, fun name hname => ?_⟩
  obtain ⟨r, hr, hb⟩ := hcarries.bears name hname
  exact ⟨⟨r, hr, hb.type, hb.size⟩, hreach.sound.reply_toList hr hb h.length_lt⟩

/-- Three bytes go from one device to the other, on to the host and back, while two other streams
have work waiting. On the way a host buffer is written ahead of the copy that it waits for, and the
first buffer is bound to a stream of its own. At the end the last two transfers are still waiting,
and the buffers that they read are gone. -/
theorem relayed_round :
    let s₀ := ((start (.simulated ⟨2, 64, true⟩) 0).performAll bustle).2
    let s₁ := (s₀.perform (.buffer (.ofList "a" .uint8 [1, 2, 3] .device 0 ⟨3⟩))).2
    let s₂ := (s₁.perform (.buffer (.copyTo "b" (.slot "a") .device 1))).2
    let s₃ := (s₂.perform (.buffer (.poke (.slot "near") 0 [8]))).2
    let s₄ := (s₃.perform (.buffer (.rebind (.slot "a") ⟨9⟩))).2
    let s₅ := (s₄.perform (.buffer (.moveTo "c" "b" .host))).2
    let s₆ := (s₅.perform (.buffer (.moveTo "d" "c" .device))).2
    let data : List (ElementType.Value .uint8) := [1, 2, 3]
    Relayed (.simulated ⟨2, 64, true⟩) 0 data s₆ ["d", "a"] ∧
      (s₆.machine.queues.map fun p => (p.1.id, p.2.copies.length, p.2.guards.length)) =
        [(4, 2, 0), (5, 2, 2), (3, 2, 2)] ∧
      (s₆.perform (.buffer (.toList (.slot "d")))).1 = .ok (.elements .uint8 data) := by
  intro s₀ s₁ s₂ s₃ s₄ s₅ s₆ data
  have h₁ : Relayed (.simulated ⟨2, 64, true⟩) 0 data s₁ ["a"] := by
    refine .start reachable_bustle ?_ (granted_of_ok ?_)
    · show "a" ∉ _
      decide +kernel
    · decide +kernel
  have h₂ : Relayed (.simulated ⟨2, 64, true⟩) 0 data s₂ ["b", "a"] := by
    refine .copy h₁ ?_ (fun _ _ _ => nofun) (granted_of_ok ?_)
    · show "b" ∉ _
      decide +kernel
    · decide +kernel
  have hnear : (s₂.held "near").toOption.all (fun r => !r.isInput) = true := by decide +kernel
  have h₃ : Relayed (.simulated ⟨2, 64, true⟩) 0 data s₃ ["b", "a"] := by
    refine .outside h₂ ⟨trivial, fun r hr => ?_⟩ (by decide) (granted_of_ok ?_)
    · simpa using forall_held hnear r hr
    · decide +kernel
  have howned : (s₃.held "a").toOption.all (fun r => !r.isInput) = true := by decide +kernel
  have h₄ : Relayed (.simulated ⟨2, 64, true⟩) 0 data s₄ ["b", "a"] := by
    refine .outside h₃ ⟨trivial, fun r hr => ?_⟩ (by decide) (granted_of_ok ?_)
    · simpa using forall_held howned r hr
    · decide +kernel
  have hdevice : (s₄.held "b").toOption.all (fun r => r.data.location != .host) = true := by
    decide +kernel
  have h₅ : Relayed (.simulated ⟨2, 64, true⟩) 0 data s₅ ["c", "a"] := by
    refine .move h₄ (permitted_moveTo ?_ ?_).1 (fun r hr => ?_) (granted_of_ok ?_)
    · show "c" ∉ _
      decide +kernel
    · decide +kernel
    · simpa using forall_held hdevice r hr
    · decide +kernel
  have hhost : (s₅.held "c").toOption.all (fun r => r.data.location != .device) = true := by
    decide +kernel
  have h₆ : Relayed (.simulated ⟨2, 64, true⟩) 0 data s₆ ["d", "a"] := by
    refine .move h₅ (permitted_moveTo ?_ ?_).1 (fun r hr => ?_) (granted_of_ok ?_)
    · show "d" ∉ _
      decide +kernel
    · decide +kernel
    · simpa using forall_held hhost r hr
    · decide +kernel
  refine ⟨h₆, ?_, ((relayed_intact h₆).2 "d" List.mem_cons_self).2⟩
  decide +kernel

end Session

end DeviceBatch
