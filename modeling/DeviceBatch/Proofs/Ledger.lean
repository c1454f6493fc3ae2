import DeviceBatch.Proofs.Performing
import Mathlib.Logic.Function.Basic

/-!
# What slots should hold

A ledger says for each slot what bytes it should hold. `BufferCommand.replay` is what a command does
to a ledger: it knows nothing of blocks, queues and devices, and every copy is performed when it is
issued. What was foreseen of a command agrees with that (`Session.Sound.replays`).
-/

namespace DeviceBatch

/-- The bytes that each slot should hold. -/
abbrev Ledger := String → List UInt8

/-- The bytes that the buffer at a place should hold. Only slots are in a ledger. -/
def Ledger.bytesAt (held : Ledger) : Place → List UInt8
  | .slot name => held name
  | .output _ => []

namespace BufferCommand

open Function

/-- What slots should hold after a command that succeeded. -/
def replay (s : Session) (held : Ledger) : BufferCommand → Ledger
  | allocate slot dtype size .. => update held slot (List.replicate (size * dtype.width) 0)
  | ofList slot dtype xs .. => update held slot (dtype.encode (xs.map dtype.ofInt))
  | copyTo slot src .. | clone slot src => update held slot (held.bytesAt src)
  | moveTo slot src _ | toTensor slot src _ | toBuffer slot src => update held slot (held src)
  | allocateTensor slot dtype shape .. =>
    update held slot (List.replicate ((shape.product?.getD 0) * dtype.width) 0)
  | copy (.slot dst) src dstOffset range =>
    match s.resourceAt src with
    | .ok r =>
      let (i, j) := range.getD (0, r.data.size)
      update held dst (Memory.splice (held dst) (dstOffset * r.data.dtype.width)
        (((held.bytesAt src).drop (i * r.data.dtype.width)).take ((j - i) * r.data.dtype.width)))
    | .error _ => held
  | _ => held

/-- New buffers are made on the stream, none leaves it, and nothing is written but by copies. -/
def OnStream (stream : Stream) : BufferCommand → Prop
  | allocate _ _ _ _ _ t | ofList _ _ _ _ _ t | allocateTensor _ _ _ _ _ t | rebind _ t =>
    t = stream
  | poke .. => False
  | _ => True

end BufferCommand

namespace Session

open BufferCommand

variable {s s₀ : Session} {o : Outlook} {stream : Stream} {held : Ledger} {slot src : String}
  {r r' : Resource} {place : Place} {es : List Effect} {bytes : List UInt8} {c : BufferCommand}

/-- What is in slots is on the stream and will hold what it should. -/
def Shows (s : Session) (o : Outlook) (stream : Stream) (held : Ledger) : Prop :=
  ∀ p ∈ s.slots, p.2.data.stream = stream ∧ p.2.data.outlookBytes o = held p.1

/-! ## Slots -/

theorem mem_sites_of_mem (h : p ∈ s.slots) : (.slot p.1, p.2) ∈ s.sites :=
  List.mem_append_left _ (List.mem_map.mpr ⟨p, h, rfl⟩)

theorem mem_of_held (h : s.held slot = .ok r) : (slot, r) ∈ s.slots := by
  obtain ⟨l, l', hsplit, -⟩ := List.lookup_eq_some_iff.mp (held_eq_ok h)
  rw [hsplit]
  simp

/-- Without a batch every place is a slot. -/
theorem slot_of_resourceAt (hb : s.batch = none) (h : s.resourceAt place = .ok r) :
    ∃ name, place = .slot name ∧ s.held name = .ok r := by
  cases place with
  | slot name => exact ⟨name, rfl, h⟩
  | output name =>
    obtain ⟨b, t, hbatch, -⟩ := resourceAt_output h
    rw [hb] at hbatch
    cases hbatch

/-- What stands at a place will hold what it should. -/
theorem Shows.at_place (h : s.Shows o stream held) (hb : s.batch = none)
    (hr : s.resourceAt place = .ok r) :
    r.data.stream = stream ∧ r.data.outlookBytes o = held.bytesAt place := by
  obtain ⟨name, rfl, hname⟩ := slot_of_resourceAt hb hr
  exact h _ (mem_of_held hname)

/-! ## What effects leave alone -/

/-- A site whose storage is left alone will hold what it would have held. -/
theorem Sound.outlookBytes_afterAll (hs : s.Sound) {p : Place × Resource} (hp : p ∈ s.sites)
    (hi : p.2.isInput = false) (hes : ∀ t ∈ p.2.holdings, ∀ e ∈ es, ¬ e.Changes t.block) :
    p.2.data.outlookBytes (s.machine.outlook.afterAll es) =
      p.2.data.outlookBytes s.machine.outlook := by
  refine (hs.owned p hp hi).outlookBytes_congr (.bound p.2.data.stream) fun t ht => ?_
  refine Machine.block?_outlook_afterAll (hes t ht) ?_
  exact hs.keeps.block_lt (Machine.Keeps.mem (mem_holdings_of_site hp ht))

/-- Slots whose storage is left alone. -/
theorem Shows.keep (h : s.Shows s.machine.outlook stream held) (hs : s.Sound)
    (hb : s.batch = none) (hsub : s₀.slots ⊆ s.slots)
    (hes : ∀ p ∈ s₀.slots, ∀ t ∈ p.2.holdings, ∀ e ∈ es, ¬ e.Changes t.block) :
    s₀.Shows (s.machine.outlook.afterAll es) stream held := by
  intro p hp
  obtain ⟨hstream, hbytes⟩ := h p (hsub hp)
  have hsite := mem_sites_of_mem (hsub hp)
  exact ⟨hstream, (hs.outlookBytes_afterAll hsite (hs.not_input hb hsite) (hes p hp)).trans hbytes⟩

/-- Something new in a slot that is free. -/
theorem Shows.put (h : s₀.Shows o stream held) (hfree : s₀.Free slot)
    (hstream : r.data.stream = stream) (hbytes : r.data.outlookBytes o = bytes) :
    ({ s₀ with slots := s₀.slots.put slot r } : Session).Shows o stream
      (Function.update held slot bytes) := by
  intro p hp
  have hp' : p ∈ s₀.slots.remove slot ++ [(slot, r)] := hp
  rw [Named.remove_eq_self hfree] at hp'
  rcases List.mem_append.mp hp' with hmem | hmem
  · have hne : p.1 ≠ slot := fun heq => hfree (List.mem_map.mpr ⟨p, hmem, heq⟩)
    rw [Function.update_of_ne hne]
    exact h p hmem
  · rw [List.mem_singleton.mp hmem, Function.update_self]
    exact ⟨hstream, hbytes⟩

/-- The slots without the one that is bound to a stream, and that one. -/
theorem bindAt_eq_put (h : s.held slot = .ok r) (t : Stream) :
    bindAt (.slot slot) t s =
      { emptied s slot with slots := (emptied s slot).slots.put slot (r.withStream t) } := by
  rw [bindAt_slot (held_eq_ok h)]
  show ({ s with slots := s.slots.remove slot ++ _ } : Session) =
    { s with slots := (s.slots.remove slot).remove slot ++ _ }
  rw [Named.remove_eq_self Named.notMem_remove]

/-! ## What a slot holds afterwards -/

theorem Sound.keepsBelow_leaves (hs : s.Sound)
    (hes : Effect.KeepsBelow s.machine.outlook.memory.next es)
    (hsub : s₀.slots ⊆ s.slots) :
    ∀ p ∈ s₀.slots, ∀ t ∈ p.2.holdings, ∀ e ∈ es, ¬ e.Changes t.block := by
  intro p hp t ht e he
  have hmem := mem_holdings_of_site (mem_sites_of_mem (hsub hp)) ht
  refine hes e he t.block ?_
  rw [Machine.next_outlook]
  exact hs.keeps.block_lt (Machine.Keeps.mem hmem)

/-- A new buffer in a slot that is free. -/
theorem Shows.add (h : s.Shows s.machine.outlook stream held) (hs : s.Sound) (hb : s.batch = none)
    (hfree : s.Free slot) (hes : Effect.KeepsBelow s.machine.outlook.memory.next es)
    (hstream : r.data.stream = stream)
    (hbytes : r.data.outlookBytes (s.machine.outlook.afterAll es) = bytes) :
    ({ s with slots := s.slots.put slot r } : Session).Shows (s.machine.outlook.afterAll es) stream
      (Function.update held slot bytes) :=
  (h.keep hs hb (List.Subset.refl _) (hs.keepsBelow_leaves hes (List.Subset.refl _))).put hfree
    hstream hbytes

/-- The copy of what stands at a place will hold the same. -/
theorem Sound.outlookBytes_copied (hs : s.Sound) (hr : s.resourceAt place = .ok r)
    (location : Location) (device : Nat) :
    let o := s.machine.outlook
    (r.data.copied o.memory.next location device).outlookBytes
        (o.afterAll (r.data.copyEffects o.memory.next location device)) =
      r.data.outlookBytes o := by
  have hread := hs.readable_at hr
  refine Buffer.outlookBytes_copied (hread.length_outlookBytes hs.keeps) (fun hn => ?_) _ _
  rw [Machine.next_outlook]
  exact (hread.block_outlook hs.keeps hn).1

/-- So it is when what was copied is given up. -/
theorem Sound.outlookBytes_moved (hs : s.Sound) (hr : s.held src = .ok r) (location : Location)
    (device : Nat) :
    let o := s.machine.outlook
    (r.data.copied o.memory.next location device).outlookBytes
        (o.afterAll (r.data.copyEffects o.memory.next location device ++
          Effect.frees r.holdings)) =
      r.data.outlookBytes o := by
  intro o
  rw [Outlook.afterAll_append]
  refine (Buffer.outlookBytes_frees _ fun hn t ht => ?_).trans
    (hs.outlookBytes_copied (show s.resourceAt (.slot src) = .ok r from hr) location device)
  have hdata : (r.data.copied o.memory.next location device).data = ⟨o.memory.next, 0⟩ :=
    Buffer.fresh_data hn
  have hmem := mem_holdings_of_site (mem_sites_of_held hs hr) ht
  rw [hdata, Machine.next_outlook]
  exact Nat.ne_of_lt (hs.keeps.block_lt (Machine.Keeps.mem hmem))

/-- The copy of what stands at a place, in a slot that is free. -/
theorem Shows.copied (h : s.Shows s.machine.outlook stream held) (hs : s.Sound)
    (hb : s.batch = none) (hfree : s.Free slot) (hr : s.resourceAt place = .ok r)
    (location : Location) (device : Nat) :
    let o := s.machine.outlook
    ({ s with slots := s.slots.put slot (.buffer (r.data.copied o.memory.next location device)) } :
      Session).Shows (o.afterAll (r.data.copyEffects o.memory.next location device)) stream
        (Function.update held slot (held.bytesAt place)) := by
  obtain ⟨hstream, hbytes⟩ := h.at_place hb hr
  refine h.add hs hb hfree (Buffer.keepsBelow_copyEffects _ _ _ _) hstream ?_
  rw [← hbytes]
  exact hs.outlookBytes_copied hr location device

/-- Giving up what was taken out of a slot leaves the other slots alone. -/
theorem Sound.frees_leave (hs : s.Sound) (hr : s.held src = .ok r) :
    ∀ p ∈ (emptied s src).slots, ∀ t ∈ p.2.holdings, ∀ e ∈ Effect.frees r.holdings,
      ¬ e.Changes t.block := by
  intro p hp t ht e he heq
  obtain ⟨u, hu, rfl⟩ := List.mem_map.mp he
  exact hs.block_ne (sites_emptied hs hr) (mem_sites_of_mem hp) hu ht heq

theorem emptied_subset (s : Session) (src : String) : (emptied s src).slots ⊆ s.slots :=
  fun _ hp => (List.mem_filter.mp hp).1

/-- Slots besides one that was emptied. -/
theorem Shows.emptied (h : s.Shows s.machine.outlook stream held) (hs : s.Sound)
    (hb : s.batch = none) (hr : s.held src = .ok r) :
    (emptied s src).Shows (s.machine.outlook.afterAll (Effect.frees r.holdings)) stream held :=
  h.keep hs hb (emptied_subset s src) (hs.frees_leave hr)

/-- The same buffer in another slot. -/
theorem Shows.renamed (h : s.Shows s.machine.outlook stream held) (hs : s.Sound)
    (hb : s.batch = none) (hr : s.held src = .ok r)
    (hfree : (BufferCommand.emptied s src).Free slot) (hdata : r'.data = r.data) :
    ({ BufferCommand.emptied s src with
      slots := (BufferCommand.emptied s src).slots.put slot r' } : Session).Shows
        s.machine.outlook stream (Function.update held slot (held src)) := by
  obtain ⟨hstream, hbytes⟩ := h _ (mem_of_held hr)
  have hkeep : Shows _ (s.machine.outlook.afterAll []) stream held :=
    h.keep hs hb (emptied_subset s src) fun _ _ _ _ _ he => absurd he List.not_mem_nil
  exact hkeep.put hfree (by rw [hdata]; exact hstream) (by rw [hdata]; exact hbytes)

/-- A copy in place of what was taken out of a slot and given up. -/
theorem Shows.moved (h : s.Shows s.machine.outlook stream held) (hs : s.Sound)
    (hb : s.batch = none) (hr : s.held src = .ok r)
    (hfree : (BufferCommand.emptied s src).Free slot) (location : Location) (device : Nat) :
    let o := s.machine.outlook
    ({ BufferCommand.emptied s src with
      slots := (BufferCommand.emptied s src).slots.put slot
        (.buffer (r.data.copied o.memory.next location device)) } : Session).Shows
      (o.afterAll (r.data.copyEffects o.memory.next location device ++ Effect.frees r.holdings))
      stream (Function.update held slot (held src)) := by
  intro o
  obtain ⟨hstream, hbytes⟩ := h _ (mem_of_held hr)
  have hcopy : Effect.KeepsBelow o.memory.next
      (r.data.copyEffects o.memory.next location device) :=
    Buffer.keepsBelow_copyEffects _ _ _ _
  have hkeep : Shows _ (o.afterAll (r.data.copyEffects o.memory.next location device ++
      Effect.frees r.holdings)) stream held :=
    h.keep hs hb (emptied_subset s src) (by
      intro p hp t ht e he
      rcases List.mem_append.mp he with he | he
      · exact hs.keepsBelow_leaves hcopy (emptied_subset s src) p hp t ht e he
      · exact hs.frees_leave hr p hp t ht e he)
  refine hkeep.put hfree hstream ?_
  rw [← hbytes]
  exact hs.outlookBytes_moved hr location device

/-- A slot that is bound to the stream and may hold something else. -/
theorem Shows.bind (h : s.Shows s.machine.outlook stream held) (hs : s.Sound)
    (hb : s.batch = none) (hr : s.held slot = .ok r)
    (hes : ∀ p ∈ (BufferCommand.emptied s slot).slots, ∀ t ∈ p.2.holdings, ∀ e ∈ es,
      ¬ e.Changes t.block)
    (hbytes : r.data.outlookBytes (s.machine.outlook.afterAll es) = bytes) :
    (bindAt (.slot slot) stream s).Shows (s.machine.outlook.afterAll es) stream
      (Function.update held slot bytes) := by
  rw [bindAt_eq_put hr]
  refine (h.keep hs hb (emptied_subset s slot) hes).put Named.notMem_remove ?_ ?_
  · cases r <;> rfl
  · cases r <;> exact hbytes

/-- A slot that another one was copied into. -/
theorem Shows.copiedInto (h : s.Shows s.machine.outlook stream held) (hs : s.Sound)
    (hb : s.batch = none) {dst : String} (hr : s.held dst = .ok r)
    (hr' : s.resourceAt place = .ok r') (hty : r.data.dtype = r'.data.dtype) {dstOffset i j : Nat}
    (hin : Buffer.inRange r.data r'.data dstOffset i j = true) :
    (bindAt (.slot dst) stream s).Shows (s.machine.outlook.afterAll
      (Effect.copies (Buffer.rangeCopy r.data r'.data dstOffset i j))) stream
      (Function.update held dst (Memory.splice (held dst) (dstOffset * r'.data.dtype.width)
        (((held.bytesAt place).drop (i * r'.data.dtype.width)).take
          ((j - i) * r'.data.dtype.width)))) := by
  have hsite := mem_sites_of_held hs hr
  have hproper := hs.owned _ hsite (hs.not_input hb hsite)
  obtain ⟨-, hbytes⟩ := h _ (mem_of_held hr)
  obtain ⟨-, hbytes'⟩ := h.at_place hb hr'
  refine h.bind hs hb hr (fun p hp t ht e he heq => ?_) ?_
  · obtain ⟨hz, rfl⟩ := Effect.mem_copies.mp he
    obtain ⟨hn, -⟩ := Buffer.byteSize_ne_zero_of_inRange hin hz
    -- The copy writes into the storage of the destination, which no other slot shares.
    obtain ⟨u, hu, -, -, -, hdata⟩ := hproper.holding (List.Subset.refl r.holdings) hn
    exact hs.block_ne (sites_emptied hs hr) (mem_sites_of_mem hp) hu ht
      ((congrArg Pointer.block hdata).symm.trans heq)
  · have hcopied := Buffer.outlookBytes_rangeCopy hs.keeps hproper
      (fun _ ht => mem_holdings_of_site hsite ht) hty hin
      (o := s.machine.outlook) rfl
    rw [← hbytes, ← hbytes']
    exact hcopied

/-! ## All commands -/

/-- What a command that succeeds has found. -/
theorem found_of_ok {α : Type} {found : Except Error α} {go : α → Foreseen} {reply : Reply}
    {f : Foreseen} (hf : f = foreseeWith s found go) (h : f.reply = .ok reply) :
    ∃ a, found = .ok a ∧ f = go a := by
  subst hf
  cases found with
  | ok a => exact ⟨a, rfl, rfl⟩
  | error e => cases h

/-- A command that succeeds does to the slots what it does to the ledger. -/
theorem Sound.replays (hs : s.Sound) (hb : s.batch = none) (hc : c.Permitted s)
    (hon : c.OnStream stream) (h : s.Shows s.machine.outlook stream held) {reply : Reply}
    (hreply : (s.foreseen c).reply = .ok reply) :
    (s.foreseen c).session.Shows (s.machine.outlook.afterAll (s.foreseen c).effects) stream
      (c.replay s held) := by
  -- What is foreseen gets a name, so that `found_of_ok` can take apart how it was found.
  obtain ⟨f, hf⟩ : ∃ f, f = s.foreseen c := ⟨_, rfl⟩
  rw [← hf] at hreply ⊢
  cases c with
  | allocate slot dtype size location device t =>
    subst hf
    refine h.add hs hb hc (Effect.sparesBelow_allocs _).keepsBelow hon ?_
    exact Buffer.outlookBytes_fresh ..
  | ofList slot dtype xs location device t =>
    subst hf
    have hlen : (dtype.encode (xs.map dtype.ofInt)).length = xs.length * dtype.width := by
      rw [ElementType.length_encode, List.length_map]
    refine h.add hs hb hc (Buffer.sparesBelow_ofBytesEffects _ _ _ hlen _ _ _).keepsBelow ?_ ?_
    · exact (Buffer.ofBytesResult_stream ..).trans hon
    · exact Buffer.outlookBytes_ofBytesResult _ hlen _ _ _
  | copyTo slot src location device =>
    obtain ⟨r, hr, hf⟩ := found_of_ok hf hreply
    rw [hf]
    exact h.copied hs hb hc hr location device
  | clone slot src =>
    obtain ⟨r, hr, hf⟩ := found_of_ok hf hreply
    rw [hf]
    exact h.copied hs hb hc hr _ _
  | moveTo slot src location =>
    obtain ⟨r, hr, hf⟩ := found_of_ok hf hreply
    rw [hf]
    by_cases hl : r.data.location = location
    · rw [if_pos hl]
      exact h.renamed hs hb hr hc.1 rfl
    · rw [if_neg hl]
      exact h.moved hs hb hr hc.1 _ _
  | borrow => exact hc.elim
  | release slot =>
    obtain ⟨r, hr, hf⟩ := found_of_ok hf hreply
    rw [hf]
    exact h.emptied hs hb hr
  | describe place =>
    obtain ⟨r, -, hf⟩ := found_of_ok hf hreply
    rw [hf]
    exact h
  | text place =>
    obtain ⟨r, -, hf⟩ := found_of_ok hf hreply
    rw [hf]
    exact h
  | sameData p q =>
    obtain ⟨r, -, hf⟩ := found_of_ok hf hreply
    obtain ⟨r', -, hf⟩ := found_of_ok hf hreply
    rw [hf]
    exact h
  | peek place =>
    obtain ⟨r, -, hf⟩ := found_of_ok hf hreply
    obtain ⟨-, -, hf⟩ := found_of_ok hf hreply
    rw [hf]
    exact h
  | toList place =>
    obtain ⟨r, -, hf⟩ := found_of_ok hf hreply
    rw [hf]
    have hsub := List.Subset.refl s.slots
    exact h.keep hs hb hsub (hs.keepsBelow_leaves (Buffer.keepsBelow_fetchEffects _ _) hsub)
  | poke => exact hon.elim
  | rebind place t =>
    obtain ⟨r, hr, hf⟩ := found_of_ok hf hreply
    obtain ⟨name, rfl, hname⟩ := slot_of_resourceAt hb hr
    obtain ⟨-, hbytes⟩ := h _ (mem_of_held hname)
    rw [hf, show t = stream from hon]
    have hbytes : r.data.outlookBytes (s.machine.outlook.afterAll [.wait]) = held name := hbytes
    have hbind := h.bind hs hb hname (hs.keepsBelow_leaves Effect.keepsBelow_wait
      (emptied_subset s name)) hbytes
    rw [Function.update_eq_self] at hbind
    exact hbind
  | copy dst src dstOffset range =>
    obtain ⟨r, hr, hf⟩ := found_of_ok hf hreply
    obtain ⟨r', hr', hf⟩ := found_of_ok hf hreply
    rw [hf] at hreply ⊢
    obtain ⟨name, rfl, hname⟩ := slot_of_resourceAt hb hr
    obtain ⟨hstream, -⟩ := h _ (mem_of_held hname)
    obtain ⟨hstream', -⟩ := h.at_place hb hr'
    unfold foreseeCopy at hreply ⊢
    split at hreply
    · next hin =>
      rw [if_pos hin, if_pos (hstream.trans hstream'.symm), hstream', List.nil_append]
      have hcopied := h.copiedInto hs hb hname hr' (hc.2 r r' hr hr') hin
      simp only [replay, hr']
      exact hcopied
    · cases hreply
  | allocateTensor slot dtype shape location device t =>
    unfold foreseen foresee at hf
    dsimp only at hf
    split at hf
    · subst hf
      cases hreply
    · next count hcount =>
      have hreplay : replay s held (.allocateTensor slot dtype shape location device t) =
          Function.update held slot (List.replicate (count * dtype.width) 0) := by
        simp only [replay, hcount, Option.getD_some]
      rw [hf, hreplay]
      refine h.add hs hb hc (Effect.sparesBelow_allocs _).keepsBelow hon ?_
      exact Buffer.outlookBytes_fresh ..
  | toTensor slot src shape =>
    obtain ⟨r, hr, hf⟩ := found_of_ok hf hreply
    rw [hf] at hreply ⊢
    cases ht : Tensor.ofBuffer shape r.data with
    | error e =>
      rw [ht] at hreply
      cases hreply
    | ok t => exact h.renamed hs hb hr hc.1 (Tensor.buffer_of_ofBuffer ht)
  | toBuffer slot src =>
    obtain ⟨r, hr, hf⟩ := found_of_ok hf hreply
    rw [hf]
    exact h.renamed hs hb hr hc rfl

/-- What a command that fails has found. -/
theorem found_of_error {α : Type} {found : Except Error α} {go : α → Foreseen} {e : Error}
    {f : Foreseen} (hf : f = foreseeWith s found go) (h : f.reply = .error e) :
    f = .fail s e ∨ ∃ a, found = .ok a ∧ f = go a := by
  subst hf
  cases found with
  | ok a => exact .inr ⟨a, rfl, rfl⟩
  | error e' =>
    cases h
    exact .inl rfl

/-- A command that is foreseen to fail does nothing, or only what it does before it finds that
ranges or counts do not fit. -/
theorem foreseen_of_error {e : Error} (h : (s.foreseen c).reply = .error e) :
    s.foreseen c = .fail s e ∨
    (∃ place r, s.resourceAt place = .ok r ∧
      (s.foreseen c).session = bindAt place r.data.stream s ∧ (s.foreseen c).effects = []) ∨
    ∃ src r, s.held src = .ok r ∧ (s.foreseen c).session = emptied s src ∧
      (s.foreseen c).effects = Effect.frees r.holdings := by
  obtain ⟨f, hf⟩ : ∃ f, f = s.foreseen c := ⟨_, rfl⟩
  rw [← hf] at h ⊢
  cases c with
  | allocate | ofList => subst hf; cases h
  | copyTo | clone | borrow | release | describe | text | toList | rebind | toBuffer =>
    rcases found_of_error hf h with hf | ⟨r, -, hf⟩
    · exact .inl hf
    · subst hf
      cases h
  | moveTo =>
    rcases found_of_error hf h with hf | ⟨r, -, hf⟩
    · exact .inl hf
    · rw [hf] at h
      split at h <;> cases h
  | sameData | peek | poke =>
    rcases found_of_error hf h with hf | ⟨r, -, hf⟩
    · exact .inl hf
    · rcases found_of_error hf h with hf | ⟨r', -, hf⟩
      · exact .inl hf
      · subst hf
        cases h
  | copy dst src dstOffset range =>
    rcases found_of_error hf h with hf | ⟨r, hr, hf⟩
    · exact .inl hf
    · rcases found_of_error hf h with hf | ⟨r', -, hf⟩
      · exact .inl hf
      · rw [hf] at h ⊢
        unfold foreseeCopy at h ⊢
        split at h
        · cases h
        · next hin =>
          rw [if_neg hin]
          exact .inr (.inl ⟨dst, r, hr, rfl, rfl⟩)
  | allocateTensor slot dtype shape location device t =>
    unfold foreseen foresee at hf
    dsimp only at hf
    split at hf
    · subst hf
      cases h
      exact .inl rfl
    · subst hf
      cases h
  | toTensor slot src shape =>
    rcases found_of_error hf h with hf | ⟨r, hr, hf⟩
    · exact .inl hf
    · rw [hf] at h ⊢
      cases ht : Tensor.ofBuffer shape r.data with
      | error e' => exact .inr (.inr ⟨src, r, hr, rfl, rfl⟩)
      | ok t =>
        rw [ht] at h
        cases h

/-- A command that fails leaves all that still has a name as it was. -/
theorem Sound.shows_of_error (hs : s.Sound) (hb : s.batch = none)
    (h : s.Shows s.machine.outlook stream held) {e : Error}
    (herror : (s.foreseen c).reply = .error e) :
    (s.foreseen c).session.Shows (s.machine.outlook.afterAll (s.foreseen c).effects) stream
      held := by
  rcases foreseen_of_error herror with hf | ⟨place, r, hr, hsession, heffects⟩ |
    ⟨src, r, hr, hsession, heffects⟩
  · rw [hf]
    exact h
  · obtain ⟨name, rfl, hname⟩ := slot_of_resourceAt hb hr
    obtain ⟨hstream, hbytes⟩ := h _ (mem_of_held hname)
    have hbytes : r.data.outlookBytes (s.machine.outlook.afterAll []) = held name := hbytes
    have hbind := h.bind hs hb hname (fun _ _ _ _ _ he => absurd he List.not_mem_nil) hbytes
    rw [Function.update_eq_self] at hbind
    rw [hsession, heffects, show r.data.stream = stream from hstream]
    exact hbind
  · rw [hsession, heffects]
    exact h.emptied hs hb hr

end Session

end DeviceBatch
