import DeviceBatch.Proofs.Foresight

/-!
# Commands on buffers

Which commands are permitted (`BufferCommand.Permitted`, `BufferCommand.SparesInputs`) and what they
do. A permitted command never meets storage of anybody else: buffers are not borrowed, the inputs of
a batch are only read, a slot is emptied before it is used again, a buffer is not copied onto itself
or onto elements of another type, and host storage is not dropped while a waiting copy touches it.
The last also rules out moves, and adoptions of buffers by tensors, that fail and drop such storage,
although there it is not the caller who drops it.

Such a command does what was foreseen, unless there is no storage for it
(`Sound.performs`). The effects are exact if the command does nothing at once that waiting
copies depend on (`BufferCommand.Patient`); what is looked at is as foreseen if no waiting copy
writes it (`BufferCommand.Current`).
-/

namespace DeviceBatch

namespace Session

/-- The slot is not in use. -/
def Free (s : Session) (slot : String) : Prop := slot ∉ s.slots.map Prod.fst

instance (s : Session) (slot : String) : Decidable (s.Free slot) :=
  inferInstanceAs (Decidable (_ ∉ _))

/-- What is dropped is no host storage that a waiting copy touches. -/
def DropsSafely (s : Session) (r : Resource) : Prop :=
  ∀ t ∈ r.holdings, t.location = .host → s.machine.Untouched t.block

/-- No effect changes storage that only the library writes. -/
def Spares (s : Session) (es : List Effect) : Prop :=
  ∀ t ∈ s.holdings, t.use.IsFixed → ∀ e ∈ es, ¬ e.Changes t.block

/-- Nothing but slots, the machine, and outputs of the batch may differ. -/
structure Alike (s s' : Session) : Prop where
  requests : s'.requests = s.requests
  kept : s'.kept = s.kept
  aside : s'.aside = s.aside
  batch : s'.batch.map (fun b => { b with outputs := [] }) =
    s.batch.map (fun b => { b with outputs := [] })

end Session

namespace BufferCommand

open Session

/-- New things get names of their own, a buffer is copied to another one of the same type, no
storage is borrowed, and no host storage is dropped while a waiting copy touches it, be it by a
release or by a move or the adoption of a buffer by a tensor that fails. -/
def Permitted (s : Session) : BufferCommand → Prop
  | allocate slot .. | ofList slot .. | copyTo slot .. | clone slot .. | allocateTensor slot .. =>
    s.Free slot
  | moveTo slot src location => (emptied s src).Free slot ∧ ∀ r, s.held src = .ok r →
    ∀ e m, r.data.moveTo location s.machine = .error e m → s.DropsSafely r
  | borrow .. => False
  | release slot => ∀ r, s.held slot = .ok r → s.DropsSafely r
  | copy dst src .. => dst ≠ src ∧ ∀ r r', s.resourceAt dst = .ok r → s.resourceAt src = .ok r' →
    r.data.dtype = r'.data.dtype
  | toTensor slot src shape => (emptied s src).Free slot ∧ ∀ r, s.held src = .ok r →
    ∀ e, Tensor.ofBuffer shape r.data = .error e → s.DropsSafely r
  | toBuffer slot src => (emptied s src).Free slot
  | describe _ | text _ | sameData .. | peek _ | toList _ | poke .. | rebind .. => True

/-- The inputs of a batch are only read. -/
def SparesInputs (s : Session) : BufferCommand → Prop
  | moveTo _ src _ | toTensor _ src _ | toBuffer _ src =>
    ∀ r, s.held src = .ok r → r.isInput = false
  | poke place .. | rebind place _ | copy place .. =>
    ∀ r, s.resourceAt place = .ok r → r.isInput = false
  | _ => True

/-- Nothing is done at once that waiting copies depend on. -/
def Patient (s : Session) : BufferCommand → Prop
  | copyTo _ src location _ => ∀ r, s.resourceAt src = .ok r → r.data.byteSize ≠ 0 →
    s.machine.platform.defers (.between location r.data.location) = false →
    s.machine.Steady r.data.data r.data.byteSize
  | clone _ src => ∀ r, s.resourceAt src = .ok r → r.data.byteSize ≠ 0 →
    s.machine.platform.defers (.between r.data.location r.data.location) = false →
    s.machine.Steady r.data.data r.data.byteSize
  | poke place index xs => ∀ r, s.resourceAt place = .ok r → r.data.location = .host →
    index + xs.length ≤ r.data.size → xs ≠ [] →
    s.machine.Avoided (r.data.position index)
      (r.data.dtype.encode (xs.map r.data.dtype.ofInt)).length
  | copy dst src dstOffset range => ∀ r r', s.resourceAt dst = .ok r → s.resourceAt src = .ok r' →
    let (i, j) := range.getD (0, r'.data.size)
    Buffer.inRange r.data r'.data dstOffset i j → (j - i) * r'.data.dtype.width ≠ 0 →
    s.machine.platform.defers (.between r.data.location r'.data.location) = false →
    (Buffer.joined r.data r'.data s.machine).Clear (Buffer.rangeCopy r.data r'.data dstOffset i j)
  | _ => True

/-- What is looked at is written by no waiting copy. -/
def Current (s : Session) : BufferCommand → Prop
  | peek place => ∀ r, s.resourceAt place = .ok r → r.data.location = .host →
    r.data.byteSize ≠ 0 → s.machine.Unwritten r.data.data.block
  | _ => True

end BufferCommand

namespace Session

variable {s s' : Session} {es fs : List Effect} {P : Prop} {place : Place} {slot : String}
  {r r' : Resource} {stream : Stream} {m : Machine}

/-! ## What stays -/

theorem Alike.refl (s : Session) : s.Alike s := ⟨rfl, rfl, rfl, rfl⟩

theorem Alike.stock (h : s.Alike s') : s'.stock = s.stock := by
  unfold Session.stock
  rw [h.requests, h.kept, h.aside]
  congr 2
  have hb := h.batch
  cases hs : s.batch with
  | none =>
    rw [hs, Option.map_none, Option.map_eq_none_iff] at hb
    rw [hb]
  | some b =>
    rw [hs, Option.map_some] at hb
    obtain ⟨b', hb', heq⟩ := Option.map_eq_some_iff.mp hb
    rw [hb']
    obtain ⟨requests, responses, held, outputs, stream, state⟩ := b
    obtain ⟨requests', responses', held', outputs', stream', state'⟩ := b'
    cases heq
    rfl

/-- The batch in progress, but for its outputs. -/
theorem Alike.batch_eq (h : s.Alike s') {b' : Local.Batch} (hb : s'.batch = some b') :
    ∃ b, s.batch = some b ∧ b'.requests = b.requests ∧ b'.responses = b.responses ∧
      b'.held = b.held ∧ b'.stream = b.stream ∧ b'.state = b.state := by
  have hmap := h.batch
  rw [hb, Option.map_some] at hmap
  obtain ⟨b, hs, heq⟩ := Option.map_eq_some_iff.mp hmap.symm
  refine ⟨b, hs, ?_⟩
  obtain ⟨requests, responses, held, outputs, stream, state⟩ := b
  obtain ⟨requests', responses', held', outputs', stream', state'⟩ := b'
  cases heq
  exact ⟨rfl, rfl, rfl, rfl, rfl⟩

theorem Alike.symm_batch (h : s.Alike s') {b : Local.Batch} (hb : s.batch = some b) :
    ∃ b', s'.batch = some b' ∧ b'.requests = b.requests ∧ b'.held = b.held ∧
      b'.stream = b.stream := by
  have hmap := h.batch
  rw [hb, Option.map_some] at hmap
  obtain ⟨b', hs, heq⟩ := Option.map_eq_some_iff.mp hmap
  refine ⟨b', hs, ?_⟩
  obtain ⟨requests, responses, held, outputs, stream, state⟩ := b
  obtain ⟨requests', responses', held', outputs', stream', state'⟩ := b'
  cases heq
  exact ⟨rfl, rfl, rfl⟩

theorem Alike.view (h : s.Alike s') {b : Buffer} (hv : s.View b) : s'.View b := by
  obtain ⟨batch, hb, hviews⟩ := hv
  obtain ⟨batch', hb', hrequests, hheld, hstream⟩ := h.symm_batch hb
  refine ⟨batch', hb', ?_⟩
  unfold Local.Batch.seen Local.Batch.staged
  rw [hstream, hrequests, hheld]
  exact hviews

theorem alike_bindAt (s : Session) (place : Place) (stream : Stream) :
    s.Alike (bindAt place stream s) := by
  cases place with
  | slot name =>
    cases hr : s.slots.lookup name with
    | none =>
      rw [bindAt_of_none hr]
      exact .refl s
    | some r =>
      rw [bindAt_slot hr]
      exact ⟨rfl, rfl, rfl, rfl⟩
  | output name =>
    refine ⟨rfl, rfl, rfl, ?_⟩
    show (s.batch.map _).map _ = _
    rw [Option.map_map]
    rfl

/-- Sites in place of others, with all else as it was. -/
theorem Sound.exchange (hs : s.Sound) (ha : s.Alike s') (old new rest : List (Place × Resource))
    (hold : s.sites.Perm (old ++ rest)) (hnew : s'.sites.Perm (new ++ rest))
    (hkeys : (new.map Prod.fst ++ rest.map Prod.fst).Nodup)
    (hok : ∀ p ∈ new, p.2.isInput = false ∧ p.2.data.Proper)
    (hp : s.machine.Progress
      (old.flatMap (fun p => p.2.holdings) ++ (rest.flatMap (fun p => p.2.holdings) ++ s.stock))
      es P s'.machine
      (new.flatMap (fun p => p.2.holdings) ++ (rest.flatMap (fun p => p.2.holdings) ++ s.stock))) :
    s'.Sound ∧ s.machine.Progress s.holdings es P s'.machine s'.holdings := by
  have hleft : s.holdings.Perm
      (old.flatMap (fun p => p.2.holdings) ++
        (rest.flatMap (fun p => p.2.holdings) ++ s.stock)) := by
    unfold holdings
    rw [← List.append_assoc, ← List.flatMap_append]
    exact (hold.flatMap_right _).append_right _
  have hright : (new.flatMap (fun p => p.2.holdings) ++
      (rest.flatMap (fun p => p.2.holdings) ++ s.stock)).Perm s'.holdings := by
    unfold holdings
    rw [← List.append_assoc, ← List.flatMap_append, ha.stock]
    exact (hnew.symm.flatMap_right _).append_right _
  have hdone := (hp.perm_left hleft).perm hright
  -- A site is new or was there before; every other clause of soundness follows by cases.
  have hmem : ∀ p ∈ s'.sites, p ∈ new ∨ p ∈ s.sites := by
    intro p hp
    rcases List.mem_append.mp (hnew.mem_iff.mp hp) with hp | hp
    · exact .inl hp
    · exact .inr (hold.mem_iff.mpr (List.mem_append_right _ hp))
  refine ⟨?_, hdone⟩
  exact {
    keeps := hdone.keeps
    keys := by
      refine (hnew.map Prod.fst).symm.nodup ?_
      rw [List.map_append]
      exact hkeys
    owned := fun p hp hi => by
      rcases hmem p hp with hp | hp
      · exact (hok p hp).2
      · exact hs.owned p hp hi
    views := fun p hp hi => by
      rcases hmem p hp with hp | hp
      · rw [(hok p hp).1] at hi
        cases hi
      · exact ha.view (hs.views p hp hi)
    requests := by rw [ha.requests]; exact hs.requests
    batch := fun b' hb' => by
      obtain ⟨b, hb, hreq, hresp, hheld, hstream, hstate⟩ := ha.batch_eq hb'
      have hsound := hs.batch b hb
      rw [ha.requests]
      exact {
        requests := by rw [hreq]; exact hsound.requests
        responses := by rw [hresp]; exact hsound.responses
        staging := by rw [hheld, hstream]; exact hsound.staging
        stream := by rw [hheld, hstream]; exact hsound.stream
        single := by rw [hheld, hreq]; exact hsound.single
        opened := by rw [hstate, hresp, hreq]; exact hsound.opened }
    labels := by rw [ha.aside]; exact hs.labels
    aside := by rw [ha.aside, ha.requests]; exact hs.aside
    kept := by rw [ha.kept]; exact hs.kept }

/-! ## Sites and their storage -/

theorem mem_sites (hs : s.Sound) (h : s.resourceAt place = .ok r) : (place, r) ∈ s.sites := by
  obtain ⟨rest, hperm, -⟩ := site_split hs.keys h
  exact hperm.mem_iff.mpr List.mem_cons_self

/-- The batch in progress sees storage of the session. -/
theorem Sound.seen_subset (hs : s.Sound) {b : Local.Batch} (hb : s.batch = some b) :
    b.seen ⊆ s.stock := by
  intro t ht
  rcases List.mem_append.mp ht with ht | ht
  · obtain ⟨r, hr, ht⟩ := List.mem_flatMap.mp ht
    exact List.mem_append_left _ (List.mem_flatMap.mpr ⟨r, (hs.batch b hb).requests.subset hr, ht⟩)
  · refine List.mem_append_right _ (List.mem_append_left _ ?_)
    rw [hb]
    exact List.mem_append_right _ ht

/-- What stands at one of several sites is readable, whatever happens to the other ones. -/
theorem Sound.readable (hs : s.Sound) {p : Place × Resource} (hp : p ∈ s.sites)
    {rest : List (Place × Resource)} (hr : p ∈ rest) :
    p.2.data.Readable (rest.flatMap (fun p => p.2.holdings) ++ s.stock) := by
  cases hi : p.2.isInput with
  | false =>
    refine (hs.owned p hp hi).readable fun t ht => List.mem_append_left _ ?_
    exact List.mem_flatMap.mpr ⟨p, hr, ht⟩
  | true =>
    intro hn
    obtain ⟨batch, hbatch, hviews⟩ := hs.views p hp hi
    obtain ⟨t, ht, -, hspan, hloc, hgive⟩ := hviews.lies hn
    exact ⟨t, List.mem_append_right _ (hs.seen_subset hbatch ht), hspan, hloc, hgive⟩

theorem Sound.readable_at (hs : s.Sound) (h : s.resourceAt place = .ok r) :
    r.data.Readable s.holdings := hs.readable (mem_sites hs h) (mem_sites hs h)

/-- Different sites have different storage. -/
theorem Sound.block_ne (hs : s.Sound) {p q : Place × Resource} {rest : List (Place × Resource)}
    (hperm : s.sites.Perm (p :: rest)) (hq : q ∈ rest) {t u : Holding} (ht : t ∈ p.2.holdings)
    (hu : u ∈ q.2.holdings) : t.block ≠ u.block := by
  have hn := Machine.Orderly.distinct hs.keeps
  have hflat := (hperm.flatMap_right fun p => p.2.holdings).map Holding.block
  unfold holdings at hn
  rw [List.append_assoc, List.map_append, List.nodup_append] at hn
  have hsites := hflat.nodup hn.1
  rw [List.flatMap_cons, List.map_append, List.nodup_append] at hsites
  exact hsites.2.2 t.block (List.mem_map_of_mem ht) u.block
    (List.mem_map_of_mem (List.mem_flatMap.mpr ⟨q, hq, hu⟩))

/-- The storage of a site is not storage that only the library writes. -/
theorem Sound.block_ne_fixed (hs : s.Sound) {p : Place × Resource} (hp : p ∈ s.sites)
    {u : Holding} (hu : u ∈ p.2.holdings) {t : Holding} (ht : t ∈ s.holdings)
    (hf : t.use.IsFixed) : u.block ≠ t.block := by
  intro hb
  have heq := Machine.Orderly.eq_of_block hs.keeps
    (Machine.Keeps.mem (mem_holdings_of_site hp hu)) (Machine.Keeps.mem ht) hb
  subst heq
  have huse : u.use = .bound p.2.data.stream := by
    unfold Resource.holdings Buffer.holdings at hu
    split at hu
    · cases hu
    · unfold Allocation.holdings at hu
      split at hu
      · cases hu
      · rw [List.mem_singleton.mp hu]
  rw [huse] at hf
  exact hf

/-- So it is with the block where the elements lie, if there are any. -/
theorem Sound.data_ne_fixed (hs : s.Sound) {p : Place × Resource} (hp : p ∈ s.sites)
    (hi : p.2.isInput = false) (hn : p.2.data.byteSize ≠ 0) {t : Holding} (ht : t ∈ s.holdings)
    (hf : t.use.IsFixed) : p.2.data.data.block ≠ t.block := by
  obtain ⟨u, hu, -, -, -, hdata⟩ := (hs.owned p hp hi).holding (List.Subset.refl p.2.holdings) hn
  rw [hdata]
  exact hs.block_ne_fixed hp hu ht hf

theorem Spares.append (h : s.Spares es) (h' : s.Spares fs) : s.Spares (es ++ fs) := by
  intro t ht hf e he
  rcases List.mem_append.mp he with he | he
  · exact h t ht hf e he
  · exact h' t ht hf e he

theorem spares_nil (s : Session) : s.Spares [] := fun _ _ _ _ he => absurd he List.not_mem_nil

theorem Sound.spares_below (hs : s.Sound) (h : Effect.KeepsBelow s.machine.memory.next es) :
    s.Spares es := fun t ht _ e he =>
  h e he t.block (Machine.Orderly.block_lt hs.keeps (Machine.Keeps.mem ht))

theorem Sound.spares_frees (hs : s.Sound) {p : Place × Resource} (hp : p ∈ s.sites) :
    s.Spares (Effect.frees p.2.holdings) := by
  intro t ht hf e he heq
  obtain ⟨u, hu, rfl⟩ := List.mem_map.mp he
  exact hs.block_ne_fixed hp hu ht hf heq

/-- Without a batch there are no inputs. -/
theorem Sound.not_input (hs : s.Sound) (hb : s.batch = none) {p : Place × Resource}
    (hp : p ∈ s.sites) : p.2.isInput = false := by
  cases hi : p.2.isInput with
  | false => rfl
  | true =>
    obtain ⟨batch, hbatch, -⟩ := hs.views p hp hi
    rw [hb] at hbatch
    cases hbatch

theorem Sound.sparesInputs (hs : s.Sound) (hb : s.batch = none) (c : BufferCommand) :
    c.SparesInputs s := by
  cases c with
  | moveTo slot src | toTensor slot src | toBuffer slot src =>
    exact fun r hr => hs.not_input hb (mem_sites hs (show s.resourceAt (.slot src) = .ok r from hr))
  | poke | rebind | copy => exact fun r hr => hs.not_input hb (mem_sites hs hr)
  | _ => trivial

/-- Where copies wait at all, only those from host to host are performed at once. -/
theorem host_of_not_defers {dst src : Location} (hd : m.platform.isDeferred = true)
    (h : m.platform.defers (.between dst src) = false) : dst = .host ∧ src = .host := by
  rw [Platform.defers_eq, hd, Bool.true_and, CopyKind.touchesDevice_between] at h
  cases dst <;> cases src <;> first | exact ⟨rfl, rfl⟩ | cases h

/-! ## What commands do -/

/-- The command did to the session what was foreseen. -/
structure Did (s : Session) (f : Foreseen) (exact : Prop) (s' : Session) : Prop where
  session : s' = { f.session with machine := s'.machine }
  progress : s.machine.Progress s.holdings f.effects exact s'.machine s'.holdings
  spares : s.Spares f.effects
  sound : s'.Sound
  alike : s.Alike s'

/-- The command failed because there was no storage. What still has a name is as it was. -/
structure Refused (s : Session) (es : List Effect) (s' : Session) : Prop where
  progress : s.machine.Progress s.holdings es True s'.machine s'.holdings
  spares : s.Spares es
  sound : s'.Sound
  alike : s.Alike s'
  slots : s'.slots ⊆ s.slots
  leaves : ∀ p ∈ s'.sites, ∀ t ∈ p.2.holdings, ∀ e ∈ es, ¬ e.Changes t.block

theorem Refused.refl (hs : s.Sound) : s.Refused [] s where
  progress := .refl hs.keeps
  spares := spares_nil s
  sound := hs
  alike := .refl s
  slots := List.Subset.refl _
  leaves _ _ _ _ _ he := absurd he List.not_mem_nil

/-- The machine alone changed, and the session holds what it held. -/
theorem Sound.withMachine (hs : s.Sound)
    (hp : s.machine.Progress s.holdings es P m s.holdings) :
    ({ s with machine := m } : Session).Sound :=
  have halike : s.Alike { s with machine := m } := ⟨rfl, rfl, rfl, rfl⟩
  (hs.exchange halike [] [] s.sites
    (List.Perm.refl _) (List.Perm.refl _) hs.keys (fun _ hp => absurd hp List.not_mem_nil) hp).1

theorem Did.answer (hs : s.Sound) {reply : Reply} (hspare : s.Spares es)
    (hp : s.machine.Progress s.holdings es P m s.holdings) :
    s.Did (.answer s reply es) P { s with machine := m } :=
  ⟨rfl, hp, hspare, hs.withMachine hp, ⟨rfl, rfl, rfl, rfl⟩⟩

theorem Did.of_nothing (hs : s.Sound) {f : Foreseen} (hf : f.session = s) (he : f.effects = []) :
    s.Did f P s := by
  obtain ⟨reply, session, effects⟩ := f
  cases hf
  cases he
  exact ⟨rfl, (Machine.Progress.refl hs.keeps).imp fun _ => trivial, spares_nil _, hs, .refl _⟩

/-- One more site. -/
theorem sites_put (hfree : s.Free slot) :
    ({ s with slots := s.slots.put slot r } : Session).sites.Perm ((.slot slot, r) :: s.sites) := by
  unfold sites Named.put
  rw [Named.remove_eq_self hfree, List.map_append]
  exact (List.perm_append_singleton _ _).append_right _

theorem keys_put (hk : (s.sites.map Prod.fst).Nodup) (hfree : s.Free slot) :
    (Place.slot slot :: s.sites.map Prod.fst).Nodup := by
  refine List.nodup_cons.mpr ⟨fun hmem => ?_, hk⟩
  obtain ⟨p, hp, heq⟩ := List.mem_map.mp hmem
  rcases List.mem_append.mp hp with hp | hp
  · obtain ⟨q, hq, rfl⟩ := List.mem_map.mp hp
    cases heq
    exact hfree (List.mem_map_of_mem hq)
  · cases hb : s.batch with
    | none => rw [hb] at hp; cases hp
    | some b =>
      rw [hb] at hp
      obtain ⟨o, -, rfl⟩ := List.mem_map.mp hp
      cases heq

/-- Something new in a slot that is free. -/
theorem Did.add (hs : s.Sound) {f : Foreseen} (hfree : s.Free slot) (hi : r.isInput = false)
    (hr : r.data.Proper) (hf : f.session = { s with slots := s.slots.put slot r })
    (hspare : s.Spares f.effects)
    (hp : s.machine.Progress s.holdings f.effects P m (r.holdings ++ s.holdings)) :
    s.Did f P { s with machine := m, slots := s.slots.put slot r } := by
  have halike : s.Alike { s with machine := m, slots := s.slots.put slot r } := ⟨rfl, rfl, rfl, rfl⟩
  have hdone : _ ∧ s.machine.Progress s.holdings f.effects P _ _ :=
    hs.exchange halike [] [(.slot slot, r)] s.sites (List.Perm.refl _) (sites_put hfree)
      (keys_put hs.keys hfree) (by simpa using ⟨hi, hr⟩) (by
        rw [List.flatMap_nil, List.flatMap_cons, List.flatMap_nil, List.append_nil]
        exact hp)
  exact ⟨by rw [hf], hdone.2, hspare, hdone.1, halike⟩

/-- The sites without a slot. -/
theorem sites_emptied (hs : s.Sound) (h : s.held slot = .ok r) :
    s.sites.Perm ((.slot slot, r) :: (BufferCommand.emptied s slot).sites) :=
  ((Named.perm_remove (held_eq_ok h) (slots_nodup hs.keys)).map _).append_right _

/-- Something new in a slot that is free, made of what was taken out of its own. -/
theorem Did.replace (hs : s.Sound) {f : Foreseen} {src : String} (h : s.held src = .ok r)
    (hfree : (BufferCommand.emptied s src).Free slot) (r' : Resource) (hi : r'.isInput = false)
    (hr : r'.data.Proper) (hf : f.session =
      { s with slots := (BufferCommand.emptied s src).slots.put slot r' })
    (hspare : s.Spares f.effects)
    (hp : s.machine.Progress (r.holdings ++ (BufferCommand.emptied s src).holdings) f.effects P m
      (r'.holdings ++ (BufferCommand.emptied s src).holdings)) :
    s.Did f P { s with
      machine := m
      slots := (BufferCommand.emptied s src).slots.put slot r' } := by
  have hnew : ({ s with
      machine := m
      slots := (BufferCommand.emptied s src).slots.put slot r' } : Session).sites.Perm
      ([(.slot slot, r')] ++ (BufferCommand.emptied s src).sites) := sites_put hfree
  have hperm := sites_emptied hs h
  have hkeys : (Place.slot slot :: (BufferCommand.emptied s src).sites.map Prod.fst).Nodup :=
    keys_put (List.nodup_cons.mp ((hperm.map Prod.fst).nodup hs.keys)).2 hfree
  have halike : s.Alike { s with
      machine := m
      slots := (BufferCommand.emptied s src).slots.put slot r' } := ⟨rfl, rfl, rfl, rfl⟩
  have hdone : _ ∧ s.machine.Progress s.holdings f.effects P _ _ :=
    hs.exchange halike [(.slot src, r)] [(.slot slot, r')] (BufferCommand.emptied s src).sites hperm
      hnew hkeys (by simpa using ⟨hi, hr⟩) (by
        rw [List.flatMap_cons, List.flatMap_nil, List.flatMap_cons, List.flatMap_nil,
          List.append_nil, List.append_nil]
        exact hp)
  exact ⟨by rw [hf], hdone.2, hspare, hdone.1, halike⟩

/-- What was in a slot is gone. -/
theorem Sound.remove (hs : s.Sound) (h : s.held slot = .ok r)
    (hp : s.machine.Progress (r.holdings ++ (BufferCommand.emptied s slot).holdings) es P m
      (BufferCommand.emptied s slot).holdings) :
    ({ BufferCommand.emptied s slot with machine := m } : Session).Sound ∧
      s.machine.Progress s.holdings es P m
        ({ BufferCommand.emptied s slot with machine := m } : Session).holdings := by
  have hperm := sites_emptied hs h
  have hk := (hperm.map Prod.fst).nodup hs.keys
  rw [List.map_cons, List.nodup_cons] at hk
  have halike : s.Alike { BufferCommand.emptied s slot with machine := m } := ⟨rfl, rfl, rfl, rfl⟩
  exact hs.exchange halike [(.slot slot, r)] [] (BufferCommand.emptied s slot).sites hperm
    (List.Perm.refl _) hk.2 (fun _ hp => absurd hp List.not_mem_nil) (by
      rw [List.flatMap_cons, List.flatMap_nil, List.append_nil]
      exact hp)

theorem Did.remove (hs : s.Sound) {f : Foreseen} (h : s.held slot = .ok r)
    (hf : f.session = BufferCommand.emptied s slot) (hspare : s.Spares f.effects)
    (hp : s.machine.Progress (r.holdings ++ (BufferCommand.emptied s slot).holdings) f.effects P m
      (BufferCommand.emptied s slot).holdings) :
    s.Did f P { BufferCommand.emptied s slot with machine := m } := by
  obtain ⟨hsound, hdone⟩ := hs.remove h hp
  exact ⟨by rw [hf], hdone, hspare, hsound, ⟨rfl, rfl, rfl, rfl⟩⟩

/-- The buffer at a place on another stream. -/
theorem Did.bind (hs : s.Sound) {f : Foreseen} (h : s.resourceAt place = .ok r)
    (hi : r.isInput = false) (hf : f.session = bindAt place stream s)
    (hspare : s.Spares f.effects)
    (hp : ∀ rest, s.sites.Perm ((place, r) :: rest) →
      s.machine.Progress (r.holdings ++ (rest.flatMap (fun p => p.2.holdings) ++ s.stock)) f.effects
        P m ((r.withStream stream).holdings ++
          (rest.flatMap (fun p => p.2.holdings) ++ s.stock))) :
    s.Did f P { bindAt place stream s with machine := m } := by
  obtain ⟨rest, hperm, hbind⟩ := site_split hs.keys h
  have hproper := hs.owned _ (mem_sites hs h) hi
  have hdata : (r.withStream stream).data = { r.data with stream } := by cases r <;> rfl
  have hinput : (r.withStream stream).isInput = false := by
    cases r <;> first | rfl | exact hi
  have halike : s.Alike { bindAt place stream s with machine := m } :=
    ⟨(alike_bindAt s place stream).requests, (alike_bindAt s place stream).kept,
      (alike_bindAt s place stream).aside, (alike_bindAt s place stream).batch⟩
  have hk := (hperm.map Prod.fst).nodup hs.keys
  have hdone : _ ∧ s.machine.Progress s.holdings f.effects P _ _ := hs.exchange halike [(place, r)]
    [(place, r.withStream stream)] rest hperm (hbind stream) hk
    (by
      intro p hp
      rw [List.mem_singleton.mp hp]
      refine ⟨hinput, ?_⟩
      obtain ⟨a, ha, hbytes⟩ := hproper
      rw [hdata]
      exact ⟨a, ha, hbytes⟩) (by
      rw [List.flatMap_cons, List.flatMap_nil, List.flatMap_cons, List.flatMap_nil,
        List.append_nil, List.append_nil]
      exact hp rest hperm)
  exact ⟨by rw [hf], hdone.2, hspare, hdone.1, halike⟩

end Session

end DeviceBatch
