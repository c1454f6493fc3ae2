import DeviceBatch.Proofs.Commands

/-!
# Performing commands on buffers

Every permitted command on buffers does what was foreseen, or is refused storage
(`Session.Sound.performs`). There is one lemma for each group of commands that go the same way.
-/

namespace DeviceBatch.Session

open BufferCommand

variable {s s' : Session} {slot src : String} {place : Place} {r : Resource} {e : Error}
  {b : Buffer} {m : Machine} {α : Type}

/-- What a command will do if storage is given out. -/
def foreseen (s : Session) (c : BufferCommand) : Foreseen :=
  c.foresee s.machine.outlook s.machine.platform.name s

/-- The command does what was foreseen, or there is no storage. -/
def Performs (s : Session) (c : BufferCommand) : Prop :=
  (∃ e s' es, e.IsAllocation ∧ s.perform (.buffer c) = (.error e, s') ∧ s.Refused es s') ∨
  ∃ reply s', s.perform (.buffer c) = (reply, s') ∧ (c.Current s → reply = (s.foreseen c).reply) ∧
    s.Did (s.foreseen c) (c.Patient s) s'

/-! ## Ways to end -/

theorem perform_of_ok {c : BufferCommand} {reply : Reply} (h : c.run s = .ok reply s') :
    s.perform (.buffer c) = (.ok reply, s') := Action.outcome_of_ok h

theorem perform_of_error {c : BufferCommand} (h : c.run s = .error e s') :
    s.perform (.buffer c) = (.error e, s') := Action.outcome_of_error h

theorem keepBuffer_of_ok {act : Action Session Buffer} (h : act s = .ok b s') :
    keepBuffer slot act s =
      .ok (.buffer b) { s' with slots := s'.slots.put slot (.buffer b) } := Action.bind_of_ok h

theorem keepBuffer_of_error {act : Action Session Buffer} (h : act s = .error e s') :
    keepBuffer slot act s = .error e s' := Action.bind_of_error h

theorem keepBuffer_congr {act act' : Action Session Buffer} (h : act s = act' s) :
    keepBuffer slot act s = keepBuffer slot act' s := by
  show EStateM.bind act _ s = EStateM.bind act' _ s
  unfold EStateM.bind
  rw [h]

/-- Nothing is at the place, and nothing is done. -/
theorem performs_fail (hs : s.Sound) {c : BufferCommand} (h : c.run s = .error e s)
    (hf : s.foreseen c = .fail s e) : s.Performs c :=
  .inr ⟨.error e, s, perform_of_error h, fun _ => by rw [hf]; rfl,
    .of_nothing hs (by rw [hf]; rfl) (by rw [hf]; rfl)⟩

/-- No storage was given out, and nothing else was done. -/
theorem performs_refuse (hs : s.Sound) {c : BufferCommand} (he : e.IsAllocation)
    (h : c.run s = .error e s) : s.Performs c :=
  .inl ⟨e, s, [], he, perform_of_error h, .refl hs⟩

/-! ## New buffers -/

theorem performs_allocate (hs : s.Sound) (hfree : s.Free slot) (dtype : ElementType) (size : Nat)
    (location : Location) (device : Nat) (stream : Stream) :
    s.Performs (.allocate slot dtype size location device stream) := by
  rcases Buffer.allocate_cases dtype size location device stream hs.keeps with
    ⟨e, he, ha⟩ | ⟨m, ha, hp⟩
  · exact performs_refuse hs he (keepBuffer_of_error (onMachine_of_error ha))
  · rw [← Machine.next_outlook] at ha hp
    refine .inr ⟨_, _, perform_of_ok (keepBuffer_of_ok (onMachine_of_ok ha)), fun _ => rfl, ?_⟩
    refine .add hs hfree rfl (Buffer.fresh_proper ..) rfl
      (hs.spares_below (Effect.sparesBelow_allocs _).keepsBelow) ?_
    exact (hp (.bound stream)).imp fun _ => trivial

theorem performs_ofList (hs : s.Sound) (hfree : s.Free slot) (dtype : ElementType) (xs : List Int)
    (location : Location) (device : Nat) (stream : Stream) :
    s.Performs (.ofList slot dtype xs location device stream) := by
  have hlen : (dtype.encode (xs.map dtype.ofInt)).length = xs.length * dtype.width := by
    rw [ElementType.length_encode, List.length_map]
  have heq : Buffer.ofList dtype (xs.map dtype.ofInt) location device stream =
      Buffer.ofBytes dtype xs.length (dtype.encode (xs.map dtype.ofInt)) location device
        stream := by
    unfold Buffer.ofList
    rw [List.length_map]
  have hrun : run (.ofList slot dtype xs location device stream) =
      keepBuffer slot (onMachine (Buffer.ofBytes dtype xs.length
        (dtype.encode (xs.map dtype.ofInt)) location device stream)) := by
    rw [← heq]
    rfl
  rcases Buffer.ofBytes_cases hs.keeps hlen location device stream with
    ⟨e, m, es, he, ha, hp, hes⟩ | ⟨m, ha, hp⟩
  · refine .inl ⟨e, { s with machine := m }, es, he, perform_of_error ?_, ?_⟩
    · rw [hrun]
      exact keepBuffer_of_error (onMachine_of_error ha)
    · exact {
        progress := hp
        spares := hs.spares_below hes.keepsBelow
        sound := hs.withMachine hp
        alike := ⟨rfl, rfl, rfl, rfl⟩
        slots := List.Subset.refl _
        leaves := fun p hp t ht e he => hes.keepsBelow e he t.block
          (hs.keeps.block_lt (Machine.Keeps.mem (mem_holdings_of_site hp ht))) }
  · rw [← Machine.next_outlook] at ha hp
    refine .inr ⟨_, _, perform_of_ok ?_, fun _ => rfl, .add hs (m := m)
      (r := .buffer (Buffer.ofBytesResult s.machine.outlook.memory.next dtype xs.length location
        device stream)) hfree rfl ?_ rfl ?_ ?_⟩
    · rw [hrun]
      exact keepBuffer_of_ok (onMachine_of_ok ha)
    · exact Buffer.ofBytesResult_proper ..
    · exact hs.spares_below (by
        rw [← Machine.next_outlook]
        exact (Buffer.sparesBelow_ofBytesEffects _ _ _ hlen _ _ _).keepsBelow)
    · have hstream : (Buffer.ofBytesResult s.machine.outlook.memory.next dtype xs.length location
          device stream).stream = stream := Buffer.ofBytesResult_stream ..
      show s.machine.Progress _ _ _ _ (Buffer.holdings _ (.bound (Buffer.stream _)) ++ _)
      rw [show (Resource.buffer (Buffer.ofBytesResult s.machine.outlook.memory.next dtype xs.length
        location device stream)).data.stream = stream from hstream]
      exact hp.imp fun _ => trivial

theorem performs_copied (hs : s.Sound) {c : BufferCommand} (hfree : s.Free slot)
    (h : s.resourceAt place = .ok r) (location : Location) (device : Nat)
    (hrun : c.run s = keepBuffer slot (onMachine (r.data.copyTo location device)) s)
    (hf : s.foreseen c = .buffer s slot
      (r.data.copied s.machine.outlook.memory.next location device)
      (r.data.copyEffects s.machine.outlook.memory.next location device))
    (hpatient : c.Patient s → r.data.byteSize ≠ 0 →
      s.machine.platform.defers (.between location r.data.location) = false →
      s.machine.Steady r.data.data r.data.byteSize) : s.Performs c := by
  rcases Buffer.copyTo_cases hs.keeps (hs.readable_at h) location device with
    ⟨e, he, -, ha⟩ | ⟨m, ha, hp⟩
  · refine performs_refuse hs he ?_
    rw [hrun]
    exact keepBuffer_of_error (onMachine_of_error ha)
  · rw [← Machine.next_outlook] at ha hp
    refine .inr ⟨_, _, perform_of_ok (hrun.trans (keepBuffer_of_ok (onMachine_of_ok ha))),
      fun _ => by rw [hf]; rfl, ?_⟩
    rw [hf]
    refine .add hs hfree rfl (Buffer.fresh_proper ..) rfl (hs.spares_below ?_) (hp.imp hpatient)
    rw [← Machine.next_outlook]
    exact Buffer.keepsBelow_copyEffects _ _ _ _

theorem performs_copyTo (hs : s.Sound) (hfree : s.Free slot) (src : Place) (location : Location)
    (device : Nat) : s.Performs (.copyTo slot src location device) := by
  cases h : s.resourceAt src with
  | error e =>
    refine performs_fail hs (keepBuffer_of_error (Action.bind_of_error (bufferAt_of_error h))) ?_
    exact foreseeWith_of_error h _
  | ok r =>
    refine performs_copied hs hfree h location device
      (keepBuffer_congr (Action.bind_of_ok (bufferAt_of_ok h))) ?_ fun hp => hp r h
    exact foreseeWith_of_ok h _

theorem performs_clone (hs : s.Sound) (hfree : s.Free slot) (src : Place) :
    s.Performs (.clone slot src) := by
  cases h : s.resourceAt src with
  | error e =>
    refine performs_fail hs (keepBuffer_of_error (Action.bind_of_error (bufferAt_of_error h))) ?_
    exact foreseeWith_of_error h _
  | ok r =>
    refine performs_copied hs hfree h r.data.location r.data.device
      (keepBuffer_congr (Action.bind_of_ok (bufferAt_of_ok h))) ?_ fun hp => hp r h
    exact foreseeWith_of_ok h _

theorem performs_allocateTensor (hs : s.Sound) (hfree : s.Free slot) (dtype : ElementType)
    (shape : Shape) (location : Location) (device : Nat) (stream : Stream) :
    s.Performs (.allocateTensor slot dtype shape location device stream) := by
  rcases Tensor.allocate_cases hs.keeps dtype shape location device stream with
    ⟨hshape, hrun⟩ | ⟨e, he, hrun⟩ | ⟨t, m, hrun, rfl, hbuffer, hp⟩
  · refine performs_fail hs (Action.bind_of_error (onMachine_of_error hrun)) ?_
    simp only [foreseen, foresee]
    split
    · rfl
    · next count hcount => rw [hshape] at hcount; cases hcount
  · exact performs_refuse hs he (Action.bind_of_error (onMachine_of_error hrun))
  · have hf : s.foreseen (.allocateTensor slot dtype t.shape location device stream) =
        .tensor s slot t (Effect.allocs (t.buffer.size * dtype.width)) := by
      simp only [foreseen, foresee]
      split
      · next hnone => rw [t.holds] at hnone; cases hnone
      · next n hn =>
        obtain rfl : t.buffer.size = n := Option.some.inj (t.holds.symm.trans hn)
        rw [← Machine.next_outlook] at hbuffer
        congr 1
        exact Tensor.mk.injEq .. |>.mpr ⟨rfl, hbuffer.symm⟩
    refine .inr ⟨.ok (.tensor t), _, perform_of_ok (Action.bind_of_ok (onMachine_of_ok hrun)),
      fun _ => by rw [hf]; rfl, ?_⟩
    rw [hf]
    refine .add hs hfree (r := .tensor t) rfl ?_ rfl
      (hs.spares_below (Effect.sparesBelow_allocs _).keepsBelow) ?_
    · show t.buffer.Proper
      rw [hbuffer]
      exact Buffer.fresh_proper ..
    · exact (hp (.bound t.buffer.stream)).imp fun _ => trivial

/-! ## Buffers out of their slots -/

/-- The storage of a slot and all other storage. -/
theorem holdings_emptied (hs : s.Sound) (h : s.held slot = .ok r) :
    s.holdings.Perm (r.holdings ++ (emptied s slot).holdings) := by
  have hsites := (sites_emptied hs h).flatMap_right fun p => p.2.holdings
  rw [List.flatMap_cons] at hsites
  unfold holdings
  rw [← List.append_assoc]
  exact hsites.append_right _

theorem mem_sites_of_held (hs : s.Sound) (h : s.held slot = .ok r) :
    (.slot slot, r) ∈ s.sites := (sites_emptied hs h).mem_iff.mpr List.mem_cons_self

theorem performs_release (hs : s.Sound)
    (hdrop : ∀ r, s.held slot = .ok r → s.DropsSafely r) : s.Performs (.release slot) := by
  cases h : s.held slot with
  | error e =>
    refine performs_fail hs (Action.bind_of_error (take_of_error h)) ?_
    exact foreseeWith_of_error h _
  | ok r =>
    have hkeeps : s.machine.Keeps (r.data.holdings (.bound r.data.stream) ++
        (emptied s slot).holdings) := hs.keeps.perm (holdings_emptied hs h)
    have hp := Buffer.release_progress hkeeps (hdrop r h)
    have hf : s.foreseen (.release slot) =
        .answer (emptied s slot) .done (Effect.frees r.holdings) := by
      exact foreseeWith_of_ok h _
    refine .inr ⟨.ok .done, { emptied s slot with machine := r.data.release s.machine },
      perform_of_ok ?_, fun _ => by rw [hf]; rfl, ?_⟩
    · exact (Action.bind_of_ok (take_of_ok h)).trans rfl
    · rw [hf]
      exact .remove hs h rfl (hs.spares_frees (mem_sites_of_held hs h))
        (hp.imp fun _ => trivial)

theorem performs_moveTo (hs : s.Sound) (location : Location)
    (hc : (moveTo slot src location).Permitted s)
    (hin : (moveTo slot src location).SparesInputs s) :
    s.Performs (.moveTo slot src location) := by
  obtain ⟨hfree, hsrc⟩ := hc
  cases h : s.held src with
  | error e =>
    refine performs_fail hs (keepBuffer_of_error (Action.bind_of_error (take_of_error h))) ?_
    exact foreseeWith_of_error h _
  | ok r =>
    have hi := hin r h
    have hdrop := hsrc r h
    have hkeeps : s.machine.Keeps (r.data.holdings (.bound r.data.stream) ++
        (emptied s src).holdings) := hs.keeps.perm (holdings_emptied hs h)
    have hproper := hs.owned _ (mem_sites_of_held hs h) hi
    have hf : s.foreseen (.moveTo slot src location) =
        if r.data.location = location then .buffer (emptied s src) slot r.data []
        else .buffer (emptied s src) slot
          (r.data.copied s.machine.outlook.memory.next location r.data.device)
          (r.data.copyEffects s.machine.outlook.memory.next location r.data.device ++
            Effect.frees r.holdings) := by
      exact foreseeWith_of_ok h _
    have hrun : run (.moveTo slot src location) s =
        keepBuffer slot (onMachine (r.data.moveTo location)) (emptied s src) := by
      show EStateM.bind (EStateM.bind (take src) _) _ s = _
      unfold EStateM.bind
      rw [take_of_ok h]
      rfl
    rcases Buffer.moveTo_cases hkeeps hproper location with
      ⟨hl, hm⟩ | ⟨hl, e, he, hm⟩ | ⟨hl, m, hm, hp⟩
    · rw [if_pos hl] at hf
      refine .inr ⟨_, _, perform_of_ok (hrun.trans (keepBuffer_of_ok
        (onMachine_of_ok (s := emptied s src) hm))), fun _ => by rw [hf]; rfl, ?_⟩
      rw [hf]
      exact .replace hs h hfree (.buffer r.data) rfl hproper rfl (spares_nil s)
        ((Machine.Progress.refl hkeeps).imp fun _ => trivial)
    · have hp := Buffer.release_progress hkeeps (hdrop e _ hm)
      obtain ⟨hsound, hdone⟩ := hs.remove h hp
      refine .inl ⟨e, _, Effect.frees r.holdings, he, perform_of_error (hrun.trans
        (keepBuffer_of_error (onMachine_of_error (s := emptied s src) hm))), ?_⟩
      exact {
        progress := hdone
        spares := hs.spares_frees (mem_sites_of_held hs h)
        sound := hsound
        alike := ⟨rfl, rfl, rfl, rfl⟩
        slots := fun p hp => (List.mem_filter.mp hp).1
        leaves := fun p hp t ht e he heq => by
          obtain ⟨u, hu, rfl⟩ := List.mem_map.mp he
          exact hs.block_ne (sites_emptied hs h) hp hu ht heq }
    · rw [if_neg hl] at hf
      rw [← Machine.next_outlook] at hm hp
      refine .inr ⟨_, _, perform_of_ok (hrun.trans (keepBuffer_of_ok
        (onMachine_of_ok (s := emptied s src) hm))), fun _ => by rw [hf]; rfl, ?_⟩
      rw [hf]
      refine .replace hs h hfree (.buffer (r.data.copied s.machine.outlook.memory.next
        location r.data.device)) rfl (Buffer.fresh_proper ..) rfl
        (.append (hs.spares_below ?_) (hs.spares_frees (mem_sites_of_held hs h)))
        (hp.imp fun _ => trivial)
      rw [← Machine.next_outlook]
      exact Buffer.keepsBelow_copyEffects _ _ _ _

theorem performs_toTensor (hs : s.Sound) (shape : Shape)
    (hc : (toTensor slot src shape).Permitted s) (hin : (toTensor slot src shape).SparesInputs s) :
    s.Performs (.toTensor slot src shape) := by
  obtain ⟨hfree, hsrc⟩ := hc
  cases h : s.held src with
  | error e =>
    refine performs_fail hs (Action.bind_of_error (Action.bind_of_error (take_of_error h))) ?_
    exact foreseeWith_of_error h _
  | ok r =>
    have hi := hin r h
    have hdrop := hsrc r h
    have hkeeps : s.machine.Keeps (r.data.holdings (.bound r.data.stream) ++
        (emptied s src).holdings) := hs.keeps.perm (holdings_emptied hs h)
    have hproper := hs.owned _ (mem_sites_of_held hs h) hi
    have hrun : run (.toTensor slot src shape) s =
        keepTensor slot (onMachine (Tensor.adopt shape r.data)) (emptied s src) := by
      show EStateM.bind (EStateM.bind (take src) _) _ s = _
      unfold EStateM.bind
      rw [take_of_ok h]
      rfl
    cases ht : Tensor.ofBuffer shape r.data with
    | error e =>
      have hf : s.foreseen (.toTensor slot src shape) =
          ⟨.error e, emptied s src, Effect.frees r.holdings⟩ :=
        (foreseeWith_of_ok h _).trans (by rw [ht])
      have hadopt : Tensor.adopt shape r.data s.machine =
          .error e (r.data.release s.machine) := by
        unfold Tensor.adopt Action.orElseTidy
        rw [ht]
        rfl
      have hp := Buffer.release_progress hkeeps (hdrop e ht)
      refine .inr ⟨.error e, _, perform_of_error (hrun.trans (Action.bind_of_error
        (onMachine_of_error (s := emptied s src) hadopt))), fun _ => by rw [hf], ?_⟩
      rw [hf]
      exact .remove hs h rfl (hs.spares_frees (mem_sites_of_held hs h)) (hp.imp fun _ => trivial)
    | ok t =>
      have hf : s.foreseen (.toTensor slot src shape) = .tensor (emptied s src) slot t [] :=
        (foreseeWith_of_ok h _).trans (by rw [ht])
      have hbuffer := Tensor.buffer_of_ofBuffer ht
      have hadopt : Tensor.adopt shape r.data s.machine = .ok t s.machine := by
        unfold Tensor.adopt Action.orElseTidy
        rw [ht]
        rfl
      refine .inr ⟨.ok (.tensor t), _, perform_of_ok (hrun.trans (Action.bind_of_ok
        (onMachine_of_ok (s := emptied s src) hadopt))), fun _ => by rw [hf]; rfl, ?_⟩
      rw [hf]
      have hold : (Resource.tensor t).holdings = r.holdings := by
        unfold Resource.holdings
        rw [show (Resource.tensor t).data = r.data from hbuffer]
      refine .replace hs h hfree (.tensor t) rfl ?_ rfl (spares_nil s) ?_
      · rw [show (Resource.tensor t).data = r.data from hbuffer]
        exact hproper
      · rw [hold]
        exact (Machine.Progress.refl hkeeps).imp fun _ => trivial

theorem performs_toBuffer (hs : s.Sound) (hfree : (toBuffer slot src).Permitted s)
    (hin : (toBuffer slot src).SparesInputs s) : s.Performs (.toBuffer slot src) := by
  cases h : s.held src with
  | error e =>
    refine performs_fail hs (keepBuffer_of_error (Action.bind_of_error (take_of_error h))) ?_
    exact foreseeWith_of_error h _
  | ok r =>
    have hkeeps : s.machine.Keeps (r.data.holdings (.bound r.data.stream) ++
        (emptied s src).holdings) := hs.keeps.perm (holdings_emptied hs h)
    have hf : s.foreseen (.toBuffer slot src) = .buffer (emptied s src) slot r.data [] := by
      exact foreseeWith_of_ok h _
    have hrun : run (.toBuffer slot src) s = .ok (.buffer r.data) { emptied s src with
        slots := (emptied s src).slots.put slot (.buffer r.data) } :=
      keepBuffer_of_ok (Action.bind_of_ok (take_of_ok h))
    refine .inr ⟨_, _, perform_of_ok hrun, fun _ => by rw [hf]; rfl, ?_⟩
    rw [hf]
    exact .replace hs h hfree (.buffer r.data) rfl
      (hs.owned _ (mem_sites_of_held hs h) (hin r h)) rfl (spares_nil s)
      ((Machine.Progress.refl hkeeps).imp fun _ => trivial)

/-! ## Looking at buffers -/

theorem performs_describe (hs : s.Sound) (place : Place) : s.Performs (.describe place) := by
  cases h : s.resourceAt place with
  | error e =>
    refine performs_fail hs (Action.bind_of_error (consult_of_error h)) ?_
    exact foreseeWith_of_error h _
  | ok r =>
    have hf : s.foreseen (.describe place) = .answer s (.ofResource r) [] := by
      exact foreseeWith_of_ok h _
    refine .inr ⟨_, _, perform_of_ok (Action.bind_of_ok (consult_of_ok h)),
      fun _ => by rw [hf]; rfl, ?_⟩
    exact .of_nothing hs (by rw [hf]; rfl) (by rw [hf]; rfl)

theorem performs_text (hs : s.Sound) (place : Place) : s.Performs (.text place) := by
  cases h : s.resourceAt place with
  | error e =>
    refine performs_fail hs (Action.bind_of_error (consult_of_error h)) ?_
    exact foreseeWith_of_error h _
  | ok r =>
    have hf : s.foreseen (.text place) =
        .answer s (.text (r.text s.machine.platform.name)) [] := by
      exact foreseeWith_of_ok h _
    refine .inr ⟨_, _, perform_of_ok (Action.bind_of_ok (consult_of_ok h)),
      fun _ => by rw [hf]; rfl, ?_⟩
    exact .of_nothing hs (by rw [hf]; rfl) (by rw [hf]; rfl)

theorem performs_sameData (hs : s.Sound) (p q : Place) : s.Performs (.sameData p q) := by
  cases h : s.resourceAt p with
  | error e =>
    refine performs_fail hs (Action.bind_of_error (bufferAt_of_error h)) ?_
    exact foreseeWith_of_error h _
  | ok r =>
    cases h' : s.resourceAt q with
    | error e =>
      refine performs_fail hs (e := e) ?_ ?_
      · exact (Action.bind_of_ok (bufferAt_of_ok h)).trans
          (Action.bind_of_error (bufferAt_of_error h'))
      · exact (foreseeWith_of_ok h _).trans (foreseeWith_of_error h' _)
    | ok r' =>
      have hf : s.foreseen (.sameData p q) =
          .answer s (.flag (r.data.data == r'.data.data)) [] := by
        exact (foreseeWith_of_ok h _).trans (foreseeWith_of_ok h' _)
      refine .inr ⟨_, s, perform_of_ok ((Action.bind_of_ok (bufferAt_of_ok h)).trans
        (Action.bind_of_ok (bufferAt_of_ok h'))), fun _ => by rw [hf]; rfl, ?_⟩
      exact .of_nothing hs (by rw [hf]; rfl) (by rw [hf]; rfl)

theorem performs_peek (hs : s.Sound) (place : Place) : s.Performs (.peek place) := by
  cases h : s.resourceAt place with
  | error e =>
    refine performs_fail hs (Action.bind_of_error (bufferAt_of_error h)) ?_
    exact foreseeWith_of_error h _
  | ok r =>
    cases hl : r.data.location with
    | device =>
      have hpeek : r.data.peek s.machine = .error (.notHostAccessible .device) s.machine := by
        unfold Buffer.peek Buffer.ensureHost
        rw [hl]
        rfl
      refine performs_fail hs (e := .notHostAccessible .device) ?_ ?_
      · exact (Action.bind_of_ok (bufferAt_of_ok h)).trans
          (Action.bind_of_error (onMachine_of_error hpeek))
      · exact (foreseeWith_of_ok h _).trans
          (foreseeWith_of_error (Buffer.ensureHost_of_device hl) _)
    | host =>
      have hpeek : r.data.peek s.machine = .ok (r.data.contents s.machine) s.machine := by
        unfold Buffer.peek Buffer.ensureHost
        rw [hl]
        rfl
      have hf : s.foreseen (.peek place) = .answer s (.elements r.data.dtype
          (r.data.dtype.decode (r.data.outlookBytes s.machine.outlook))) [] := by
        exact (foreseeWith_of_ok h _).trans
          (foreseeWith_of_ok (Buffer.ensureHost_of_host hl) _)
      refine .inr ⟨.ok (.elements r.data.dtype (r.data.contents s.machine)), s,
        perform_of_ok ?_, fun hcur => ?_, .of_nothing hs (by rw [hf]; rfl) (by rw [hf]; rfl)⟩
      · exact (Action.bind_of_ok (bufferAt_of_ok h)).trans
          (Action.bind_of_ok (onMachine_of_ok hpeek))
      · rw [hf, Buffer.contents,
          (hs.readable_at h).bytes_of_unwritten hs.keeps (hcur r h hl)]
        rfl

/-- What is fetched is decoded. -/
theorem perform_toList (h : s.resourceAt place = .ok r) {bytes : List UInt8}
    (ha : r.data.fetchBytes s.machine = .ok bytes m) :
    s.perform (.buffer (.toList place)) =
      (.ok (.elements r.data.dtype (r.data.dtype.decode bytes)), { s with machine := m }) := by
  have hlist : r.data.toList s.machine = .ok (r.data.dtype.decode bytes) m := Action.bind_of_ok ha
  exact perform_of_ok ((Action.bind_of_ok (bufferAt_of_ok h)).trans
    (Action.bind_of_ok (onMachine_of_ok hlist)))

theorem performs_toList (hs : s.Sound) (place : Place) : s.Performs (.toList place) := by
  cases h : s.resourceAt place with
  | error e =>
    refine performs_fail hs (Action.bind_of_error (bufferAt_of_error h)) ?_
    exact foreseeWith_of_error h _
  | ok r =>
    rcases Buffer.fetchBytes_cases hs.keeps (hs.readable_at h) with ⟨e, he, -, ha⟩ | ⟨m, ha, hp⟩
    · refine performs_refuse hs he ((Action.bind_of_ok (bufferAt_of_ok h)).trans
        (Action.bind_of_error (onMachine_of_error ?_)))
      exact Action.bind_of_error ha
    · rw [← Machine.next_outlook] at hp
      have hf : s.foreseen (.toList place) = .answer s (.elements r.data.dtype
          (r.data.dtype.decode (r.data.outlookBytes s.machine.outlook)))
          (r.data.fetchEffects s.machine.outlook.memory.next) := by
        exact foreseeWith_of_ok h _
      refine .inr ⟨_, { s with machine := m }, perform_toList h ha, fun _ => by rw [hf]; rfl, ?_⟩
      rw [hf]
      refine .answer hs (hs.spares_below ?_) (hp.imp fun _ => trivial)
      rw [← Machine.next_outlook]
      exact Buffer.keepsBelow_fetchEffects _ _

/-! ## Changing buffers -/

/-- A change of the elements of a buffer changes no storage that only the library writes. -/
theorem spares_pokeEffects (hs : s.Sound) (h : s.resourceAt place = .ok r)
    (hi : r.isInput = false) (index : Nat) (xs : List r.data.dtype.Value) :
    s.Spares (r.data.pokeEffects index xs) := by
  intro t ht hf e he heq
  obtain ⟨hn, rfl⟩ := Buffer.mem_pokeEffects he
  exact hs.data_ne_fixed (mem_sites hs h) hi hn ht hf heq

/-- The holdings of a place beside those of the rest. -/
theorem keeps_split {rest : List (Place × Resource)}
    (hperm : s.sites.Perm ((place, r) :: rest)) :
    s.holdings.Perm (r.data.holdings (.bound r.data.stream) ++
      (rest.flatMap (fun p => p.2.holdings) ++ s.stock)) := by
  unfold holdings
  rw [← List.append_assoc]
  have hflat := hperm.flatMap_right fun p => p.2.holdings
  rw [List.flatMap_cons] at hflat
  exact hflat.append_right _

theorem performs_poke (hs : s.Sound) (place : Place) (index : Nat) (xs : List Int)
    (hc : ∀ r, s.resourceAt place = .ok r → r.isInput = false) :
    s.Performs (.poke place index xs) := by
  cases h : s.resourceAt place with
  | error e =>
    refine performs_fail hs (Action.bind_of_error (bufferAt_of_error h)) ?_
    exact foreseeWith_of_error h _
  | ok r =>
    obtain ⟨rest, hperm, -⟩ := site_split hs.keys h
    have hsplit := keeps_split hperm
    have hproper := hs.owned _ (mem_sites hs h) (hc r h)
    rcases Buffer.poke_cases (hs.keeps.perm hsplit) hproper index (xs.map r.data.dtype.ofInt) with
      ⟨hl, ha⟩ | ⟨hl, m, ha, hp⟩
    · refine performs_fail hs (e := .notHostAccessible .device) ?_ ?_
      · exact (Action.bind_of_ok (bufferAt_of_ok h)).trans
          (Action.bind_of_error (onMachine_of_error ha))
      · exact (foreseeWith_of_ok h _).trans
          (foreseeWith_of_error (Buffer.ensureHost_of_device hl) _)
    · have hf : s.foreseen (.poke place index xs) = .answer s .done
          (r.data.pokeEffects index (xs.map r.data.dtype.ofInt)) := by
        exact (foreseeWith_of_ok h _).trans
          (foreseeWith_of_ok (Buffer.ensureHost_of_host hl) _)
      refine .inr ⟨_, { s with machine := m }, perform_of_ok ((Action.bind_of_ok
        (bufferAt_of_ok h)).trans (Action.bind_of_ok (onMachine_of_ok ha))),
        fun _ => by rw [hf]; rfl, ?_⟩
      rw [hf]
      exact .answer hs (spares_pokeEffects hs h (hc r h) index _)
        (((hp.perm_left hsplit).perm hsplit.symm).imp fun hpat hfit hne =>
          hpat r h hl (by simpa using hfit) (by simpa using hne))

theorem performs_rebind (hs : s.Sound) (place : Place) (stream : Stream)
    (hc : ∀ r, s.resourceAt place = .ok r → r.isInput = false) :
    s.Performs (.rebind place stream) := by
  cases h : s.resourceAt place with
  | error e =>
    refine performs_fail hs (Action.bind_of_error (bufferAt_of_error h)) ?_
    exact foreseeWith_of_error h _
  | ok r =>
    have hf : s.foreseen (.rebind place stream) =
        .answer (bindAt place stream s) (.stream stream) [.wait] := by
      exact foreseeWith_of_ok h _
    refine .inr ⟨.ok (.stream stream), { bindAt place stream s with
      machine := (r.data.rebind stream s.machine).2 }, perform_of_ok ?_, fun _ => by rw [hf]; rfl,
      ?_⟩
    · rw [← bindAt_withMachine]
      exact (Action.bind_of_ok (bufferAt_of_ok h)).trans rfl
    · rw [hf]
      refine .bind hs h (hc r h) rfl ?_ fun rest hperm => ?_
      · exact hs.spares_below Effect.keepsBelow_wait
      · have hdata : (r.withStream stream).holdings = r.data.holdings (.bound stream) := by
          cases r <;> rfl
        rw [hdata]
        exact (Buffer.rebind_progress (hs.keeps.perm (keeps_split hperm)) stream).imp
          fun _ => trivial

/-! ## Copying between places -/

/-- A copy between places once the buffers were found there. -/
theorem run_copy {dst src : Place} {r r' : Resource} (h : s.resourceAt dst = .ok r)
    (h' : s.resourceAt src = .ok r') (dstOffset : Nat) (range : Option (Nat × Nat)) :
    run (.copy dst src dstOffset range) s =
      (((r'.data.copyRange dstOffset (range.getD (0, r'.data.size)).1
        (range.getD (0, r'.data.size)).2).within (fun s => (s.machine, r.data))
        fun p s => bindAt dst p.2.stream { s with machine := p.1 }) >>= fun _ => do
          return .stream (← bufferAt dst).stream) s :=
  (Action.bind_of_ok (bufferAt_of_ok h)).trans (Action.bind_of_ok (bufferAt_of_ok h'))

/-- The place is bound to the stream and the answer is that stream. -/
theorem run_copy_of_ok {dst src : Place} {r r' : Resource} (h : s.resourceAt dst = .ok r)
    (h' : s.resourceAt src = .ok r') {dstOffset : Nat} {range : Option (Nat × Nat)}
    {stream : Stream} (ha : r'.data.copyRange dstOffset (range.getD (0, r'.data.size)).1
      (range.getD (0, r'.data.size)).2 (s.machine, r.data) = .ok () (m, { r.data with stream })) :
    run (.copy dst src dstOffset range) s =
      .ok (.stream stream) { bindAt dst stream s with machine := m } := by
  have hat : ({ bindAt dst stream s with machine := m } : Session).resourceAt dst =
      .ok (r.withStream stream) := by
    rw [resourceAt_withMachine]
    exact resourceAt_bindAt h stream
  have hreply : (r.withStream stream).data.stream = stream := by cases r <;> rfl
  refine (run_copy h h' dstOffset range).trans ((Action.bind_of_ok (Action.within_of_ok
    (g := fun s : Session => (s.machine, r.data)) ha)).trans ?_)
  rw [bindAt_withMachine]
  refine (Action.bind_of_ok (bufferAt_of_ok hat)).trans ?_
  rw [hreply]
  rfl

/-- Copying into a buffer that is no input leaves alone what lies still. -/
theorem Sound.spares_copyInto (hs : s.Sound) {dst : Place} {r : Resource} {y : Buffer}
    {dstOffset i j : Nat} (h : s.resourceAt dst = .ok r) (hi : r.isInput = false)
    (hin : Buffer.inRange r.data y dstOffset i j = true) :
    s.Spares ((if r.data.stream = y.stream then [] else [.wait]) ++
      Effect.copies (Buffer.rangeCopy r.data y dstOffset i j)) := by
  refine .append ?_ fun t ht hfix e he heq => ?_
  · split
    · exact spares_nil s
    · exact hs.spares_below Effect.keepsBelow_wait
  · obtain ⟨hn, rfl⟩ := Effect.mem_copies.mp he
    obtain ⟨hsize, -⟩ := Buffer.byteSize_ne_zero_of_inRange hin hn
    exact hs.data_ne_fixed (mem_sites hs h) hi hsize ht hfix heq

theorem performs_copy (hs : s.Sound) (dst src : Place) (dstOffset : Nat)
    (range : Option (Nat × Nat)) (hc : (copy dst src dstOffset range).Permitted s)
    (hin : (copy dst src dstOffset range).SparesInputs s) :
    s.Performs (.copy dst src dstOffset range) := by
  obtain ⟨hne, hty⟩ := hc
  cases h : s.resourceAt dst with
  | error e =>
    refine performs_fail hs (Action.bind_of_error (bufferAt_of_error h)) ?_
    exact foreseeWith_of_error h _
  | ok r =>
    cases h' : s.resourceAt src with
    | error e =>
      refine performs_fail hs (e := e) ?_ ?_
      · exact (Action.bind_of_ok (bufferAt_of_ok h)).trans
          (Action.bind_of_error (bufferAt_of_error h'))
      · exact (foreseeWith_of_ok h _).trans (foreseeWith_of_error h' _)
    | ok r' =>
      have hi := hin r h
      have hdtype := hty r r' h h'
      obtain ⟨rest, hperm, -⟩ := site_split hs.keys h
      have hproper := hs.owned _ (mem_sites hs h) hi
      -- The places differ, so the source is left alone when the destination is bound to its stream.
      have hsrc : (src, r') ∈ rest := by
        rcases List.mem_cons.mp (hperm.mem_iff.mp (mem_sites hs h')) with heq | hmem
        · cases heq
          exact absurd rfl hne
        · exact hmem
      have hread := hs.readable (mem_sites hs h') hsrc
      have hf : s.foreseen (.copy dst src dstOffset range) =
          foreseeCopy s dst r.data r'.data dstOffset (range.getD (0, r'.data.size)) :=
        (foreseeWith_of_ok h _).trans (foreseeWith_of_ok h' _)
      have hsplit := keeps_split hperm
      rcases Buffer.copyRange_cases (hs.keeps.perm hsplit) hproper hread hdtype dstOffset
        (range.getD (0, r'.data.size)).1 (range.getD (0, r'.data.size)).2 with
        ⟨hin, ha⟩ | ⟨hin, m, ha, hp⟩
      · have hsame : (r.withStream r.data.stream).holdings = r.holdings := by cases r <;> rfl
        have hf' : s.foreseen (.copy dst src dstOffset range) =
            ⟨.error (.range dstOffset (range.getD (0, r'.data.size)).1
              (range.getD (0, r'.data.size)).2 r'.data.size r.data.size),
              bindAt dst r.data.stream s, []⟩ := by
          rw [hf, foreseeCopy, hin, if_neg (by simp)]
        refine .inr ⟨.error _, { bindAt dst r.data.stream s with machine := s.machine },
          perform_of_error ?_, fun _ => by rw [hf'], ?_⟩
        · rw [← bindAt_withMachine]
          exact (run_copy h h' dstOffset range).trans (Action.bind_of_error
            (Action.within_of_error (g := fun s : Session => (s.machine, r.data)) ha))
        rw [hf']
        refine .bind hs h hi rfl (spares_nil s) fun rest' hperm' => ?_
        rw [hsame]
        exact (Machine.Progress.refl (hs.keeps.perm (keeps_split hperm'))).imp fun _ => trivial
      · have hf' : s.foreseen (.copy dst src dstOffset range) =
            ⟨.ok (.stream r'.data.stream), bindAt dst r'.data.stream s,
              (if r.data.stream = r'.data.stream then [] else [.wait]) ++
                Effect.copies (Buffer.rangeCopy r.data r'.data dstOffset
                  (range.getD (0, r'.data.size)).1 (range.getD (0, r'.data.size)).2)⟩ := by
          rw [hf, foreseeCopy, hin, if_pos rfl]
        refine .inr ⟨.ok (.stream r'.data.stream),
          { bindAt dst r'.data.stream s with machine := m },
          perform_of_ok (run_copy_of_ok h h' ha), fun _ => by rw [hf'], ?_⟩
        rw [hf']
        refine .bind hs h hi rfl ?_ fun rest' hperm' => ?_
        · exact hs.spares_copyInto h hi hin
        · have hhold : (r.withStream r'.data.stream).holdings =
              r.data.holdings (.bound r'.data.stream) := by cases r <;> rfl
          have hrest := (List.perm_cons _).mp (hperm.symm.trans hperm')
          have hflat : (rest.flatMap (fun p => p.2.holdings) ++ s.stock).Perm
              (rest'.flatMap (fun p => p.2.holdings) ++ s.stock) :=
            (hrest.flatMap_right _).append_right _
          rw [hhold]
          exact ((hp.perm (hflat.append_left _)).perm_left (hflat.symm.append_left _)).imp
            fun hpat => hpat r r' h h' hin

/-! ## All commands -/

/-- A permitted command on a sound session does what was foreseen, or there is no storage for it.
In either case the session is sound again. -/
theorem Sound.performs (hs : s.Sound) {c : BufferCommand} (hc : c.Permitted s)
    (hin : c.SparesInputs s) : s.Performs c := by
  cases c with
  | allocate slot dtype size location device stream =>
    exact performs_allocate hs hc dtype size location device stream
  | ofList slot dtype xs location device stream =>
    exact performs_ofList hs hc dtype xs location device stream
  | copyTo slot src location device => exact performs_copyTo hs hc src location device
  | clone slot src => exact performs_clone hs hc src
  | moveTo slot src location => exact performs_moveTo hs location hc hin
  | borrow slot src offset size location device stream => exact hc.elim
  | release slot => exact performs_release hs hc
  | describe place => exact performs_describe hs place
  | text place => exact performs_text hs place
  | sameData p q => exact performs_sameData hs p q
  | peek place => exact performs_peek hs place
  | toList place => exact performs_toList hs place
  | poke place index xs => exact performs_poke hs place index xs hin
  | rebind place stream => exact performs_rebind hs place stream hin
  | copy dst src dstOffset range => exact performs_copy hs dst src dstOffset range hc hin
  | allocateTensor slot dtype shape location device stream =>
    exact performs_allocateTensor hs hc dtype shape location device stream
  | toTensor slot src shape => exact performs_toTensor hs shape hc hin
  | toBuffer slot src => exact performs_toBuffer hs hc hin

end DeviceBatch.Session
