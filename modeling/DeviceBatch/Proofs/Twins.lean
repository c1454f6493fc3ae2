import DeviceBatch.Proofs.Sites
import Mathlib.Data.List.Forall2

/-!
# Host work on two platforms

An action on host storage does the same on any two platforms, and asked for device storage where
neither has any it fails on both. What it answers is the same, and so is what it leaves behind
(`Machine.Twin`), apart from the name of the platform in errors and events.

`Action.Agrees` says so of an action, and is proved along its parts.
-/

namespace DeviceBatch

/-! ## Up to the name of the platform -/

/-- The same error, or device memory refused in the name of either platform. -/
inductive Error.Alike (p q : Platform) : Error → Error → Prop where
  | same (e : Error) : Alike p q e e
  | noDeviceSupport (bytes device : Nat) : Alike p q
    (.allocation bytes .device device (.noDeviceSupport p.name))
    (.allocation bytes .device device (.noDeviceSupport q.name))

/-- The same event, apart from the name of the platform. -/
inductive Event.Alike (p q : Platform) : Event → Event → Prop where
  | same (e : Event) : Alike p q e e
  | openedBatch : Alike p q (.openedBatch p.name) (.openedBatch q.name)
  | errorMessage {e e' : Error} (h : e.Alike p q e') :
    Alike p q (.spanRecord (.errorMessage e)) (.spanRecord (.errorMessage e'))
  | finalizeFailed {e e' : Error} (h : e.Alike p q e') :
    Alike p q (.finalizeFailed e) (.finalizeFailed e')

/-- Storage in that place is host storage, or neither platform has any. -/
def Platform.SameFor (p q : Platform) (location : Location) : Prop :=
  location = .host ∨ p.hasDeviceMemory = false ∧ q.hasDeviceMemory = false

/-! ## Actions that agree -/

namespace Action

variable {σ τ α β : Type} {p q : Platform}

/-- Two runs ended the same way: with the same answer, of which `P` holds, or with errors that are
alike; and in states of which `R` holds. -/
inductive Ends (p q : Platform) (R : σ → σ → Prop) (P : α → Prop) :
    EStateM.Result Error σ α → EStateM.Result Error σ α → Prop where
  | ok {a : α} {s t : σ} (ha : P a) (h : R s t) : Ends p q R P (.ok a s) (.ok a t)
  | error {e e' : Error} {s t : σ} (he : e.Alike p q e') (h : R s t) :
    Ends p q R P (.error e s) (.error e' t)

/-- The action ends the same way from two states. -/
def Agrees (act : Action σ α) (p q : Platform) (R : σ → σ → Prop) (s t : σ) (P : α → Prop) :
    Prop := Ends p q R P (act s) (act t)

namespace Agrees

variable {act : Action σ α} {f : α → Action σ β} {R : σ → σ → Prop} {s t : σ} {P P' : α → Prop}
  {P₂ : β → Prop}

/-- The action succeeds from both states or fails from both. -/
theorem cases (h : act.Agrees p q R s t P) :
    (∃ a s' t', act s = .ok a s' ∧ act t = .ok a t' ∧ P a ∧ R s' t') ∨
    ∃ e e' s' t', act s = .error e s' ∧ act t = .error e' t' ∧ e.Alike p q e' ∧ R s' t' := by
  unfold Agrees at h
  generalize act s = x at h ⊢
  generalize act t = y at h ⊢
  cases h with
  | ok ha h => exact .inl ⟨_, _, _, rfl, rfl, ha, h⟩
  | error he h => exact .inr ⟨_, _, _, _, rfl, rfl, he, h⟩

theorem of_ok {a : α} {s' t' : σ} (hs : act s = .ok a s') (ht : act t = .ok a t') (ha : P a)
    (h : R s' t') : act.Agrees p q R s t P := by
  unfold Agrees
  rw [hs, ht]
  exact .ok ha h

theorem of_error {e e' : Error} {s' t' : σ} (hs : act s = .error e s') (ht : act t = .error e' t')
    (he : e.Alike p q e') (h : R s' t') : act.Agrees p q R s t P := by
  unfold Agrees
  rw [hs, ht]
  exact .error he h

theorem mono (h : act.Agrees p q R s t P) (hP : ∀ a, P a → P' a) : act.Agrees p q R s t P' := by
  rcases h.cases with ⟨a, s', t', hs, ht, ha, h'⟩ | ⟨e, e', s', t', hs, ht, he, h'⟩
  · exact .of_ok hs ht (hP a ha) h'
  · exact .of_error hs ht he h'

theorem bind (h : act.Agrees p q R s t P)
    (hf : ∀ a s' t', P a → R s' t' → (f a).Agrees p q R s' t' P₂) :
    Agrees (act >>= f) p q R s t P₂ := by
  rcases h.cases with ⟨a, s', t', hs, ht, ha, h'⟩ | ⟨e, e', s', t', hs, ht, he, h'⟩
  · unfold Agrees
    rw [bind_of_ok hs, bind_of_ok ht]
    exact hf a s' t' ha h'
  · exact .of_error (bind_of_error hs) (bind_of_error ht) he h'

theorem change_bind {g : σ → σ} {f : Unit → Action σ β}
    (h : (f ()).Agrees p q R (g s) (g t) P₂) : Agrees (change g >>= f) p q R s t P₂ := h

/-- What is looked at may differ, but not what comes of it. -/
theorem get_bind {f : σ → Action σ β} (hf : f s = f t) (h : (f s).Agrees p q R s t P₂) :
    Agrees (get >>= f) p q R s t P₂ := by
  show Ends p q R P₂ (f s s) (f t t)
  rw [← hf]
  exact h

theorem pure {a : α} (ha : P a) (h : R s t) : (pure a : Action σ α).Agrees p q R s t P := .ok ha h

theorem throw (e : Error) (h : R s t) : (throw e : Action σ α).Agrees p q R s t P :=
  .error (.same e) h

theorem change {g : σ → σ} {P : Unit → Prop} (ha : P ()) (h : R (g s) (g t)) :
    (change g).Agrees p q R s t P := .ok ha h

theorem ofExcept {x : Except Error α} (ha : ∀ a, x = .ok a → P a) (h : R s t) :
    (ofExcept x).Agrees p q R s t P := by
  cases x with
  | ok a => exact .ok (ha a rfl) h
  | error e => exact .error (.same e) h

theorem ofExcept_bind {x : Except Error α} (h : R s t)
    (hok : ∀ a, x = .ok a → (f a).Agrees p q R s t P₂) :
    Agrees (Action.ofExcept x >>= f) p q R s t P₂ := by
  cases x with
  | ok a => exact hok a rfl
  | error e => exact .error (.same e) h

theorem orElseTidy {tidy : σ → σ} (h : act.Agrees p q R s t P)
    (ht : ∀ s t, R s t → R (tidy s) (tidy t)) : (act.orElseTidy tidy).Agrees p q R s t P := by
  rcases h.cases with ⟨a, s', t', hs, ht, ha, h'⟩ | ⟨e, e', s', t', hs, ht', he, h'⟩
  · exact .of_ok (orElseTidy_of_ok hs) (orElseTidy_of_ok ht) ha h'
  · exact .of_error (orElseTidy_of_error hs) (orElseTidy_of_error ht') he (ht s' t' h')

theorem within {g : σ → τ} {put : τ → σ → σ} {act : Action τ α} {Q : τ → τ → Prop}
    (h : act.Agrees p q Q (g s) (g t) P) (hput : ∀ x y, Q x y → R (put x s) (put y t)) :
    (act.within g put).Agrees p q R s t P := by
  rcases h.cases with ⟨a, x, y, hs, ht, ha, h'⟩ | ⟨e, e', x, y, hs, ht, he, h'⟩
  · exact .of_ok (within_of_ok hs) (within_of_ok ht) ha (hput x y h')
  · exact .of_error (within_of_error hs) (within_of_error ht) he (hput x y h')

end Agrees

end Action

/-! ## Machines -/

namespace Machine

/-- Nothing waits, and no device storage is in use. -/
structure Plain (p : Platform) (m : Machine) : Prop where
  platform : m.platform = p
  queues : m.queues = []
  live : m.live = []

/-- Machines on two platforms with the same storage and the same counts, on which nothing waits. -/
def Twin (p q : Platform) (m m' : Machine) : Prop :=
  m.Plain p ∧ ∃ used events, m' = { m with platform := q, used, events } ∧
    List.Forall₂ (Event.Alike p q) m.events.toList events.toList

variable {p q : Platform} {m m' : Machine} {location : Location} {device : Nat}

theorem start_twin (p q : Platform) : (start p).Twin p q (start q) :=
  ⟨⟨rfl, rfl, rfl⟩, _, _, rfl, .nil⟩

namespace Twin

theorem plain (h : m.Twin p q m') : m.Plain p := h.1

theorem plain' (h : m.Twin p q m') : m'.Plain q := by
  obtain ⟨hm, used, events, rfl, -⟩ := h
  exact ⟨rfl, hm.queues, hm.live⟩

theorem memory (h : m.Twin p q m') : m'.memory = m.memory := by
  obtain ⟨-, used, events, rfl, -⟩ := h
  rfl

/-- A change of storage and counts that does not look at the platform. -/
theorem map (f : Machine → Machine) (h : m.Twin p q m')
    (hf : ∀ used events, f { m with platform := q, used, events } =
      { f m with platform := q, used, events })
    (hsame : (f m).platform = m.platform ∧ (f m).queues = m.queues ∧ (f m).live = m.live ∧
      (f m).events = m.events) : (f m).Twin p q (f m') := by
  obtain ⟨hm, used, events, rfl, hevents⟩ := h
  obtain ⟨hplatform, hqueues, hlive, he⟩ := hsame
  exact ⟨⟨hplatform.trans hm.platform, hqueues.trans hm.queues, hlive.trans hm.live⟩, used, events,
    hf used events, he ▸ hevents⟩

theorem emit' (h : m.Twin p q m') {e e' : Event} (he : e.Alike p q e') :
    (m.emit e).Twin p q (m'.emit e') := by
  obtain ⟨hm, used, events, rfl, hevents⟩ := h
  refine ⟨⟨hm.platform, hm.queues, hm.live⟩, used, events.push e', rfl, ?_⟩
  show List.Forall₂ _ (m.events.push e).toList (events.push e').toList
  rw [Array.toList_push, Array.toList_push]
  exact List.rel_append hevents (.cons he .nil)

theorem emit (h : m.Twin p q m') (e : Event) : (m.emit e).Twin p q (m'.emit e) :=
  h.emit' (.same e)

/-- There is nothing to wait for. -/
theorem synchronize (h : m.Twin p q m') (stream : Stream) :
    (m.synchronize stream).Twin p q (m'.synchronize stream) := by
  have hidle : ∀ {m : Machine}, m.queues = [] → m.synchronize stream = m.recordSynchronization := by
    intro m hm
    unfold Machine.synchronize drain
    rw [hm]
    rfl
  rw [hidle h.plain.queues, hidle h.plain'.queues]
  exact h.map recordSynchronization (fun _ _ => rfl) ⟨rfl, rfl, rfl, rfl⟩

theorem release {a : Allocation} (h : m.Twin p q m') (ha : a.location = .host) :
    (m.release a).Twin p q (m'.release a) := by
  have hhost : ∀ m : Machine, m.release a = if a.bytes = 0 then m else m.reclaimBlock a := by
    intro m
    unfold Machine.release releaseIdle reclaim settleFor
    rw [ha]
    split <;> rfl
  rw [hhost, hhost]
  split
  · exact h
  · exact h.map (reclaimBlock · a) (fun _ _ => rfl) ⟨rfl, rfl, rfl, rfl⟩

theorem write (h : m.Twin p q m') (start : Pointer) (bytes : List UInt8) :
    ({ m with memory := m.memory.write start bytes } : Machine).Twin p q
      { m' with memory := m'.memory.write start bytes } :=
  h.map (fun m => { m with memory := m.memory.write start bytes }) (fun _ _ => rfl)
    ⟨rfl, rfl, rfl, rfl⟩

/-- A copy between host ranges is made at once. -/
theorem copy (h : m.Twin p q m') {dst src : Pointer} {bytes : Nat} (hn : bytes ≠ 0)
    (stream : Stream) :
    (Action.step (Machine.copy .hostToHost dst src bytes stream)).Agrees p q (Machine.Twin p q) m m'
      fun _ => True := by
  have hcopied : ∀ m : Machine, Machine.copy .hostToHost dst src bytes stream m =
      .ok ((m.runCopies [⟨dst, src, bytes⟩]).recordCopy .hostToHost bytes) := by
    intro m
    unfold Machine.copy
    cases m.platform with
    | host => rfl
    | simulated devices =>
      have hnow : (Platform.simulated devices).defers .hostToHost = false := Bool.and_false _
      simp only [if_neg hn, hnow]
      rfl
  exact .of_ok (Action.step_of_ok (hcopied m)) (Action.step_of_ok (hcopied m')) trivial
    (h.map (fun m => (m.runCopies [⟨dst, src, bytes⟩]).recordCopy _ bytes) (fun _ _ => rfl)
      ⟨rfl, rfl, rfl, rfl⟩)

/-- Host storage is given out on both machines or on neither. -/
theorem acquire (h : m.Twin p q m') (bytes device : Nat) :
    (∃ e, acquire bytes .host device m = .error e ∧ acquire bytes .host device m' = .error e) ∨
    ∃ a n n', acquire bytes .host device m = .ok (a, n) ∧
      acquire bytes .host device m' = .ok (a, n') ∧ a.location = .host ∧ n.Twin p q n' := by
  have hblock : ∀ m : Machine, m.allocate bytes .host device =
      (m.hostBlock bytes).map fun x => (x.1, x.2.recordAllocation .host bytes) := by
    intro m
    unfold Machine.allocate
    dsimp only
    cases m.hostBlock bytes <;> rfl
  unfold Machine.acquire
  simp only [Location.isDevice, Bool.false_and, Bool.false_eq_true, if_false, hblock]
  unfold hostBlock
  by_cases hlarge : Size.storageLimit < bytes
  · exact .inl ⟨_, if_pos hlarge, if_pos hlarge⟩
  · by_cases hz : bytes = 0
    · simp only [if_neg hlarge, if_pos hz]
      exact .inr ⟨_, m, m', rfl, rfl, rfl, h⟩
    · by_cases hlimit : hostBlockLimit ≤ bytes
      · simp only [if_neg hlarge, if_neg hz, if_pos hlimit]
        exact .inl ⟨_, rfl, rfl⟩
      · have hnext : m'.memory.next = m.memory.next := congrArg Memory.next h.memory
        simp only [if_neg hlarge, if_neg hz, if_neg hlimit, hnext]
        exact .inr ⟨_, _, _, rfl, rfl, rfl, h.map (fun m => { m with
          memory := m.memory.alloc (List.replicate bytes 0) }.recordAllocation .host bytes)
          (fun _ _ => rfl) ⟨rfl, rfl, rfl, rfl⟩⟩

theorem foldl {β : Type} {f : Machine → β → Machine} {bs : List β} (h : m.Twin p q m')
    (hf : ∀ b ∈ bs, ∀ {m m' : Machine}, m.Twin p q m' → (f m b).Twin p q (f m' b)) :
    (bs.foldl f m).Twin p q (bs.foldl f m') := by
  induction bs generalizing m m' with
  | nil => exact h
  | cons b bs ih =>
    exact ih (hf b List.mem_cons_self h) fun b hb => hf b (List.mem_cons_of_mem _ hb)

end Twin

/-- Twin machines beside the same thing, of which `I` holds. -/
def TwinBeside {τ : Type} (p q : Platform) (I : τ → Prop) (x y : Machine × τ) : Prop :=
  x.1.Twin p q y.1 ∧ x.2 = y.2 ∧ I x.2

/-- Storage is given out on the host only. -/
theorem agrees_acquire (h : m.Twin p q m') (hl : p.SameFor q location) (bytes device : Nat) :
    (Action.attempt (acquire bytes location device)).Agrees p q (Twin p q) m m'
      fun a => location = .host ∧ a.location = .host := by
  cases location with
  | host =>
    rcases h.acquire bytes device with ⟨e, he, he'⟩ | ⟨a, n, n', ha, ha', hhost, hn⟩
    · exact .of_error (Action.attempt_of_error he) (Action.attempt_of_error he') (.same e) h
    · exact .of_ok (Action.attempt_of_ok ha) (Action.attempt_of_ok ha') ⟨rfl, hhost⟩ hn
  | device =>
    obtain ⟨hp, hq⟩ := hl.resolve_left nofun
    by_cases hlarge : Size.storageLimit < bytes
    · have hover : ∀ m : Machine, acquire bytes .device device m =
          .error (.allocation Size.maximum .device device .sizeOverflow) := fun m => if_pos hlarge
      exact .of_error (Action.attempt_of_error (hover m)) (Action.attempt_of_error (hover m'))
        (.same _) h
    · have hrefused : ∀ m : Machine, m.platform.hasDeviceMemory = false →
          acquire bytes .device device m =
            .error (.allocation bytes .device device (.noDeviceSupport m.platform.name)) := by
        intro m hm
        unfold acquire
        rw [if_neg hlarge, hm]
        rfl
      refine .of_error (Action.attempt_of_error (hrefused m (h.plain.platform ▸ hp)))
        (Action.attempt_of_error (hrefused m' (h.plain'.platform ▸ hq))) ?_ h
      rw [h.plain.platform, h.plain'.platform]
      exact .noDeviceSupport bytes device

end Machine

/-! ## Buffers -/

namespace Buffer

variable {p q : Platform} {m m' : Machine} {location : Location} {b src : Buffer}

theorem twin_release (h : m.Twin p q m') (hb : b.location = .host) :
    (b.release m).Twin p q (b.release m') := by
  unfold release
  unfold Buffer.location at hb
  cases hstorage : b.storage with
  | borrowed location data => exact h
  | owned a =>
    rw [hstorage] at hb
    exact h.release hb

/-- A buffer is made on the host or not at all. -/
theorem agrees_allocate (h : m.Twin p q m') (hl : p.SameFor q location) (dtype : ElementType)
    (size device : Nat) (stream : Stream) :
    (allocate dtype size location device stream).Agrees p q (Machine.Twin p q) m m'
      fun b => location = .host ∧ b.location = .host :=
  .bind (Machine.agrees_acquire h hl ..) fun _ _ _ ha h' => .change_bind (.pure ha (h'.emit _))

theorem agrees_transfer (h : m.Twin p q m') (dst src : Pointer) (bytes : Nat) (stream : Stream) :
    (transfer .host dst .host src bytes stream).Agrees p q (Machine.Twin p q) m m'
      fun _ => True := by
  unfold transfer
  split
  · exact .pure trivial h
  · next hn => exact .change_bind ((h.emit _).copy hn stream)

/-- A host buffer is copied to the host or not at all. -/
theorem agrees_copyTo (h : m.Twin p q m') (hb : b.location = .host) (hl : p.SameFor q location)
    (device : Nat) : (b.copyTo location device).Agrees p q (Machine.Twin p q) m m'
      fun c => location = .host ∧ c.location = .host := by
  refine .bind (agrees_allocate h hl ..) fun c n n' hc hn => ?_
  obtain ⟨rfl, hc⟩ := hc
  rw [hb]
  exact .bind (.orElseTidy (agrees_transfer hn ..) fun _ _ h => twin_release h hc)
    fun _ _ _ _ h' => .pure ⟨rfl, hc⟩ h'

theorem agrees_moveTo (h : m.Twin p q m') (hb : b.location = .host) (hl : p.SameFor q location) :
    (b.moveTo location).Agrees p q (Machine.Twin p q) m m'
      fun c => location = .host ∧ c.location = .host := by
  unfold moveTo
  split
  · next heq => exact .pure ⟨heq.symm.trans hb, hb⟩ h
  · next hne =>
    refine .bind (.orElseTidy (agrees_copyTo h hb hl _) fun _ _ h => twin_release h hb)
      fun c n n' hc hn => ?_
    exact absurd (hb.trans hc.1.symm) hne

theorem agrees_ofBytes (h : m.Twin p q m') (hl : p.SameFor q location) (dtype : ElementType)
    (size : Nat) (bytes : List UInt8) (device : Nat) (stream : Stream) :
    (ofBytes dtype size bytes location device stream).Agrees p q (Machine.Twin p q) m m'
      fun b => location = .host ∧ b.location = .host :=
  .bind (agrees_allocate h (.inl rfl) ..) fun _ _ _ hb h' =>
    .change_bind (agrees_moveTo (h'.write ..) hb.2 hl)

/-- A host buffer is read the same way. -/
theorem agrees_fetchBytes (h : m.Twin p q m') (hb : b.location = .host) :
    b.fetchBytes.Agrees p q (Machine.Twin p q) m m' fun _ => True := by
  have hread : b.fetchBytes = do
      Action.change (Machine.synchronize · b.stream)
      return b.bytes (← get) := by
    unfold fetchBytes
    rw [hb]
  rw [hread]
  have hsynced := h.synchronize b.stream
  refine .change_bind (.get_bind ?_ (.pure trivial hsynced))
  unfold bytes
  rw [hsynced.memory]

theorem agrees_toList (h : m.Twin p q m') (hb : b.location = .host) :
    b.toList.Agrees p q (Machine.Twin p q) m m' fun _ => True :=
  .bind (agrees_fetchBytes h hb) fun _ _ _ _ h' => .pure trivial h'

theorem agrees_peek (h : m.Twin p q m') (b : Buffer) :
    b.peek.Agrees p q (Machine.Twin p q) m m' fun _ => True := by
  refine .ofExcept_bind h fun _ _ => .get_bind ?_ (.pure trivial h)
  unfold contents bytes
  rw [h.memory]

theorem agrees_poke (h : m.Twin p q m') (b : Buffer) (index : Nat) (xs : List b.dtype.Value) :
    (b.poke index xs).Agrees p q (Machine.Twin p q) m m' fun _ => True := by
  refine .ofExcept_bind h fun _ _ => ?_
  split
  · exact .change trivial (h.write ..)
  · exact .pure trivial h

theorem twin_rebind (h : m.Twin p q m') (b : Buffer) (stream : Stream) :
    (b.rebind stream m).2.Twin p q (b.rebind stream m').2 := (h.emit _).synchronize _

/-- A copy between host buffers. -/
theorem agrees_copyRange {x y : Machine × Buffer}
    (h : Machine.TwinBeside p q (·.location = .host) x y) (hsrc : src.location = .host)
    (i j k : Nat) :
    (src.copyRange i j k).Agrees p q (Machine.TwinBeside p q (·.location = .host)) x y
      fun _ => True := by
  obtain ⟨m, dst⟩ := x
  obtain ⟨m', dst'⟩ := y
  obtain ⟨h, rfl, hdst⟩ := h
  have hissued : ∀ {n n' : Machine} {d : Buffer}, n.Twin p q n' → d.location = .host →
      Action.Agrees (Action.onFirst (transfer d.location (d.position i) src.location
        (src.position j) ((k - j) * src.dtype.width) d.stream)) p q
        (Machine.TwinBeside p q (·.location = .host)) (n, d) (n', d) fun _ => True := by
    intro n n' d hn hd
    rw [hd, hsrc]
    exact .within (agrees_transfer hn ..) fun x y hxy => ⟨hxy, rfl, hd⟩
  unfold Action.Agrees copyRange
  dsimp only
  cases inRange dst src i j k with
  | false => exact .error (.same _) ⟨h, rfl, hdst⟩
  | true =>
    by_cases hs : dst.stream = src.stream
    · simp only [Bool.not_true, Bool.false_eq_true, if_false, if_pos hs]
      exact hissued h hdst
    · simp only [Bool.not_true, Bool.false_eq_true, if_false, if_neg hs]
      exact hissued (d := { dst with stream := src.stream }) (twin_rebind h dst src.stream) hdst

/-- A new buffer into which something is copied; it is given back if that fails. -/
theorem agrees_into {fill : Action (Machine × Buffer) Unit}
    (h : fill.Agrees p q (Machine.TwinBeside p q (·.location = .host)) (m, b) (m', b)
      fun _ => True) :
    Action.Agrees (fun m => match fill (m, b) with
      | .ok () (m, b) => .ok b m
      | .error e (m, b) => .error e (b.release m)) p q (Machine.Twin p q) m m'
      fun b => b.location = .host := by
  rcases h.cases with ⟨_, ⟨n, b⟩, ⟨n', b'⟩, hrun, hrun', -, hn, rfl, hb⟩ |
    ⟨e, e', ⟨n, b⟩, ⟨n', b'⟩, hrun, hrun', he, hn, rfl, hb⟩
  · exact .of_ok (by rw [hrun]) (by rw [hrun']) hb hn
  · exact .of_error (by rw [hrun]) (by rw [hrun']) he (twin_release hn hb)

end Buffer

/-! ## Tensors -/

namespace Tensor

variable {p q : Platform} {m m' : Machine} {location : Location}

theorem agrees_adopt (h : m.Twin p q m') {b : Buffer} (hb : b.location = .host) (shape : Shape) :
    (adopt shape b).Agrees p q (Machine.Twin p q) m m' fun t => t.buffer.location = .host :=
  .orElseTidy (.ofExcept (fun t ht => by rwa [buffer_of_ofBuffer ht]) h) fun _ _ h' =>
    Buffer.twin_release h' hb

theorem agrees_allocate (h : m.Twin p q m') (hl : p.SameFor q location) (dtype : ElementType)
    (shape : Shape) (device : Nat) (stream : Stream) :
    (allocate dtype shape location device stream).Agrees p q (Machine.Twin p q) m m'
      fun t => location = .host ∧ t.buffer.location = .host := by
  unfold allocate
  cases shape.product? with
  | none => exact .throw _ h
  | some count =>
    exact .bind (Buffer.agrees_allocate h hl ..) fun _ _ _ hb h' =>
      (agrees_adopt h' hb.2 shape).mono fun _ ht => ⟨hb.1, ht⟩

end Tensor

end DeviceBatch
