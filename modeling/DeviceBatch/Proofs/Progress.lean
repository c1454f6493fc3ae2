import DeviceBatch.Proofs.Draining

/-!
# What the operations of a machine do

`Progress` says of two states of a machine what happened to storage in between: the effects, in the
order in which they were asked for, and what is held before and after. If no copy that is done at
once runs ahead of a waiting copy that it depends on, the outlook is changed by just these effects
(`Progress.outlook`). Whether or not that is so, stored inputs and staged storage are safe: what
they will hold is changed only by effects that say so (`Progress.fixed`).

Each operation of a machine is progress by one effect, or by none.
-/

namespace DeviceBatch

/-- The holdings that owned storage amounts to: none if it has no bytes. -/
def Allocation.holdings (a : Allocation) (use : Use) : List Holding :=
  if a.bytes = 0 then [] else [⟨a, use⟩]

namespace Machine

variable {m m' m'' : Machine} {T T' T'' U : List Holding} {t u : Holding} {s : Stream}
  {es fs : List Effect} {p q : Prop}

/-- A copy that waits and writes one of the blocks reads one of them as well. -/
def Closed (m : Machine) (C : Nat → Prop) : Prop :=
  ∀ s c, m.Pending s c → C c.dst.block → C c.src.block

/-- From one machine to another by effects. While `T` was held before, `T'` is held now. -/
structure Progress (m : Machine) (T : List Holding) (es : List Effect) (exact : Prop)
    (m' : Machine) (T' : List Holding) : Prop where
  keeps : m'.Keeps T'
  platform : m'.platform = m.platform
  next : m.memory.next ≤ m'.memory.next
  outlook : exact → m'.outlook = m.outlook.afterAll es
  /-- Storage that only the library writes stays, and with it what it will hold. -/
  fixed : ∀ t ∈ T, t.use.IsFixed → (∀ e ∈ es, ¬ e.Changes t.block) →
    t ∈ T' ∧ m'.outlook.memory.block? t.block = m.outlook.memory.block? t.block
  /-- So it is with any blocks that are filled from one another only. -/
  apart : ∀ C : Nat → Prop, m.Closed C →
    (∀ b, C b → b < m.memory.next ∧ ∀ e ∈ es, ¬ e.Changes b) →
    ∀ b, C b → m'.outlook.memory.block? b = m.outlook.memory.block? b
  /-- What is held now was held before or is new. -/
  blocks : ∀ t ∈ T', (∃ u ∈ T, u.block = t.block) ∨ m.memory.next ≤ t.block
  pending : ∀ s c, m'.Pending s c → m.Pending s c ∨ .copy c ∈ es
  strays : m'.strays = m.strays
  /-- As long as nothing is waited for, blocks that are not written are as they were. -/
  memory : (∀ e ∈ es, ¬ e.MaySettle) → ∀ b < m.memory.next, (∀ e ∈ es, ¬ e.Changes b) →
    m'.memory.block? b = m.memory.block? b

namespace Progress

/-- Copies that wait afterwards are no way into the blocks either. -/
theorem closed (h : m.Progress T es p m' T') {C : Nat → Prop} (hC : m.Closed C)
    (hes : ∀ c, .copy c ∈ es → C c.dst.block → C c.src.block) : m'.Closed C := by
  intro s c hc hdst
  rcases h.pending s c hc with hold | hnew
  · exact hC s c hold hdst
  · exact hes c hnew hdst

theorem refl (h : m.Keeps T) : m.Progress T [] True m T where
  keeps := h
  platform := rfl
  next := Nat.le_refl _
  outlook _ := rfl
  fixed _ ht _ _ := ⟨ht, rfl⟩
  apart _ _ _ _ _ := rfl
  blocks t ht := .inl ⟨t, ht, rfl⟩
  pending _ _ hc := .inl hc
  strays := rfl
  memory _ _ _ _ := rfl

theorem trans (h : m.Progress T es p m' T') (h' : m'.Progress T' fs q m'' T'') :
    m.Progress T (es ++ fs) (p ∧ q) m'' T'' where
  keeps := h'.keeps
  platform := h'.platform.trans h.platform
  next := Nat.le_trans h.next h'.next
  outlook he := by rw [h'.outlook he.2, h.outlook he.1, Outlook.afterAll_append]
  fixed t ht hf hc := by
    rw [List.forall_mem_append] at hc
    obtain ⟨ht', heq⟩ := h.fixed t ht hf hc.1
    obtain ⟨ht'', heq'⟩ := h'.fixed t ht' hf hc.2
    exact ⟨ht'', heq'.trans heq⟩
  apart C hC hes b hb := by
    simp only [List.forall_mem_append] at hes
    have hfirst := h.apart C hC (fun b hb => ⟨(hes b hb).1, (hes b hb).2.1⟩) b hb
    have hclosed : m'.Closed C := h.closed hC fun c hc hdst =>
      absurd rfl ((hes _ hdst).2.1 (.copy c) hc)
    exact (h'.apart C hclosed (fun b hb => ⟨Nat.lt_of_lt_of_le (hes b hb).1 h.next,
      (hes b hb).2.2⟩) b hb).trans hfirst
  blocks t ht := by
    rcases h'.blocks t ht with ⟨u, hu, hblock⟩ | hnew
    · rw [← hblock]
      exact h.blocks u hu
    · exact .inr (Nat.le_trans h.next hnew)
  pending s c hc := by
    rw [List.mem_append]
    rcases h'.pending s c hc with hc | hc
    · exact (h.pending s c hc).imp_right .inl
    · exact .inr (.inr hc)
  strays := h'.strays.trans h.strays
  memory hw b hb hc := by
    rw [List.forall_mem_append] at hw hc
    rw [h'.memory hw.2 b (Nat.lt_of_lt_of_le hb h.next) hc.2, h.memory hw.1 b hb hc.1]

/-- The same with a stronger condition for the outlook. -/
theorem imp (h : m.Progress T es p m' T') (hq : q → p) : m.Progress T es q m' T' :=
  { h with outlook := fun he => h.outlook (hq he) }

theorem perm (h : m.Progress T es p m' T') (hp : T'.Perm U) : m.Progress T es p m' U :=
  { h with
    keeps := h.keeps.perm hp
    fixed := fun t ht hf hc => by
      obtain ⟨ht', heq⟩ := h.fixed t ht hf hc
      exact ⟨hp.mem_iff.mp ht', heq⟩
    blocks := fun t ht => h.blocks t (hp.mem_iff.mpr ht) }

theorem perm_left (h : m.Progress T es p m' T') (hp : U.Perm T) : m.Progress U es p m' T' :=
  { h with
    fixed := fun t ht => h.fixed t (hp.mem_iff.mp ht)
    blocks := fun t ht => (h.blocks t ht).imp_left fun ⟨u, hu, hblock⟩ =>
      ⟨u, hp.mem_iff.mpr hu, hblock⟩ }

/-- Reporting an event afterwards, or before, is of no importance. -/
theorem emit (h : m.Progress T es p m' T') (e : Event) : m.Progress T es p (m'.emit e) T' :=
  ⟨h.keeps.emit e, h.platform, h.next, h.outlook, h.fixed, h.apart, h.blocks, h.pending, h.strays,
    h.memory⟩

theorem of_emit {e : Event} (h : (m.emit e).Progress T es p m' T') : m.Progress T es p m' T' :=
  ⟨h.keeps, h.platform, h.next, h.outlook, h.fixed, h.apart, h.blocks, h.pending, h.strays,
    h.memory⟩

/-- Progress whose effects on the outlook are known, and which keeps what it does not release. -/
theorem of_settles (h : m.Settles es m' T') (hes : ∃ e ∈ es, e.MaySettle) (hk : m.Keeps T)
    (hT : ∀ t ∈ T, t.use.IsFixed → (∀ e ∈ es, ¬ e.Changes t.block) → t ∈ T') (hT' : T' ⊆ T) :
    m.Progress T es True m' T' where
  keeps := h.keeps
  platform := h.platform
  next := by
    have hnext : ∀ (es : List Effect) (o : Outlook),
        o.memory.next ≤ (o.afterAll es).memory.next := by
      intro es
      induction es with
      | nil => exact fun o => Nat.le_refl _
      | cons e es ih =>
        intro o
        refine Nat.le_trans ?_ (ih (o.after e))
        cases e <;> simp [Outlook.after]
    rw [← next_outlook m, ← next_outlook m', h.outlook]
    exact hnext es m.outlook
  outlook _ := h.outlook
  fixed t ht hf hc := by
    refine ⟨hT t ht hf hc, ?_⟩
    rw [h.outlook]
    exact block?_outlook_afterAll hc (hk.block_lt (Keeps.mem ht))
  apart C _ hes b hb := by
    rw [h.outlook]
    exact block?_outlook_afterAll (hes b hb).2 (hes b hb).1
  blocks t ht := .inl ⟨t, hT' ht, rfl⟩
  pending s c hc := .inl (h.pending s c hc)
  strays := h.strays
  memory hw := by
    obtain ⟨e, he, hm⟩ := hes
    exact absurd hm (hw e he)

/-- Blocks at which nothing is copied stay untouched. -/
theorem untouched (h : m.Progress T es p m' T') {b : Nat} (hb : m.Untouched b)
    (hc : ∀ e ∈ es, ¬ e.CopiesAt b) : m'.Untouched b := by
  intro s c hp
  rcases h.pending s c hp with hp | hp
  · exact hb s c hp
  · exact hc (.copy c) hp

/-- Storage that no waiting copy touches any more can be put to another use. -/
theorem withUse (h : m.Progress T es p m' (t :: T')) (hf : ¬ t.use.IsFixed)
    (hu : m'.Untouched t.block) (use : Use) : m.Progress T es p m' ({ t with use } :: T') :=
  { h with
    keeps := Orderly.withUse h.keeps hu use
    fixed := fun v hv hvf hc => by
      obtain ⟨hv', heq⟩ := h.fixed v hv hvf hc
      refine ⟨?_, heq⟩
      rcases List.mem_cons.mp hv' with rfl | hv'
      · exact absurd hvf hf
      · exact List.mem_cons_of_mem _ hv'
    blocks := fun v hv => by
      rcases List.mem_cons.mp hv with rfl | hv
      · exact h.blocks t List.mem_cons_self
      · exact h.blocks v (List.mem_cons_of_mem _ hv) }

theorem next_eq (h : m.Progress T es p m' T') (hp : p) :
    m'.memory.next = (m.outlook.afterAll es).memory.next := by
  rw [← h.outlook hp, next_outlook]

end Progress

/-! ## Waiting -/

/-- Waiting for a stream brings nothing new, and nothing is left to be done on it. -/
theorem progress_synchronize (h : m.Keeps T) (s : Stream) :
    m.Progress T [.wait] True (m.synchronize s) T ∧ ∀ c, ¬ (m.synchronize s).Pending s c := by
  obtain ⟨hd, hnone⟩ := settles_drain h s
  refine ⟨.of_settles ⟨hd.keeps.recordSynchronization, hd.platform, ?_, hd.pending, hd.strays⟩
    ⟨.wait, by simp, trivial⟩ h (fun t ht _ _ => ht) (List.Subset.refl T), hnone⟩
  show ({ (m.drain s).outlook with
    synchronizations := (m.drain s).outlook.synchronizations + 1 } : Outlook) = _
  rw [hd.outlook]
  rfl

/-! ## Giving storage out and back -/

/-- New storage is the next block, if it has any bytes. -/
theorem progress_acquire (h : m.Keeps T) {bytes device : Nat} {location : Location}
    {a : Allocation} (ha : acquire bytes location device m = .ok (a, m')) :
    a = ⟨if bytes = 0 then 0 else m.memory.next, bytes, location, device⟩ ∧
      ∀ use, m.Progress T (if bytes = 0 then [] else [.alloc bytes]) True m'
        (a.holdings use ++ T) := by
  rcases acquire_eq_ok ha with ⟨rfl, rfl, rfl⟩ | ⟨hb, rfl, hal⟩
  · exact ⟨rfl, fun use => .refl h⟩
  · rw [if_neg hb, if_neg hb]
    refine ⟨rfl, fun use => ?_⟩
    have hold : Allocation.holdings ⟨m.memory.next, bytes, location, device⟩ use =
        [⟨⟨m.memory.next, bytes, location, device⟩, use⟩] := if_neg hb
    have hsettled : m'.settled = m.settled.alloc (List.replicate bytes 0) := by
      unfold settled
      rw [hal.memory, hal.queues]
      refine Memory.run_alloc _ _ fun c hc => ?_
      obtain ⟨s, hs⟩ := mem_copies_iff.mp hc
      exact h.pending_lt hs
    -- The block is allocated before the waiting copies run and the kept blocks are freed, and
    -- in the outlook behind both. None of them names it, so the order does not matter.
    have houtlook : m'.outlook = m.outlook.afterAll [.alloc bytes] := by
      have hlt : ∀ b ∈ m.queues.kept.map Holding.block, b < m.settled.next := by
        rw [next_settled]
        exact h.kept_lt
      simp only [outlook, hsettled, hal.queues, hal.stats, Outlook.afterAll_cons,
        Outlook.afterAll_nil, Outlook.after, Stats.recordAllocation,
        Memory.freeAll_alloc _ _ hlt]
    rw [hold]
    exact {
      keeps := by
        unfold Keeps
        rw [hal.queues]
        exact h.allocated hb hal use
      platform := hal.platform
      next := by rw [hal.memory, Memory.next_alloc]; omega
      outlook := fun _ => houtlook
      fixed := fun t ht _ hc => by
        refine ⟨List.mem_cons_of_mem _ ht, ?_⟩
        rw [houtlook]
        exact block?_outlook_afterAll hc (h.block_lt (Keeps.mem ht))
      apart := fun C _ hes b hb => by
        rw [houtlook]
        exact block?_outlook_afterAll (hes b hb).2 (hes b hb).1
      blocks := fun t ht => by
        rcases List.mem_cons.mp ht with rfl | ht
        · exact .inr (Nat.le_refl _)
        · exact .inl ⟨t, ht, rfl⟩
      pending := fun s c hc => .inl (by unfold Pending at hc ⊢; rwa [hal.queues] at hc)
      strays := hal.strays
      memory := fun _ b hlt _ => by
        rw [hal.memory, Memory.block?_alloc, if_neg (Nat.ne_of_lt hlt)] }

/-- Storage is given back; host storage only if no waiting copy touches it. -/
theorem progress_release (h : m.Keeps (t :: T))
    (hu : t.location = .host → m.Untouched t.block) :
    m.Progress (t :: T) [.free t.block] True (m.release t.allocation) T := by
  refine .of_settles (settles_release h hu) ⟨.free t.block, by simp, trivial⟩ h (fun u hu _ hc => ?_)
    (List.subset_cons_self t T)
  rcases List.mem_cons.mp hu with rfl | hu
  · exact absurd rfl (hc (.free u.block) (by simp))
  · exact hu

/-- The machine with a guard behind those that a stream keeps. -/
def withGuard (m : Machine) (s : Stream) (g : Guard) : Machine :=
  { m with queues := Queues.update s (fun q => { q with guards := q.guards ++ [g] }) m.queues }

theorem retain_eq (hd : m.platform.isDeferred = true) (g : Guard) :
    m.retain s g = m.withGuard s g := by
  unfold retain withGuard
  cases hp : m.platform with
  | host => rw [hp] at hd; cases hd
  | simulated devices => rfl

/-- A stream that keeps storage alive gives it back sooner or later. -/
theorem progress_retain (h : m.Keeps (t :: T)) (hu : t.use = .bound s)
    (hd : m.platform.isDeferred = true) :
    m.Progress (t :: T) [.free t.block] True (m.retain s (.storage t.allocation)) T := by
  have hg : (Guard.storage t.allocation).holding? s = some t :=
    Guard.holding?_eq_some.mpr ⟨rfl, h.nonempty t List.mem_cons_self, hu⟩
  have hkept : (m.withGuard s (.storage t.allocation)).queues.kept.Perm
      (((Guard.storage t.allocation).holding? s).toList ++ m.queues.kept) :=
    Queues.kept_update_guards s (.storage t.allocation) m.queues
  rw [hg] at hkept
  have hcopies : (m.withGuard s (.storage t.allocation)).queues.copies = m.queues.copies :=
    Queues.copies_update_guards s (.storage t.allocation) m.queues
  have hpending : ∀ r c, (m.withGuard s (.storage t.allocation)).Pending r c → m.Pending r c := by
    rintro r c ⟨q, hq, hc⟩
    exact Queues.pending_of_update_guards hq hc
  rw [retain_eq hd]
  refine .of_settles ⟨?_, rfl, ?_, hpending, rfl⟩ ⟨.free t.block, by simp, trivial⟩ h
    (fun u hu' _ hc => ?_) (List.subset_cons_self t T)
  · refine Orderly.perm (Orderly.withQueues h (Queues.nodup_update h.streams)
      (fun r q hq c hc => hpending r c ⟨q, hq, hc⟩) fun hf => ?_) ?_
    · rw [hd] at hf
      cases hf
    · refine List.perm_iff_count.mpr fun v => ?_
      have hcount := List.perm_iff_count.mp hkept v
      simp only [Option.toList_some, List.count_append, List.cons_append, List.nil_append,
        List.count_cons] at hcount ⊢
      show _ = _ + (m.withGuard s (.storage t.allocation)).queues.kept.count v
      omega
  · have hblocks : ∀ b, b ∈ (m.withGuard s (.storage t.allocation)).queues.kept.map
        Holding.block ↔ b ∈ m.queues.kept.map Holding.block ++ [t.block] := by
      intro b
      rw [(hkept.map Holding.block).mem_iff]
      simp only [Option.toList_some, List.map_append, List.map_cons, List.map_nil,
        List.mem_append, List.mem_singleton]
      exact or_comm
    simp only [outlook, settled, hcopies, Memory.freeAll_congr _ hblocks, Memory.freeAll_append,
      Outlook.afterAll_cons, Outlook.afterAll_nil, Outlook.after, Memory.freeAll_cons,
      Memory.freeAll_nil]
    rfl
  · rcases List.mem_cons.mp hu' with rfl | hu'
    · exact absurd rfl (hc (.free u.block) (by simp))
    · exact hu'

/-! ## Writing at once -/

/-- No waiting copy reads or writes any of the `n` bytes at `p`. -/
def Avoided (m : Machine) (p : Pointer) (n : Nat) : Prop := ∀ s d, m.Pending s d → d.Avoids p n

/-- The copy and the waiting ones can be performed in any order. -/
def Clear (m : Machine) (c : PendingCopy) : Prop := ∀ s d, m.Pending s d → c.Independent d

/-- No waiting copy writes any of the `n` bytes at `p`. -/
def Steady (m : Machine) (p : Pointer) (n : Nat) : Prop :=
  ∀ s d, m.Pending s d → p.Apart n d.dst d.bytes

theorem Unwritten.steady {p : Pointer} (h : m.Unwritten p.block) (n : Nat) : m.Steady p n :=
  fun s d hd => .of_ne fun hb => h s d hd hb.symm

/-- A copy into untouched storage only has to regard what it reads. -/
theorem Steady.clear {c : PendingCopy} (h : m.Steady c.src c.bytes)
    (hd : m.Untouched c.dst.block) : m.Clear c := fun r d hp =>
  ⟨⟨.of_ne fun hb => hd r d hp (.inl hb.symm), h r d hp⟩,
    PendingCopy.avoids_of_not_touches (hd r d hp) _⟩

theorem Untouched.avoided {p : Pointer} (h : m.Untouched p.block) (n : Nat) : m.Avoided p n :=
  fun s d hd => PendingCopy.avoids_of_not_touches (h s d hd) n

/-- Nothing waits on a platform that does not defer copies. -/
theorem Keeps.not_pending (h : m.Keeps T) (hd : m.platform.isDeferred = false) (s : Stream)
    (c : PendingCopy) : ¬ m.Pending s c := by
  rintro ⟨q, hq, -⟩
  rw [h.waits hd] at hq
  cases hq

/-- What fixed storage will hold depends on fixed storage only: a write to other storage is of no
importance for it, even if copies wait that depend on the bytes written. -/
theorem Keeps.block?_outlook_fixed (h : m.Keeps T) {memory : Memory} {b : Nat}
    (hagree : ∀ b', b' ≠ b → memory.block? b' = m.memory.block? b')
    (hb : ∀ u ∈ T, u.use.IsFixed → u.block ≠ b) (ht : t ∈ T) (hf : t.use.IsFixed) :
    (memory.run m.queues.copies).block? t.block = m.settled.block? t.block := by
  have hfixed : ∀ u ∈ T ++ m.queues.kept, u.use.IsFixed → u ∈ T := by
    intro u hu hf
    rcases List.mem_append.mp hu with hu | hu
    · exact hu
    · obtain ⟨⟨r, q⟩, -, hq⟩ := List.mem_flatMap.mp hu
      obtain ⟨g, -, hg⟩ := List.mem_filterMap.mp hq
      rw [(Guard.holding?_eq_some.mp hg).2.2] at hf
      exact hf.elim
  let B : Nat → Prop := fun b' => ∃ u ∈ T ++ m.queues.kept, u.use.IsFixed ∧ u.block = b'
  refine Memory.run_congr (B := B) ?_ ?_ t.block ⟨t, Keeps.mem ht, hf, rfl⟩
  · rintro c hc ⟨u, hu, huf, hub⟩
    obtain ⟨r, hr⟩ := mem_copies_iff.mp hc
    obtain ⟨d, hd, v, hv, hdst, hsrc, htake, -⟩ := h.served r c hr
    have heq := h.eq_of_block hd hu (hdst.1.trans hub.symm)
    subst heq
    refine ⟨v, hv, ?_, hsrc.1⟩
    cases hduse : d.use with
    | bound r' => rw [hduse] at huf; exact huf.elim
    | staged r' =>
      rw [hduse] at htake
      rw [htake.2]
      trivial
    | stored => rw [hduse] at htake; exact htake.elim
  · rintro b' ⟨u, hu, huf, rfl⟩
    exact hagree u.block (hb u (hfixed u hu huf) huf)

/-- Bytes of one block written at once, with all queues as before. -/
theorem Progress.of_written (h : m.Keeps T) {e : Effect} {b : Nat} {memory : Memory}
    {stats : Stats} {metrics : Metrics} {strays : List PendingCopy}
    (hl : ∀ b', (memory.block? b').map List.length = (m.memory.block? b').map List.length)
    (hnext : memory.next = m.memory.next)
    (hagree : ∀ b', b' ≠ b → memory.block? b' = m.memory.block? b')
    (hb : e.Changes b) (hstats : stats.allocations = m.stats.allocations ∧
      stats.deallocations = m.stats.deallocations ∧ stats.liveBytes = m.stats.liveBytes)
    (hout : p → ({ m with memory, stats, metrics, strays } : Machine).outlook = m.outlook.after e)
    (hfix : ∀ u ∈ T, u.use.IsFixed → u.block = b → p)
    (hstrays : strays = m.strays) :
    m.Progress T [e] p { m with memory, stats, metrics, strays } T where
  keeps := (h.withMemory hl).congr rfl rfl rfl rfl rfl hstats.1 hstats.2.1 hstats.2.2
  platform := rfl
  next := Nat.le_of_eq hnext.symm
  outlook := hout
  fixed t ht hf hc := by
    refine ⟨ht, ?_⟩
    -- If the block that is written is fixed itself, the outlook says what became of it.
    by_cases hex : ∃ u ∈ T, u.use.IsFixed ∧ u.block = b
    · obtain ⟨u, hu, huf, hub⟩ := hex
      rw [hout (hfix u hu huf hub)]
      refine (Outlook.block?_after (hc e List.mem_cons_self) ?_).1
      rw [next_outlook]
      exact h.block_lt (Keeps.mem ht)
    · have hsettled := h.block?_outlook_fixed hagree
        (fun u hu huf hub => hex ⟨u, hu, huf, hub⟩) ht hf
      show ((memory.run m.queues.copies).freeAll _).block? _ = _
      rw [Memory.block?_freeAll, if_neg (h.block_notMem_kept ht), hsettled, h.block?_outlook ht]
  apart C hC hes b' hb' := by
    have hrun : (memory.run m.queues.copies).block? b' = m.settled.block? b' := by
      refine Memory.run_congr (B := C) (fun c hc hdst => ?_) (fun k hk => ?_) b' hb'
      · obtain ⟨r, hr⟩ := mem_copies_iff.mp hc
        exact hC r c hr hdst
      · exact hagree k fun heq => (hes k hk).2 e List.mem_cons_self (heq ▸ hb)
    show ((memory.run m.queues.copies).freeAll _).block? b' = (m.settled.freeAll _).block? b'
    rw [Memory.block?_freeAll, Memory.block?_freeAll, hrun]
  blocks t ht := .inl ⟨t, ht, rfl⟩
  pending _ _ hc := .inl hc
  strays := hstrays
  memory _ b' _ hc := hagree b' fun heq => hc e List.mem_cons_self (heq ▸ hb)

/-- Bytes of storage written at once. -/
theorem progress_write (h : m.Keeps T) (ht : t ∈ T) {p : Pointer} (hp : p.block = t.block)
    (bytes : List UInt8) (hfix : t.use.IsFixed → m.Avoided p bytes.length) :
    m.Progress T [.write p bytes] (m.Avoided p bytes.length)
      { m with memory := m.memory.write p bytes } T := by
  refine Progress.of_written (b := p.block) h (fun b => ?_) (Memory.next_write ..)
    (fun b hb => Memory.block?_write_of_ne _ _ _ hb) rfl ⟨rfl, rfl, rfl⟩ (fun hclear => ?_)
    (fun u hu hf hub => ?_) rfl
  · rw [Memory.block?_write]
    split
    · cases m.memory.block? b <;> simp
    · rfl
  · have hrun : (m.memory.write p bytes).run m.queues.copies =
        (m.memory.run m.queues.copies).write p bytes := by
      refine Memory.run_write _ fun c hc => ?_
      obtain ⟨s, hs⟩ := mem_copies_iff.mp hc
      exact hclear s c hs
    have hkept : p.block ∉ m.queues.kept.map Holding.block := hp ▸ h.block_notMem_kept ht
    have hfree := Memory.freeAll_write m.settled bytes hkept
    simp only [outlook, settled, Outlook.after] at hfree ⊢
    rw [hrun, hfree]
  · have heq := h.eq_of_block (Keeps.mem hu) (Keeps.mem ht) (hub.trans hp)
    subst heq
    exact hfix hf

/-! ## Copying -/

/-- A copy performed at once. -/
theorem progress_runCopies (h : m.Keeps T) (ht : t ∈ T) (hu : u ∈ T) {c : PendingCopy}
    (hd : t.Spans c.dst c.bytes) (hs : u.Spans c.src c.bytes) (kind : CopyKind)
    (hfix : t.use.IsFixed → m.Clear c) :
    m.Progress T [.copy c] (m.Clear c) ((m.runCopies [c]).recordCopy kind c.bytes) T := by
  refine Progress.of_written (b := c.dst.block) h (Memory.length_block?_run m.memory [c])
    (Memory.next_run ..) (fun b hb => Memory.block?_copy_of_ne _ hb) rfl ⟨rfl, rfl, rfl⟩
    (fun hclear => ?_) (fun v hv hf hvb => ?_) (strays_runCopies ?_)
  · have hrun : (m.memory.copy c.dst c.src c.bytes).run m.queues.copies =
        m.settled.copy c.dst c.src c.bytes := by
      refine Memory.run_copy _ fun d hd => ?_
      obtain ⟨r, hr⟩ := mem_copies_iff.mp hd
      exact hclear r d hr
    have hfree := Memory.freeAll_copy m.settled (hd.1 ▸ h.block_notMem_kept ht)
      (hs.1 ▸ h.block_notMem_kept hu)
    refine Outlook.ext ?_ rfl rfl rfl rfl
    show ((m.memory.copy c.dst c.src c.bytes).run m.queues.copies).freeAll _ = _
    rw [hrun, hfree]
    rfl
  · have heq := h.eq_of_block (Keeps.mem hv) (Keeps.mem ht) (hvb.trans hd.1.symm)
    subst heq
    exact hfix hf
  · intro d hdc
    rw [List.mem_singleton.mp hdc]
    unfold PendingCopy.isLive
    rw [h.holds (Keeps.mem ht) hd, h.holds (Keeps.mem hu) hs, Bool.and_self]

/-- A copy put behind those that wait on its stream. -/
theorem progress_enqueue (h : m.Keeps T) (ht : t ∈ T) (hu : u ∈ T) {c : PendingCopy}
    (hd : t.Spans c.dst c.bytes) (hs : u.Spans c.src c.bytes) (htake : t.use.Takes s u.use)
    (hgive : u.use.Gives s) (hdef : m.platform.isDeferred = true) (kind : CopyKind) :
    m.Progress T [.copy c] True ((m.enqueue s c).recordCopy kind c.bytes) T := by
  have hserved : c.Served (T ++ m.queues.kept) s :=
    ⟨t, Keeps.mem ht, u, Keeps.mem hu, hd, hs, htake, hgive⟩
  have hkept : (m.enqueue s c).queues.kept = m.queues.kept := Queues.kept_update_copies ..
  -- Copies on other streams are independent of this one, so it may as well be the last to run.
  have hsettled : (m.enqueue s c).settled = m.settled.copy c.dst c.src c.bytes :=
    run_copies_update m.memory h.streams fun r q hq hne d hd =>
      h.independent hserved (h.served r d ⟨q, hq, hd⟩) (Ne.symm hne)
  have houtlook : ((m.enqueue s c).recordCopy kind c.bytes).outlook =
      m.outlook.afterAll [.copy c] := by
    have hfree := Memory.freeAll_copy m.settled (hd.1 ▸ h.block_notMem_kept ht)
      (hs.1 ▸ h.block_notMem_kept hu)
    refine Outlook.ext ?_ rfl rfl rfl rfl
    show (m.enqueue s c).settled.freeAll ((m.enqueue s c).queues.kept.map Holding.block) = _
    rw [hsettled, hkept, hfree]
    rfl
  exact {
    keeps := by
      show ((m.enqueue s c).recordCopy kind c.bytes).Orderly (T ++ (m.enqueue s c).queues.kept)
      rw [hkept]
      exact (Orderly.enqueue h hserved hdef).recordCopy kind c.bytes
    platform := rfl
    next := Nat.le_refl _
    outlook := fun _ => houtlook
    fixed := fun v hv _ hc => by
      refine ⟨hv, ?_⟩
      rw [houtlook]
      exact block?_outlook_afterAll hc (h.block_lt (Keeps.mem hv))
    apart := fun C _ hes b hb => by
      rw [houtlook]
      exact block?_outlook_afterAll (hes b hb).2 (hes b hb).1
    blocks := fun v hv => .inl ⟨v, hv, rfl⟩
    pending := fun r d hp => by
      rcases pending_enqueue.mp hp with hp | ⟨-, rfl⟩
      · exact .inl hp
      · exact .inr List.mem_cons_self
    strays := rfl
    memory := fun _ b _ _ => rfl }

/-- A copy from host to host is never put off. -/
theorem copy_hostToHost (m : Machine) {dst src : Pointer} {n : Nat} (hn : n ≠ 0) (s : Stream) :
    m.copy .hostToHost dst src n s =
      .ok ((m.runCopies [⟨dst, src, n⟩]).recordCopy .hostToHost n) := by
  have hdefers : m.platform.defers .hostToHost = false := by
    rw [Platform.defers_eq, CopyKind.touchesDevice, Bool.and_false]
  unfold copy
  cases hp : m.platform with
  | host => rfl
  | simulated devices =>
    rw [hp] at hdefers
    simp [hn, hdefers, CopyKind.destination, CopyKind.source, Location.isDevice]

/-- A copy between storage in use is accepted. It is performed at once or later; only in the first
case it matters which copies wait. -/
theorem progress_copy (h : m.Keeps T) (ht : t ∈ T) (hu : u ∈ T) {c : PendingCopy}
    (hd : t.Spans c.dst c.bytes) (hs : u.Spans c.src c.bytes) (htake : t.use.Takes s u.use)
    (hgive : u.use.Gives s) (hn : c.bytes ≠ 0)
    (hfix : m.platform.defers (.between t.location u.location) = false → t.use.IsFixed →
      m.Clear c) :
    ∃ m', m.copy (.between t.location u.location) c.dst c.src c.bytes s = .ok m' ∧
      m.Progress T [.copy c]
        (m.platform.defers (.between t.location u.location) = false → m.Clear c) m' T := by
  have hnow : m.platform.defers (.between t.location u.location) = false →
      m.Progress T [.copy c]
        (m.platform.defers (.between t.location u.location) = false → m.Clear c)
        ((m.runCopies [c]).recordCopy (.between t.location u.location) c.bytes) T := fun hf =>
    (progress_runCopies h ht hu hd hs _ (hfix hf)).imp fun he => he hf
  unfold copy
  cases hp : m.platform with
  | host =>
    -- A platform without devices has no device storage, so the copy stays on the host.
    have hhost : ∀ v ∈ T, v.location = .host := by
      intro v hv
      cases hl : v.location with
      | host => rfl
      | device =>
        have := h.placed v (Keeps.mem hv) hl
        rw [hp] at this
        cases this
    have htouch : (CopyKind.between t.location u.location).touchesDevice = false := by
      rw [hhost t ht, hhost u hu]
      rfl
    simp only [htouch, Bool.false_eq_true, if_false]
    refine ⟨_, rfl, ?_⟩
    rw [← hp]
    exact hnow (by rw [hp]; rfl)
  | simulated devices =>
    have hdst : ((CopyKind.between t.location u.location).destination.isDevice &&
        !m.inDeviceAllocation c.dst c.bytes) = false := by
      rw [CopyKind.destination_between]
      cases hl : t.location with
      | host => rfl
      | device => simp [Orderly.inDeviceAllocation h (Keeps.mem ht) hl hd]
    have hsrc : ((CopyKind.between t.location u.location).source.isDevice &&
        !m.inDeviceAllocation c.src c.bytes) = false := by
      rw [CopyKind.source_between]
      cases hl : u.location with
      | host => rfl
      | device => simp [Orderly.inDeviceAllocation h (Keeps.mem hu) hl hs]
    simp only [hn, if_false, hdst, hsrc, Bool.false_eq_true]
    rw [← hp]
    cases hdefer : m.platform.defers (.between t.location u.location) with
    | true =>
      rw [if_pos rfl]
      refine ⟨_, rfl, (progress_enqueue h ht hu hd hs htake hgive ?_ _).imp fun _ => trivial⟩
      rw [Platform.defers_eq, Bool.and_eq_true] at hdefer
      exact hdefer.1
    | false =>
      rw [if_neg (by simp)]
      rw [hdefer] at hnow
      exact ⟨_, rfl, hnow rfl⟩

/-- A copy that is accepted is performed at once or put behind those that wait on its stream. -/
theorem copy_eq_ok {kind : CopyKind} {dst src : Pointer} {n : Nat}
    (h : m.copy kind dst src n s = .ok m') (hn : n ≠ 0) :
    m' = (if m.platform.defers kind then m.enqueue s ⟨dst, src, n⟩
      else m.runCopies [⟨dst, src, n⟩]).recordCopy kind n := by
  unfold copy at h
  cases hp : m.platform with
  | host =>
    rw [hp] at h
    dsimp only at h
    split at h
    · cases h
    · cases h
      rfl
  | simulated devices =>
    rw [hp] at h
    dsimp only at h
    rw [if_neg hn] at h
    split at h
    · cases h
    · split at h
      · cases h
      · split at h
        · next hdefers =>
          cases h
          rw [if_pos hdefers]
        · next hdefers =>
          cases h
          rw [if_neg hdefers]

/-- A copy that is not put off is performed when it is accepted. -/
theorem copy_eq_of_not_defers {kind : CopyKind} {dst src : Pointer} {n : Nat}
    (h : m.copy kind dst src n s = .ok m') (hn : n ≠ 0) (hd : m.platform.defers kind = false) :
    m' = (m.runCopies [⟨dst, src, n⟩]).recordCopy kind n := by
  rw [copy_eq_ok h hn, hd, if_neg Bool.false_ne_true]

/-- A copy performed at once into storage that no waiting copy touches writes what can be read at
the moment. -/
theorem outlook_memory_of_runCopies (h : m.Keeps T) (ht : t ∈ T) (hf : ¬ t.use.IsFixed)
    {c : PendingCopy} (hb : c.dst.block = t.block) (hu : m.Untouched c.dst.block)
    (hm : m'.memory = (m.runCopies [c]).memory) (hq : m'.queues = m.queues) :
    m'.outlook.memory = m.outlook.memory.write c.dst (m.memory.read c.src c.bytes) := by
  have hwrite := progress_write h ht hb (m.memory.read c.src c.bytes) fun hfix => absurd hfix hf
  let m₂ : Machine := { m with memory := m.memory.write c.dst (m.memory.read c.src c.bytes) }
  refine (outlook_memory_congr (m := m₂) hm hq).trans ?_
  rw [hwrite.outlook (hu.avoided _)]
  rfl

end Machine

end DeviceBatch
