import DeviceBatch.Proofs.Books

/-!
# What is given back on the way

Draining a queue performs its copies and gives back what its guards keep; if device storage is among
that, all other queues are drained as well. No other storage is given back: every other block keeps
its length and its entry in the table of device allocations (`Machine.Returns`). So what the user
has stays usable whatever is waited for (`Machine.returns_drain`).

Where the guards keep host storage only, nothing but the copies of that queue is performed, and what
is read elsewhere is what these copies leave behind (`Machine.read_synchronize`).
-/

namespace DeviceBatch

/-- The entry of a block is not touched when that of another one is erased. -/
theorem find?_eraseP_block {live : List DeviceAllocation} {a k : Nat} (h : a ≠ k) :
    (live.eraseP fun e => e.block == a).find? (fun e => e.block == k) =
      live.find? fun e => e.block == k := by
  induction live with
  | nil => rfl
  | cons e rest ih =>
    by_cases he : e.block = a
    · rw [List.eraseP_cons_of_pos (by simpa using he), List.find?_cons_of_neg]
      simpa using he ▸ h
    · rw [List.eraseP_cons_of_neg (by simpa using he), List.find?_cons, List.find?_cons, ih]

namespace Queues

theorem mem_owned {qs : Queues} {a : Allocation} :
    a ∈ qs.owned ↔ ∃ p ∈ qs, a ∈ p.2.owned := by
  induction qs with
  | nil => exact ⟨fun h => absurd h (Multiset.notMem_zero a), fun ⟨_, hp, _⟩ => nomatch hp⟩
  | cons p rest ih =>
    obtain ⟨s, q⟩ := p
    rw [owned_cons, Multiset.mem_add, ih, List.exists_mem_cons_iff]

/-- Fewer queues keep less alive. -/
theorem owned_subset {qs rs : Queues} (h : qs ⊆ rs) : qs.owned ⊆ rs.owned := by
  intro a ha
  obtain ⟨p, hp, ha⟩ := mem_owned.mp ha
  exact mem_owned.mpr ⟨p, h hp, ha⟩

/-- What the queue of a stream keeps alive is kept alive by the queues. -/
theorem owned_get_subset (qs : Queues) (s : Stream) : (qs.get s).owned ⊆ qs.owned := by
  intro a ha
  unfold get at ha
  cases hq : qs.lookup s with
  | none =>
    rw [hq] at ha
    exact absurd ha (Multiset.notMem_zero a)
  | some q =>
    rw [hq] at ha
    obtain ⟨l, r, rfl, -⟩ := List.lookup_eq_some_iff.mp hq
    exact mem_owned.mpr ⟨(s, q), by simp, ha⟩

end Queues

namespace Machine

variable {m m' m'' : Machine} {X Y : Multiset Allocation} {a : Allocation} {k : Nat}

/-- Of the storage at most `X` is given back: all other blocks keep their length and their entry in
the table, and nothing but what is given back is counted. -/
structure Returns (m : Machine) (X : Multiset Allocation) (m' : Machine) : Prop where
  platform : m'.platform = m.platform
  next : m'.memory.next = m.memory.next
  /-- There are as many devices as before. -/
  devices : m'.used.length = m.used.length
  metrics : m'.metrics = m.metrics
  counted : m'.stats = { m.stats with
    deallocations := m'.stats.deallocations
    liveBytes := m'.stats.liveBytes }
  blocks : ∀ k ∉ X.map Allocation.block,
    (m'.memory.block? k).map List.length = (m.memory.block? k).map List.length
  table : ∀ k ∉ X.map Allocation.block,
    (m'.live.find? fun e => e.block == k) = m.live.find? fun e => e.block == k

namespace Returns

theorem refl (m : Machine) : m.Returns 0 m :=
  ⟨rfl, rfl, rfl, rfl, rfl, fun _ _ => rfl, fun _ _ => rfl⟩

theorem trans (h : m.Returns X m') (h' : m'.Returns Y m'') : m.Returns (X + Y) m'' where
  platform := h'.platform.trans h.platform
  next := h'.next.trans h.next
  devices := h'.devices.trans h.devices
  metrics := h'.metrics.trans h.metrics
  counted := by rw [h'.counted, h.counted]
  blocks k hk := by
    rw [Multiset.map_add, Multiset.mem_add, not_or] at hk
    exact (h'.blocks k hk.2).trans (h.blocks k hk.1)
  table k hk := by
    rw [Multiset.map_add, Multiset.mem_add, not_or] at hk
    exact (h'.table k hk.2).trans (h.table k hk.1)

theorem mono (h : m.Returns X m') (hsub : X ⊆ Y) : m.Returns Y m' where
  platform := h.platform
  next := h.next
  devices := h.devices
  metrics := h.metrics
  counted := h.counted
  blocks k hk := h.blocks k fun hmem => hk (Multiset.map_subset_map hsub hmem)
  table k hk := h.table k fun hmem => hk (Multiset.map_subset_map hsub hmem)

/-- What gives back the storage of one thing gives back that of several things. -/
theorem foldl {β : Type} {f : Machine → β → Machine} {own : β → Multiset Allocation}
    (hf : ∀ (m : Machine) b, m.Returns (own b) (f m b)) (m : Machine) (bs : List β) :
    m.Returns (bs.map own).sum (bs.foldl f m) := by
  induction bs generalizing m with
  | nil => exact .refl m
  | cons b bs ih => exact (hf m b).trans (ih (f m b))

end Returns

/-! ## Giving back -/

theorem returns_runCopies (m : Machine) (cs : List PendingCopy) : m.Returns 0 (m.runCopies cs) :=
  ⟨rfl, Memory.next_run m.memory cs, rfl, rfl, rfl,
    fun k _ => Memory.length_block?_run m.memory cs k, fun _ _ => rfl⟩

theorem returns_reclaim (h : m.reclaim a = .ok m') : m.Returns {a} m' := by
  have hblock : ∀ k ∉ Multiset.map Allocation.block {a}, a.block ≠ k := fun k hk heq =>
    hk (heq ▸ Multiset.mem_map_of_mem _ (Multiset.mem_singleton_self a))
  have hfree : ∀ k ∉ Multiset.map Allocation.block {a},
      (m.memory.free a.block).block? k = m.memory.block? k := fun k hk => by
    rw [Memory.block?_free, if_neg (Ne.symm (hblock k hk))]
  have hr := reclaim_eq_ok h
  refine ⟨hr.platform, ?_, ?_, hr.metrics, ?_, fun k hk => ?_, fun k hk => ?_⟩
  · rw [hr.memory, Memory.next_free]
  · rcases hr.table with ⟨-, -, hused⟩ | ⟨-, _, -, -, hused⟩
    · rw [hused]
    · rw [hused, List.length_modify]
  · rw [hr.stats]
    rfl
  · rw [hr.memory, hfree k hk]
  · rcases hr.table with ⟨-, hlive, -⟩ | ⟨-, -, -, hlive, -⟩
    · rw [hlive]
    · rw [hlive]
      exact find?_eraseP_block (hblock k hk)

theorem returns_releaseIdle (m : Machine) (a : Allocation) :
    m.Returns a.owned (m.releaseIdle a) := by
  unfold releaseIdle
  split
  · next hb => exact Allocation.owned_of_eq hb ▸ .refl m
  · next hb =>
    rw [Allocation.owned_of_ne hb]
    cases hr : m.reclaim a with
    | ok m' => exact returns_reclaim hr
    | error e => exact ⟨rfl, rfl, rfl, rfl, rfl, fun _ _ => rfl, fun _ _ => rfl⟩

theorem returns_dropGuardIdle (m : Machine) (g : Guard) :
    m.Returns g.owned (m.dropGuardIdle g) := by
  cases g with
  | storage a => exact returns_releaseIdle m a
  | token name => exact .refl m

theorem returns_drainIdle (m : Machine) (q : StreamQueue) : m.Returns q.owned (m.drainIdle q) :=
  zero_add q.owned ▸ (returns_runCopies m q.copies).trans
    (.foldl returns_dropGuardIdle (m.runCopies q.copies) q.guards)

theorem returns_drainAll (m : Machine) : m.Returns m.queues.owned m.drainAll := by
  have hfold := Returns.foldl returns_drainIdle { m with queues := [] } (m.queues.map Prod.snd)
  rw [List.map_map] at hfold
  exact ⟨hfold.platform, hfold.next, hfold.devices, hfold.metrics, hfold.counted, hfold.blocks,
    hfold.table⟩

theorem returns_release (m : Machine) (a : Allocation) :
    m.Returns (m.queues.owned + a.owned) (m.release a) := by
  unfold release settleFor
  split
  · exact (Returns.refl m).mono (Multiset.zero_subset _)
  · cases a.location with
    | host =>
      exact (returns_releaseIdle m a).mono (Multiset.subset_of_le (Multiset.le_add_left _ _))
    | device => exact (returns_drainAll m).trans (returns_releaseIdle _ a)

/-- Guards that are dropped give back what they keep, and what other queues keep. -/
theorem returns_dropGuards (gs : List Guard) (m : Machine) :
    m.Returns (m.queues.owned + (gs.map Guard.owned).sum) (gs.foldl dropGuard m) := by
  induction gs generalizing m with
  | nil => exact (Returns.refl m).mono (Multiset.zero_subset _)
  | cons g gs ih =>
    have hfirst : m.Returns (m.queues.owned + g.owned) (m.dropGuard g) := by
      cases g with
      | storage a => exact returns_release m a
      | token name => exact (Returns.refl m).mono (Multiset.zero_subset _)
    refine (hfirst.trans (ih _)).mono fun a ha => ?_
    have hsub := Queues.owned_subset (queues_dropGuard m g)
    rw [List.map_cons, List.sum_cons]
    simp only [Multiset.mem_add] at ha ⊢
    rcases ha with (ha | ha) | ha | ha
    · exact .inl ha
    · exact .inr (.inl ha)
    · exact .inl (hsub ha)
    · exact .inr (.inr ha)

/-! ## Waiting -/

/-- Draining a queue gives back only what queues keep alive. -/
theorem returns_drain (m : Machine) (s : Stream) : m.Returns m.queues.owned (m.drain s) := by
  unfold drain
  cases hq : m.queues.lookup s with
  | none => exact (Returns.refl m).mono (Multiset.zero_subset _)
  | some q =>
    have hdone := (returns_runCopies { m.emit (.drainedStream s q.copies.length) with
      queues := m.queues.remove s } q.copies).trans (returns_dropGuards q.guards _)
    refine (show m.Returns _ _ from ⟨hdone.platform, hdone.next, hdone.devices, hdone.metrics,
      hdone.counted, hdone.blocks, hdone.table⟩).mono fun a ha => ?_
    simp only [Multiset.mem_add] at ha
    rcases ha with ha | ha | ha
    · exact absurd ha (Multiset.notMem_zero a)
    · exact Queues.owned_subset (List.filter_subset_self _) ha
    · refine Queues.owned_get_subset m.queues s ?_
      unfold Queues.get
      rw [hq]
      exact ha

/-- No queue keeps the block alive, so none will give it back. -/
def Unkept (m : Machine) (k : Nat) : Prop := k ∉ m.queues.owned.map Allocation.block

theorem Unkept.synchronize (h : m.Unkept k) (s : Stream) : (m.synchronize s).Unkept k :=
  fun hk => h (Multiset.map_subset_map (Queues.owned_subset
    (List.Subset.trans (queues_drain m s) (List.filter_subset_self _))) hk)

/-- The queue of a stream that was waited for is empty. -/
theorem get_synchronize (m : Machine) (s : Stream) : (m.synchronize s).queues.get s = {} := by
  unfold Queues.get
  cases hq : (m.synchronize s).queues.lookup s with
  | none => rfl
  | some q =>
    obtain ⟨l, r, hqs, -⟩ := List.lookup_eq_some_iff.mp hq
    have hmem := queues_drain m s (show (s, q) ∈ (m.drain s).queues from hqs ▸ by simp)
    exact absurd rfl (of_decide_eq_true (List.mem_filter.mp hmem).2)

/-! ## What the copies of a queue leave behind -/

/-- The memory once the copies that wait for a stream have been performed. -/
def performed (m : Machine) (s : Stream) : Memory := m.memory.run (m.queues.get s).copies

/-- Host storage is given back without a look at the queues. -/
theorem block?_release_host (hl : a.location = .host) (hk : a.bytes ≠ 0 → a.block ≠ k) :
    (m.release a).memory.block? k = m.memory.block? k := by
  unfold release settleFor releaseIdle reclaim
  by_cases hb : a.bytes = 0
  · rw [if_pos hb]
  · rw [if_neg hb]
    simp only [hl, if_neg hb]
    exact (Memory.block?_free ..).trans (if_neg (Ne.symm (hk hb)))

theorem block?_dropGuards {gs : List Guard} (hgs : ∀ a, .storage a ∈ gs → a.location = .host)
    (hk : k ∉ ((gs.map Guard.owned).sum).map Allocation.block) :
    (gs.foldl dropGuard m).memory.block? k = m.memory.block? k := by
  induction gs generalizing m with
  | nil => rfl
  | cons g gs ih =>
    rw [List.map_cons, List.sum_cons, Multiset.map_add, Multiset.mem_add, not_or] at hk
    rw [List.foldl_cons, ih (fun a ha => hgs a (List.mem_cons_of_mem _ ha)) hk.2]
    cases g with
    | token name => rfl
    | storage a =>
      refine block?_release_host (hgs a List.mem_cons_self) fun hb heq => hk.1 ?_
      rw [Guard.owned, Allocation.owned_of_ne hb]
      exact heq ▸ Multiset.mem_map_of_mem _ (Multiset.mem_singleton_self a)

/-- Where a stream keeps no device storage alive, waiting for it performs its copies and no
others. -/
theorem read_synchronize {s : Stream}
    (hs : ∀ a, .storage a ∈ (m.queues.get s).guards → a.location = .host) {p : Pointer}
    (hp : m.Unkept p.block) (n : Nat) :
    (m.synchronize s).memory.read p n = (m.performed s).read p n := by
  refine Memory.read_congr ?_ n
  show (m.drain s).memory.block? p.block = _
  have hkept := fun hk => hp (Multiset.map_subset_map (Queues.owned_get_subset m.queues s) hk)
  unfold drain performed
  unfold Queues.get at hs hkept ⊢
  cases hq : m.queues.lookup s with
  | none => rfl
  | some q =>
    rw [hq] at hs hkept
    exact block?_dropGuards hs hkept

end Machine

end DeviceBatch
