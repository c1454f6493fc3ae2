import DeviceBatch.Proofs.Holdings

/-!
# Giving storage out and taking it back

What keeps a machine orderly: writing into blocks, adding a copy that respects the storage in use,
taking queues away, giving out a new block and taking back one that no waiting copy touches. Storage
in use is never refused when it is given back (`Orderly.reclaim`).
-/

namespace DeviceBatch

/-- The error says that storage was not given out. -/
def Error.IsAllocation (e : Error) : Prop :=
  ∃ bytes location device fault, e = .allocation bytes location device fault

namespace Machine

variable {m m' : Machine} {T T' : List Holding} {t : Holding}

/-- Copies on live storage are no strays. -/
theorem strays_runCopies {cs : List PendingCopy} (h : ∀ c ∈ cs, c.isLive m.memory = true) :
    (m.runCopies cs).strays = m.strays := by
  have hnone : cs.filter (fun c => !c.isLive m.memory) = [] :=
    List.filter_eq_nil_iff.mpr fun c hc => by simp [h c hc]
  show m.strays ++ cs.filter _ = m.strays
  rw [hnone, List.append_nil]

namespace Orderly

/-! ## Memory and queues -/

/-- Of the memory only the lengths of the blocks matter. -/
theorem withMemory (h : m.Orderly T) {memory : Memory}
    (hl : ∀ b, (memory.block? b).map List.length = (m.memory.block? b).map List.length) :
    { m with memory }.Orderly T where
  streams := h.streams
  served := h.served
  distinct := h.distinct
  occupied t ht := (hl t.block).trans (h.occupied t ht)
  nonempty := h.nonempty
  placed := h.placed
  table := h.table
  used := h.used
  counted := h.counted
  liveBytes := h.liveBytes
  waits := h.waits

theorem runCopies (h : m.Orderly T) (cs : List PendingCopy) : (m.runCopies cs).Orderly T :=
  (h.withMemory (Memory.length_block?_run m.memory cs)).congr rfl rfl rfl rfl rfl rfl rfl rfl

/-- Other queues, whose copies waited before. -/
theorem withQueues (h : m.Orderly T) {qs : Queues} (hn : (qs.map Prod.fst).Nodup)
    (hsub : ∀ s q, (s, q) ∈ qs → ∀ c ∈ q.copies, m.Pending s c)
    (hw : m.platform.isDeferred = false → qs = []) : { m with queues := qs }.Orderly T where
  streams := hn
  served := by
    rintro s c ⟨q, hq, hc⟩
    exact h.served s c (hsub s q hq c hc)
  distinct := h.distinct
  occupied := h.occupied
  nonempty := h.nonempty
  placed := h.placed
  table := h.table
  used := h.used
  counted := h.counted
  liveBytes := h.liveBytes
  waits := hw

theorem enqueue (h : m.Orderly T) {s : Stream} {c : PendingCopy} (hc : c.Served T s)
    (hd : m.platform.isDeferred = true) : (m.enqueue s c).Orderly T where
  streams := Queues.nodup_update h.streams
  served t d hp := by
    rcases pending_enqueue.mp hp with hp | ⟨rfl, rfl⟩
    · exact h.served t d hp
    · exact hc
  distinct := h.distinct
  occupied := h.occupied
  nonempty := h.nonempty
  placed := h.placed
  table := h.table
  used := h.used
  counted := h.counted
  liveBytes := h.liveBytes
  waits hf := absurd (hd.symm.trans hf) (by decide)

/-- Storage that no waiting copy touches can be put to any use. -/
theorem withUse (h : m.Orderly (t :: T)) (hu : m.Untouched t.block) (use : Use) :
    m.Orderly ({ t with use } :: T) where
  streams := h.streams
  served s c hc := by
    obtain ⟨d, hd, u, hu', hdst, hsrc, rest⟩ := h.served s c hc
    -- No waiting copy touches the holding, so each is served by the others.
    have keep : ∀ {v : Holding} {p : Pointer} {n : Nat}, v ∈ t :: T → v.Spans p n →
        (p.block = t.block → c.Touches t.block) → v ∈ T := by
      intro v p n hv hs htouch
      rcases List.mem_cons.mp hv with rfl | hv
      · exact absurd (htouch hs.1.symm) (hu s c hc)
      · exact hv
    exact ⟨d, .tail _ (keep hd hdst .inl), u, .tail _ (keep hu' hsrc .inr), hdst, hsrc, rest⟩
  distinct := h.distinct
  occupied u hu := by
    rcases List.mem_cons.mp hu with rfl | hu
    · exact h.occupied t List.mem_cons_self
    · exact h.occupied u (.tail _ hu)
  nonempty u hu := by
    rcases List.mem_cons.mp hu with rfl | hu
    · exact h.nonempty t List.mem_cons_self
    · exact h.nonempty u (.tail _ hu)
  placed u hu := by
    rcases List.mem_cons.mp hu with rfl | hu
    · exact h.placed t List.mem_cons_self
    · exact h.placed u (.tail _ hu)
  table := h.table
  used := h.used
  counted := h.counted
  liveBytes := h.liveBytes
  waits := h.waits

end Orderly

/-! ## New storage -/

/-- What a platform has done when it gives out a block. -/
structure Allocated (m : Machine) (bytes : Nat) (location : Location) (device : Nat)
    (m' : Machine) : Prop where
  platform : m'.platform = m.platform
  memory : m'.memory = m.memory.alloc (List.replicate bytes 0)
  queues : m'.queues = m.queues
  stats : m'.stats = m.stats.recordAllocation bytes
  metrics : m'.metrics = m.metrics.recordAllocation location bytes
  events : m'.events = m.events
  strays : m'.strays = m.strays
  /-- Device storage is entered into the table, host storage is not. -/
  table : location = .host ∧ m'.live = m.live ∧ m'.used = m.used ∨
    location = .device ∧ ∃ used, m.used[device]? = some used ∧
      m'.live = m.live ++ [⟨m.memory.next, bytes, device⟩] ∧
      m'.used = m.used.set device (used + bytes)

theorem hostBlock_eq_ok {bytes block : Nat} (h : m.hostBlock bytes = .ok (block, m')) :
    bytes ≠ 0 ∧ block = m.memory.next ∧
      m' = { m with memory := m.memory.alloc (List.replicate bytes 0) } := by
  unfold hostBlock at h
  split at h
  · cases h
  · next hb =>
    split at h
    · cases h
    · cases h
      exact ⟨hb, rfl, rfl⟩

theorem deviceBlock_eq_ok {devices : SimulatedDevices} {bytes device block : Nat}
    (h : m.deviceBlock devices bytes device = .ok (block, m')) :
    ∃ used, m.used[device]? = some used ∧ bytes ≠ 0 ∧ block = m.memory.next ∧
      m' = { m with
        memory := m.memory.alloc (List.replicate bytes 0)
        live := m.live ++ [⟨block, bytes, device⟩]
        used := m.used.set device (used + bytes) } := by
  unfold deviceBlock at h
  split at h
  · cases h
  · next used hused =>
    split at h
    · cases h
    · split at h
      · cases h
      · next block' m₁ hb =>
        obtain ⟨hne, rfl, rfl⟩ := hostBlock_eq_ok hb
        cases h
        exact ⟨used, hused, hne, rfl, rfl⟩

/-- A platform gives out the next block, which is not empty. -/
theorem allocate_eq_ok {bytes device block : Nat} {location : Location}
    (h : m.allocate bytes location device = .ok (block, m')) :
    bytes ≠ 0 ∧ block = m.memory.next ∧ m.Allocated bytes location device m' := by
  unfold allocate at h
  cases location with
  | host =>
    cases hf : m.hostBlock bytes with
    | error e => simp only [hf] at h; cases h
    | ok p =>
      obtain ⟨hne, hb, hm⟩ := hostBlock_eq_ok hf
      simp only [hf] at h
      cases h
      refine ⟨hne, hb, ?_⟩
      rw [hm]
      exact ⟨rfl, rfl, rfl, rfl, rfl, rfl, rfl, .inl ⟨rfl, rfl, rfl⟩⟩
  | device =>
    cases hp : m.platform with
    | host => simp only [hp] at h; cases h
    | simulated devices =>
      cases hf : m.deviceBlock devices bytes device with
      | error e => simp only [hp, hf] at h; cases h
      | ok p =>
        obtain ⟨used, hused, hne, hb, hm⟩ := deviceBlock_eq_ok hf
        simp only [hp, hf] at h
        cases h
        refine ⟨hne, hb, ?_⟩
        rw [hm]
        exact ⟨rfl, rfl, rfl, rfl, rfl, rfl, rfl, .inr ⟨rfl, used, hused, by rw [hb]; rfl, rfl⟩⟩

/-- Storage is the next block, if it has any bytes; nothing is asked for otherwise. -/
theorem acquire_eq_ok {bytes device : Nat} {location : Location} {a : Allocation}
    (h : acquire bytes location device m = .ok (a, m')) :
    bytes = 0 ∧ a = ⟨0, 0, location, device⟩ ∧ m' = m ∨
      bytes ≠ 0 ∧ a = ⟨m.memory.next, bytes, location, device⟩ ∧
        m.Allocated bytes location device m' := by
  unfold acquire at h
  split at h
  · cases h
  · split at h
    · cases h
    · split at h
      · next hz =>
        cases h
        exact .inl ⟨hz, rfl, rfl⟩
      · split at h
        · cases h
        · next hgiven =>
          cases h
          obtain ⟨hb, rfl, hm⟩ := allocate_eq_ok hgiven
          exact .inr ⟨hb, rfl, hm⟩

/-- What a platform has done when it takes storage back. -/
structure Reclaimed (m : Machine) (a : Allocation) (m' : Machine) : Prop where
  platform : m'.platform = m.platform
  memory : m'.memory = m.memory.free a.block
  queues : m'.queues = m.queues
  stats : m'.stats = m.stats.recordDeallocation a.bytes
  metrics : m'.metrics = m.metrics
  events : m'.events = m.events
  strays : m'.strays = m.strays
  /-- Device storage is struck from the table, host storage was not in it. -/
  table : a.location = .host ∧ m'.live = m.live ∧ m'.used = m.used ∨
    a.location = .device ∧ ∃ entry, m.live.find? (fun e => e.block == a.block) = some entry ∧
      m'.live = m.live.eraseP (fun e => e.block == a.block) ∧
      m'.used = m.used.modify entry.device (· - entry.bytes)

/-- Storage that is taken back leaves memory, and nothing else is touched but the table. -/
theorem reclaim_eq_ok {a : Allocation} (h : m.reclaim a = .ok m') : m.Reclaimed a m' := by
  unfold reclaim at h
  split at h
  · next hl =>
    cases h
    exact ⟨rfl, rfl, rfl, rfl, rfl, rfl, rfl, .inl ⟨hl, rfl, rfl⟩⟩
  · cases h
  · next hl _ =>
    split at h
    · cases h
    · next entry hentry =>
      cases h
      exact ⟨rfl, rfl, rfl, rfl, rfl, rfl, rfl, .inr ⟨hl, entry, hentry, rfl, rfl⟩⟩

theorem hostBlock_eq_error {bytes : Nat} {e : Error} (h : m.hostBlock bytes = .error e) :
    e.IsAllocation := by
  unfold hostBlock at h
  split at h
  · cases h; exact ⟨_, _, _, _, rfl⟩
  · split at h
    · cases h; exact ⟨_, _, _, _, rfl⟩
    · cases h

theorem deviceBlock_eq_error {devices : SimulatedDevices} {bytes device : Nat} {e : Error}
    (h : m.deviceBlock devices bytes device = .error e) : e.IsAllocation := by
  unfold deviceBlock at h
  split at h
  · cases h; exact ⟨_, _, _, _, rfl⟩
  · split at h
    · cases h; exact ⟨_, _, _, _, rfl⟩
    · split at h
      · next e' he => cases h; exact hostBlock_eq_error he
      · cases h

/-- All refusals of a platform to give out storage are allocation errors. -/
theorem allocate_eq_error {bytes device : Nat} {location : Location} {e : Error}
    (h : m.allocate bytes location device = .error e) : e.IsAllocation := by
  unfold allocate at h
  cases location with
  | host =>
    cases hf : m.hostBlock bytes with
    | error e' => simp only [hf] at h; cases h; exact hostBlock_eq_error hf
    | ok p => simp only [hf] at h; cases h
  | device =>
    cases hp : m.platform with
    | host => simp only [hp] at h; cases h; exact ⟨_, _, _, _, rfl⟩
    | simulated devices =>
      cases hf : m.deviceBlock devices bytes device with
      | error e' => simp only [hp, hf] at h; cases h; exact deviceBlock_eq_error hf
      | ok p => simp only [hp, hf] at h; cases h

theorem acquire_eq_error {bytes device : Nat} {location : Location} {e : Error}
    (h : acquire bytes location device m = .error e) : e.IsAllocation := by
  unfold acquire at h
  split at h
  · cases h; exact ⟨_, _, _, _, rfl⟩
  · split at h
    · cases h; exact ⟨_, _, _, _, rfl⟩
    · split at h
      · cases h
      · split at h
        · next e' he => cases h; exact allocate_eq_error he
        · cases h

/-- What is given out is below the limit of the host allocator, wherever it lies. -/
theorem lt_hostBlockLimit_of_acquire {bytes device : Nat} {location : Location} {a : Allocation}
    (h : acquire bytes location device m = .ok (a, m')) : bytes < hostBlockLimit := by
  have hhost : ∀ {m m' : Machine} {block : Nat}, m.hostBlock bytes = .ok (block, m') →
      bytes < hostBlockLimit := by
    intro m m' block hb
    unfold hostBlock at hb
    split at hb
    · cases hb
    · split at hb
      · cases hb
      · omega
  unfold acquire at h
  split at h
  · cases h
  · split at h
    · cases h
    · split at h
      · next hz =>
        rw [hz]
        decide
      · split at h
        · cases h
        · next block m₁ halloc =>
          unfold allocate at halloc
          cases location with
          | host =>
            cases hf : m.hostBlock bytes with
            | error e => simp only [hf] at halloc; cases halloc
            | ok p => exact hhost hf
          | device =>
            cases hp : m.platform with
            | host => simp only [hp] at halloc; cases halloc
            | simulated devices =>
              cases hf : m.deviceBlock devices bytes device with
              | error e => simp only [hp, hf] at halloc; cases halloc
              | ok p =>
                unfold deviceBlock at hf
                split at hf
                · cases hf
                · split at hf
                  · cases hf
                  · split at hf
                    · cases hf
                    · next hb => exact hhost hb

/-- Host storage below that limit is always given out. -/
theorem acquire_host_of_lt {bytes : Nat} (h : bytes < hostBlockLimit) (device : Nat)
    (m : Machine) : ∃ a m', acquire bytes .host device m = .ok (a, m') := by
  have hlimit : ¬ Size.storageLimit < bytes := by
    have : hostBlockLimit ≤ Size.storageLimit := by decide
    omega
  unfold acquire
  rw [if_neg hlimit, if_neg (by simp [Location.isDevice])]
  by_cases hz : bytes = 0
  · rw [if_pos hz]
    exact ⟨_, _, rfl⟩
  · have hblock : m.hostBlock bytes =
        .ok (m.memory.next, { m with memory := m.memory.alloc (List.replicate bytes 0) }) := by
      unfold hostBlock
      rw [if_neg hz, if_neg (by omega)]
    rw [if_neg hz]
    unfold allocate
    simp only [hblock]
    exact ⟨_, _, rfl⟩

/-- What is in use of every device after a block was given out. -/
theorem Orderly.used_allocated (h : m.Orderly T) {bytes device : Nat} {location : Location}
    (ha : m.Allocated bytes location device m') (use : Use) :
    m'.used = (List.range m'.platform.deviceCount).map
      (Holding.usage (⟨⟨m.memory.next, bytes, location, device⟩, use⟩ :: T)) := by
  rw [ha.platform]
  rcases ha.table with ⟨rfl, -, hu⟩ | ⟨rfl, used, hused, -, hu⟩
  · rw [hu, h.used]
    refine List.map_congr_left fun d _ => ?_
    rw [Holding.usage_cons, if_neg (by rintro ⟨hl, -⟩; cases hl), Nat.zero_add]
  · rw [hu]
    have hlen : m.used.length = m.platform.deviceCount := by simp [h.used]
    refine List.ext_getElem (by simp [hlen]) fun d hd hd' => ?_
    rw [List.length_map, List.length_range] at hd'
    have hget : ∀ x, m.used[d]? = some x → x = Holding.usage T d := by
      intro x hx
      rw [h.used, List.getElem?_map, List.getElem?_range hd'] at hx
      exact (Option.some.inj hx).symm
    rw [List.getElem_set, List.getElem_map, List.getElem_range, Holding.usage_cons]
    by_cases heq : device = d
    · subst heq
      rw [if_pos rfl, if_pos ⟨rfl, rfl⟩, hget used hused, Nat.add_comm]
      rfl
    · rw [if_neg heq, if_neg fun hc => heq hc.2, Nat.zero_add]
      exact hget _ (List.getElem?_eq_getElem _)

namespace Orderly

/-- A new block is entered among the holdings, whatever its use will be. -/
theorem allocated (h : m.Orderly T) {bytes device : Nat} {location : Location} (hb : bytes ≠ 0)
    (ha : m.Allocated bytes location device m') (use : Use) :
    m'.Orderly (⟨⟨m.memory.next, bytes, location, device⟩, use⟩ :: T) where
  streams := by rw [ha.queues]; exact h.streams
  served s c hc := by
    unfold Pending at hc
    rw [ha.queues] at hc
    exact (h.served s c hc).mono (List.subset_cons_self _ _)
  distinct := by
    rw [List.map_cons, List.nodup_cons]
    refine ⟨fun hmem => ?_, h.distinct⟩
    obtain ⟨u, hu, hub⟩ := List.mem_map.mp hmem
    exact absurd hub (Nat.ne_of_lt (h.block_lt hu))
  occupied u hu := by
    rw [ha.memory, Memory.block?_alloc]
    rcases List.mem_cons.mp hu with rfl | hu
    · simp [Holding.bytes, Holding.block]
    · rw [if_neg (Nat.ne_of_lt (h.block_lt hu))]
      exact h.occupied u hu
  nonempty u hu := by
    rcases List.mem_cons.mp hu with rfl | hu
    · exact hb
    · exact h.nonempty u hu
  placed u hu hd := by
    rw [ha.platform]
    rcases List.mem_cons.mp hu with rfl | hu
    · rcases ha.table with ⟨hl, -⟩ | ⟨-, used, hused, -⟩
      · rw [hl] at hd; cases hd
      · rw [h.used] at hused
        have hlt := (List.getElem?_eq_some_iff.mp hused).1
        rwa [List.length_map, List.length_range] at hlt
    · exact h.placed u hu hd
  table := by
    rcases ha.table with ⟨rfl, hlive, -⟩ | ⟨rfl, used, -, hlive, -⟩
    · rw [hlive]
      exact h.table
    · rw [hlive]
      exact (h.table.cons _).trans (List.perm_append_singleton _ _).symm
  used := h.used_allocated ha use
  counted := by
    rw [ha.stats, List.length_cons]
    have := h.counted
    simp only [Stats.recordAllocation]
    omega
  liveBytes := by
    rw [ha.stats, List.map_cons, List.sum_cons]
    have := h.liveBytes
    simp only [Stats.recordAllocation, Holding.bytes] at this ⊢
    omega
  waits := by rw [ha.platform, ha.queues]; exact h.waits

/-! ## Storage taken back -/

/-- The entries of different device storage are for different blocks. -/
theorem pairwise_entries (h : m.Orderly T) (b : Nat) :
    (T.filterMap Holding.entry?).Pairwise fun e e' =>
      (e.block == b) = true → (e'.block == b) = true → False := by
  have hd : T.Pairwise fun u u' => u.block ≠ u'.block := List.pairwise_map.mp h.distinct
  refine List.Pairwise.filterMap _ (fun u u' hne e he e' he' hb hb' => hne ?_) hd
  obtain ⟨-, rfl⟩ := Holding.entry?_eq_some.mp he
  obtain ⟨-, rfl⟩ := Holding.entry?_eq_some.mp he'
  exact (eq_of_beq hb).trans (eq_of_beq hb').symm

/-- Without its block, storage is no longer among the holdings. -/
theorem reclaimed (h : m.Orderly (t :: T)) (hu : m.Untouched t.block)
    (hp : m'.platform = m.platform) (hm : m'.memory = m.memory.free t.block)
    (hq : m'.queues = m.queues) (hs : m'.stats = m.stats.recordDeallocation t.bytes)
    (ht : (T.filterMap Holding.entry?).Perm m'.live)
    (hused : m'.used = (List.range m.platform.deviceCount).map (Holding.usage T)) :
    m'.Orderly T where
  streams := by rw [hq]; exact h.streams
  served s c hc := by
    unfold Pending at hc
    rw [hq] at hc
    obtain ⟨d, hd, u, hu', hdst, hsrc, rest⟩ := h.served s c hc
    refine ⟨d, List.mem_of_ne_of_mem ?_ hd, u, List.mem_of_ne_of_mem ?_ hu', hdst, hsrc, rest⟩
    · rintro rfl
      exact hu s c hc (.inl hdst.1.symm)
    · rintro rfl
      exact hu s c hc (.inr hsrc.1.symm)
  distinct := (List.nodup_cons.mp h.distinct).2
  occupied u hu' := by
    have hne : u.block ≠ t.block := fun hb =>
      (List.nodup_cons.mp h.distinct).1 (hb ▸ List.mem_map_of_mem hu')
    rw [hm, Memory.block?_free, if_neg hne]
    exact h.occupied u (.tail _ hu')
  nonempty u hu' := h.nonempty u (.tail _ hu')
  placed u hu' := by rw [hp]; exact h.placed u (.tail _ hu')
  table := ht
  used := by rw [hp]; exact hused
  counted := by
    have := h.counted
    rw [hs]
    simp only [Stats.recordDeallocation, List.length_cons] at this ⊢
    omega
  liveBytes := by
    have := h.liveBytes
    rw [hs]
    simp only [Stats.recordDeallocation, List.map_cons, List.sum_cons] at this ⊢
    omega
  waits := by rw [hp, hq]; exact h.waits

/-- Storage in use is taken back without complaint. -/
theorem reclaim (h : m.Orderly (t :: T)) (hu : m.Untouched t.block) :
    ∃ m', m.reclaim t.allocation = .ok m' ∧ m'.Orderly T ∧ m'.platform = m.platform ∧
      m'.memory = m.memory.free t.block ∧ m'.queues = m.queues ∧
      m'.stats = m.stats.recordDeallocation t.bytes ∧ m'.strays = m.strays := by
  unfold Machine.reclaim
  cases hl : t.location with
  | host =>
    have hl' : t.allocation.location = .host := hl
    have hnone : t.entry? = none := by unfold Holding.entry?; rw [hl]
    simp only [hl']
    refine ⟨_, rfl, h.reclaimed hu rfl rfl rfl rfl ?_ ?_, rfl, rfl, rfl, rfl, rfl⟩
    · have := h.table
      rwa [List.filterMap_cons_none hnone] at this
    · show m.used = _
      rw [h.used]
      refine List.map_congr_left fun d _ => ?_
      rw [Holding.usage_cons, if_neg (by rw [hl]; rintro ⟨hc, -⟩; cases hc), Nat.zero_add]
  | device =>
    have hl' : t.allocation.location = .device := hl
    have hplaced := h.placed t List.mem_cons_self hl
    have hsome : t.entry? = some ⟨t.block, t.bytes, t.device⟩ :=
      Holding.entry?_eq_some.mpr ⟨hl, rfl⟩
    have hfind := h.find?_live List.mem_cons_self hl
    cases hp : m.platform with
    | host => rw [hp] at hplaced; cases hplaced
    | simulated devices =>
      have hfind' : m.live.find? (fun e => e.block == t.allocation.block) =
          some ⟨t.block, t.bytes, t.device⟩ := hfind
      simp only [hl', hfind']
      refine ⟨_, rfl, h.reclaimed hu hp.symm rfl rfl rfl ?_ ?_, rfl, rfl, rfl, rfl, rfl⟩
      · have hperm := h.table.eraseP _ (h.pairwise_entries t.block)
        rw [List.filterMap_cons_some hsome, List.eraseP_cons_of_pos (by simp)] at hperm
        exact hperm
      · show m.used.modify t.device (· - t.bytes) = _
        have hlen : m.used.length = m.platform.deviceCount := by simp [h.used]
        refine List.ext_getElem (by simp [hlen]) fun d hd hd' => ?_
        rw [List.length_map, List.length_range] at hd'
        have hd₀ : d < m.used.length := hlen.symm ▸ hd'
        have hget : m.used[d] = Holding.usage (t :: T) d := by simp [h.used]
        rw [List.getElem_modify, List.getElem_map, List.getElem_range, hget, Holding.usage_cons]
        by_cases heq : t.device = d
        · rw [if_pos heq, if_pos ⟨hl, heq⟩]
          omega
        · rw [if_neg heq, if_neg fun hc => heq hc.2, Nat.zero_add]

end Orderly

end Machine

end DeviceBatch
