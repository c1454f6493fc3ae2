import DeviceBatch.Proofs.Outlook

/-!
# Draining queues

Doing queued work early does not change the outlook of a machine: not when one stream is waited for
(`settles_drain`), not when all queues are drained because device storage is given back
(`settles_drainAll`), in whatever order. A guard that is dropped on the way may be device storage,
so draining one queue can drain all others.

`Machine.takeQueue` is the state in the middle: the copies of a queue are done, its guards are not
dropped yet. They are then holdings of the machine as good as those of the user, which no waiting
copy touches.
-/

namespace DeviceBatch

namespace Machine

variable {m m' m'' : Machine} {T T' : List Holding} {t : Holding} {s : Stream} {q : StreamQueue}
  {es fs : List Effect}

/-- From one machine to another by effects on the outlook and no new queued work; `T` is then held
for the user. -/
structure Settles (m : Machine) (es : List Effect) (m' : Machine) (T : List Holding) : Prop where
  keeps : m'.Keeps T
  platform : m'.platform = m.platform
  outlook : m'.outlook = m.outlook.afterAll es
  pending : ∀ s c, m'.Pending s c → m.Pending s c
  strays : m'.strays = m.strays

namespace Settles

theorem refl (h : m.Keeps T) : m.Settles [] m T := ⟨h, rfl, rfl, fun _ _ hc => hc, rfl⟩

theorem trans (h : m.Settles es m' T') (h' : m'.Settles fs m'' T) :
    m.Settles (es ++ fs) m'' T where
  keeps := h'.keeps
  platform := h'.platform.trans h.platform
  outlook := by rw [h'.outlook, h.outlook, Outlook.afterAll_append]
  pending s c hc := h.pending s c (h'.pending s c hc)
  strays := h'.strays.trans h.strays

theorem untouched (h : m.Settles es m' T) {b : Nat} (hb : m.Untouched b) : m'.Untouched b :=
  fun s c hc => hb s c (h.pending s c hc)

end Settles

/-! ## Giving back storage that nothing waits for -/

theorem Keeps.orderly_cons (h : m.Keeps (t :: T)) : m.Orderly (t :: (T ++ m.queues.kept)) := h

/-- Storage is taken back if no waiting copy touches it. -/
theorem settles_releaseIdle (h : m.Keeps (t :: T)) (hu : m.Untouched t.block) :
    m.Settles [.free t.block] (m.releaseIdle t.allocation) T ∧
      (m.releaseIdle t.allocation).queues = m.queues := by
  obtain ⟨m', hr, ho, hp, hm, hq, hs, hstrays⟩ := h.orderly_cons.reclaim hu
  have hb : t.allocation.bytes ≠ 0 := h.nonempty t List.mem_cons_self
  have heq : m.releaseIdle t.allocation = m' := by
    unfold releaseIdle
    rw [if_neg hb, hr]
  rw [heq]
  refine ⟨⟨?_, hp, ?_, ?_, hstrays⟩, hq⟩
  · show m'.Orderly (T ++ m'.queues.kept)
    rwa [hq]
  · have hfree : m'.settled = m.settled.free t.block := by
      unfold settled
      rw [hm, hq]
      refine Memory.run_free _ fun c hc => ?_
      obtain ⟨s, hs⟩ := mem_copies_iff.mp hc
      exact hu s c hs
    simp only [outlook, hfree, hq, hs, Outlook.afterAll_cons, Outlook.afterAll_nil, Outlook.after,
      Stats.recordDeallocation, Memory.freeAll_free]
  · intro s c hc
    unfold Pending at hc ⊢
    rwa [hq] at hc

/-! ## A queue that is taken away -/

/-- The copies of a queue done, which is no longer among the queues; its guards are still there. -/
def takeQueue (m : Machine) (s : Stream) (q : StreamQueue) : Machine :=
  { m with queues := m.queues.remove s }.runCopies q.copies

theorem pending_takeQueue {r : Stream} {c : PendingCopy} (h : (m.takeQueue s q).Pending r c) :
    m.Pending r c ∧ r ≠ s := by
  obtain ⟨q', hq', hc⟩ := h
  obtain ⟨hmem, hne⟩ := List.mem_filter.mp hq'
  exact ⟨⟨q', hmem, hc⟩, of_decide_eq_true hne⟩

/-- The guards of a queue that is taken away are held in their own right. -/
theorem Keeps.takeQueue (h : m.Keeps T) (hq : m.queues.lookup s = some q) :
    (m.takeQueue s q).Keeps (q.kept s ++ T) := by
  obtain ⟨l, r, hsplit, hrem⟩ := Queues.split_of_lookup hq h.streams
  have hmid : ({ m with queues := m.queues.remove s } : Machine).Orderly
      (T ++ m.queues.kept) := by
    refine Orderly.withQueues h ?_ (fun u p hp c hc => ⟨p, (List.mem_filter.mp hp).1, hc⟩) ?_
    · exact (List.filter_sublist.map _).nodup h.streams
    · intro hw
      rw [h.waits hw]
      rfl
  refine (hmid.runCopies q.copies).perm ?_
  show (T ++ m.queues.kept).Perm (q.kept s ++ T ++ (m.queues.remove s).kept)
  rw [hrem, hsplit, Queues.kept_append, Queues.kept_append, Queues.kept_cons]
  refine List.perm_iff_count.mpr fun u => ?_
  simp only [List.count_append]
  omega

/-- The copies of a queue are performed on live storage. -/
theorem Keeps.strays_takeQueue (h : m.Keeps T) (hq : m.queues.lookup s = some q) :
    (m.takeQueue s q).strays = m.strays := by
  have hmem : (s, q) ∈ m.queues := by
    obtain ⟨l, r, hsplit, -⟩ := Queues.split_of_lookup hq h.streams
    rw [hsplit]
    simp
  exact strays_runCopies fun c hc => h.isLive (h.served s c ⟨q, hmem, hc⟩)

/-- A copy that waits on another stream does not touch what a guard keeps alive. -/
theorem Keeps.untouched_takeQueue (h : m.Keeps T) (hq : m.queues.lookup s = some q)
    (ht : t ∈ q.kept s) : (m.takeQueue s q).Untouched t.block := by
  intro r c hc htouch
  obtain ⟨hp, hne⟩ := pending_takeQueue hc
  have hmem : t ∈ T ++ m.queues.kept := by
    obtain ⟨l, l', hsplit, -⟩ := Queues.split_of_lookup hq h.streams
    rw [hsplit, Queues.kept_append, Queues.kept_cons]
    simp [ht]
  have huse : t.use = .bound s := by
    obtain ⟨g, -, hg⟩ := List.mem_filterMap.mp ht
    exact (Guard.holding?_eq_some.mp hg).2.2
  exact hne (h.stream_of_touches hmem hp htouch (.inl huse)).symm

/-- Performing the copies of one queue ahead of the others leaves only its guards to be dropped. -/
theorem Keeps.outlook_takeQueue (h : m.Keeps T) (hq : m.queues.lookup s = some q) :
    m.outlook = (m.takeQueue s q).outlook.afterAll
      (((q.kept s).map Holding.block).map .free) := by
  have hind : ∀ c ∈ q.copies, ∀ u r, (u, r) ∈ m.queues → u ≠ s → ∀ d ∈ r.copies,
      c.Independent d := by
    intro c hc u r hr hne d hd
    obtain ⟨l, l', hsplit, -⟩ := Queues.split_of_lookup hq h.streams
    have hmem : (s, q) ∈ m.queues := by rw [hsplit]; simp
    exact h.independent (h.served s c ⟨q, hmem, hc⟩) (h.served u d ⟨r, hr, hd⟩) (Ne.symm hne)
  have hrun : (m.takeQueue s q).settled = m.settled :=
    run_copies_remove m.memory hq h.streams hind
  have hkept : ∀ b, b ∈ m.queues.kept.map Holding.block ↔
      b ∈ (m.queues.remove s).kept.map Holding.block ++ (q.kept s).map Holding.block := by
    obtain ⟨l, r, hsplit, hrem⟩ := Queues.split_of_lookup hq h.streams
    intro b
    rw [hrem, hsplit, Queues.kept_append, Queues.kept_append, Queues.kept_cons]
    simp only [List.map_append, List.mem_append]
    grind
  rw [Outlook.afterAll_free]
  unfold outlook
  rw [hrun, Memory.freeAll_congr _ hkept, Memory.freeAll_append]
  rfl

/-! ## Dropping guards -/

/-- Guards are dropped one by one, if each can be dropped while no waiting copy touches it. -/
theorem settles_guards {drop : Machine → Guard → Machine}
    (hdrop : ∀ {m : Machine} {T : List Holding} {t : Holding}, m.Keeps (t :: T) →
      m.Untouched t.block → m.Settles [.free t.block] (drop m (.storage t.allocation)) T)
    (hskip : ∀ (m : Machine) (g : Guard), g.holding? s = none → drop m g = m) (gs : List Guard)
    (h : m.Keeps (gs.filterMap (Guard.holding? s) ++ T))
    (hu : ∀ t ∈ gs.filterMap (Guard.holding? s), m.Untouched t.block) :
    m.Settles (((gs.filterMap (Guard.holding? s)).map Holding.block).map .free)
      (gs.foldl drop m) T := by
  induction gs generalizing m with
  | nil => exact .refl h
  | cons g gs ih =>
    rw [List.foldl_cons]
    cases hg : g.holding? s with
    | none =>
      rw [List.filterMap_cons_none hg] at h hu ⊢
      rw [hskip m g hg]
      exact ih h hu
    | some t =>
      rw [List.filterMap_cons_some hg] at h hu ⊢
      have hfirst := hdrop h (hu t List.mem_cons_self)
      rw [(Guard.holding?_eq_some.mp hg).1]
      exact hfirst.trans (ih hfirst.keeps fun u hu' =>
        hfirst.untouched (hu u (List.mem_cons_of_mem _ hu')))

/-- A queue is drained by performing its copies and dropping its guards. -/
theorem settles_queue (drop : Machine → Guard → Machine)
    (hdrop : ∀ {m : Machine} {T : List Holding} {t : Holding}, m.Keeps (t :: T) →
      m.Untouched t.block → m.Settles [.free t.block] (drop m (.storage t.allocation)) T)
    (hskip : ∀ (m : Machine) (g : Guard), g.holding? s = none → drop m g = m)
    (h : m.Keeps T) (hq : m.queues.lookup s = some q) :
    m.Settles [] (q.guards.foldl drop (m.takeQueue s q)) T ∧
      ∀ c, ¬ (q.guards.foldl drop (m.takeQueue s q)).Pending s c := by
  have hdone := settles_guards hdrop hskip q.guards (h.takeQueue hq)
    fun t ht => h.untouched_takeQueue hq ht
  refine ⟨⟨hdone.keeps, hdone.platform, ?_, fun r c hc =>
    (pending_takeQueue (hdone.pending r c hc)).1, hdone.strays.trans (h.strays_takeQueue hq)⟩,
    fun c hc => (pending_takeQueue (hdone.pending s c hc)).2 rfl⟩
  rw [hdone.outlook, Outlook.afterAll_nil, h.outlook_takeQueue hq]
  rfl

/-! ## All queues -/

theorem bytes_of_holding?_eq_none {a : Allocation} (h : (Guard.storage a).holding? s = none) :
    a.bytes = 0 := by
  by_contra hb
  rw [Guard.holding?, if_neg hb] at h
  cases h

/-- Nothing is given back when there is no storage to give back. -/
theorem dropGuardIdle_of_none {g : Guard} (h : g.holding? s = none) : m.dropGuardIdle g = m := by
  cases g with
  | token name => rfl
  | storage a => exact if_pos (bytes_of_holding?_eq_none h)

theorem dropGuard_of_none {g : Guard} (h : g.holding? s = none) : m.dropGuard g = m := by
  cases g with
  | token name => rfl
  | storage a => exact if_pos (bytes_of_holding?_eq_none h)

/-! Giving storage back does not look at the queues. -/

theorem reclaim_withQueues (m : Machine) (qs : Queues) (a : Allocation) :
    ({ m with queues := qs }).reclaim a =
      (m.reclaim a).map fun m => { m with queues := qs } := by
  obtain ⟨platform, memory, live, used, queues, stats, metrics, events, strays⟩ := m
  unfold reclaim
  cases a.location with
  | host => rfl
  | device =>
    cases platform with
    | host => rfl
    | simulated devices =>
      dsimp only
      split <;> rfl

theorem releaseIdle_withQueues (m : Machine) (qs : Queues) (a : Allocation) :
    ({ m with queues := qs }).releaseIdle a = { m.releaseIdle a with queues := qs } := by
  unfold releaseIdle
  rw [reclaim_withQueues]
  split
  · rfl
  · cases m.reclaim a <;> rfl

theorem drainIdle_withQueues (m : Machine) (qs : Queues) (q : StreamQueue) :
    ({ m with queues := qs }).drainIdle q = { m.drainIdle q with queues := qs } := by
  have hguards : ∀ (gs : List Guard) (m : Machine), gs.foldl dropGuardIdle { m with queues := qs } =
      { gs.foldl dropGuardIdle m with queues := qs } := by
    intro gs
    induction gs with
    | nil => exact fun m => rfl
    | cons g gs ih =>
      intro m
      have hg : dropGuardIdle { m with queues := qs } g =
          { m.dropGuardIdle g with queues := qs } := by
        cases g with
        | token name => rfl
        | storage a => exact releaseIdle_withQueues m qs a
      rw [List.foldl_cons, List.foldl_cons, hg, ih]
  exact hguards q.guards (m.runCopies q.copies)

/-! No queue comes up while queues are drained. -/

theorem queues_releaseIdle (m : Machine) (a : Allocation) :
    (m.releaseIdle a).queues = m.queues := by
  have h := congrArg Machine.queues (releaseIdle_withQueues m m.queues a)
  exact h

theorem queues_dropGuardIdle (m : Machine) (g : Guard) : (m.dropGuardIdle g).queues = m.queues := by
  cases g with
  | token name => rfl
  | storage a => exact queues_releaseIdle m a

theorem queues_drainAll (m : Machine) : m.drainAll.queues = [] := by
  have hfold : ∀ (qs : List StreamQueue) (m : Machine), m.queues = [] →
      (qs.foldl drainIdle m).queues = [] := by
    intro qs
    induction qs with
    | nil => exact fun m hm => hm
    | cons q qs ih =>
      intro m hm
      have hq := congrArg Machine.queues (drainIdle_withQueues m m.queues q)
      exact ih (m.drainIdle q) (hq.trans hm)
  exact hfold _ _ rfl

/-! Device storage is given back when all queued work is done, or refused then. -/

theorem deallocate_of_reclaim {a : Allocation} (ha : a.location = .device)
    (h : m.drainAll.reclaim a = .ok m') : deallocate a m = .ok () m' := by
  unfold deallocate
  simp only [settleFor, ha, h]

theorem deallocate_of_refused {a : Allocation} {e : Error} (ha : a.location = .device)
    (h : m.drainAll.reclaim a = .error e) : deallocate a m = .error e m.drainAll := by
  unfold deallocate
  simp only [settleFor, ha, h]

theorem queues_dropGuard (m : Machine) (g : Guard) : (m.dropGuard g).queues ⊆ m.queues := by
  cases g with
  | token name => exact List.Subset.refl _
  | storage a =>
    show (m.release a).queues ⊆ m.queues
    unfold release settleFor
    split
    · exact List.Subset.refl _
    · rw [queues_releaseIdle]
      cases a.location with
      | host => exact List.Subset.refl _
      | device => rw [queues_drainAll]; exact List.nil_subset _

theorem queues_dropGuards (gs : List Guard) (m : Machine) :
    (gs.foldl dropGuard m).queues ⊆ m.queues := by
  induction gs generalizing m with
  | nil => exact List.Subset.refl _
  | cons g gs ih => exact List.Subset.trans (ih (m.dropGuard g)) (queues_dropGuard m g)

/-- After its work is done a stream has no queue. -/
theorem queues_drain (m : Machine) (s : Stream) : (m.drain s).queues ⊆ m.queues.remove s := by
  unfold drain
  cases hq : m.queues.lookup s with
  | none =>
    intro p hp
    have hne := List.lookup_eq_none_iff.mp hq p hp
    exact List.mem_filter.mpr ⟨hp, decide_eq_true (Ne.symm (by simpa using hne))⟩
  | some q => exact queues_dropGuards q.guards _

/-- Draining all queues does what is queued and changes nothing in the end. -/
theorem settles_drainAll (h : m.Keeps T) :
    m.Settles [] m.drainAll T ∧ m.drainAll.queues = [] := by
  induction hqs : m.queues generalizing m with
  | nil =>
    have heq : m.drainAll = m := by
      unfold drainAll
      rw [hqs]
      obtain ⟨platform, memory, live, used, queues, stats, metrics, events, strays⟩ := m
      cases hqs
      rfl
    rw [heq]
    exact ⟨.refl h, hqs⟩
  | cons p rest ih =>
    obtain ⟨s, q⟩ := p
    have hq : m.queues.lookup s = some q := by rw [hqs]; simp
    -- Streams have one queue each, so that of the first stream stands in front only.
    have hrem : m.queues.remove s = rest := by
      have hn := h.streams
      rw [hqs, List.map_cons, List.nodup_cons] at hn
      rw [hqs]
      unfold Queues.remove
      rw [List.filter_cons_of_neg (by simp), List.filter_eq_self]
      intro p hp
      simpa using fun heq : p.1 = s => hn.1 (List.mem_map.mpr ⟨p, hp, heq⟩)
    have hfirst := (settles_queue _ (fun h hu => (settles_releaseIdle h hu).1)
      (fun m g hg => dropGuardIdle_of_none hg) h hq).1
    have hn : q.guards.foldl dropGuardIdle (m.takeQueue s q) =
        { m.drainIdle q with queues := rest } := by
      rw [← drainIdle_withQueues, ← hrem]
      rfl
    rw [hn] at hfirst
    have hall : m.drainAll = ({ m.drainIdle q with queues := rest } : Machine).drainAll := by
      unfold drainAll
      rw [hqs, List.map_cons, List.foldl_cons, drainIdle_withQueues]
    obtain ⟨hrest, hnone⟩ := ih hfirst.keeps rfl
    rw [hall]
    exact ⟨hfirst.trans hrest, hnone⟩

/-! ## One queue -/

/-- Host storage is given back if no waiting copy touches it; device storage waits for all of
them. -/
theorem settles_release (h : m.Keeps (t :: T))
    (hu : t.location = .host → m.Untouched t.block) :
    m.Settles [.free t.block] (m.release t.allocation) T := by
  have hb : t.allocation.bytes ≠ 0 := h.nonempty t List.mem_cons_self
  unfold release
  rw [if_neg hb]
  cases hl : t.location with
  | host =>
    have hl' : t.allocation.location = .host := hl
    rw [hl']
    exact (settles_releaseIdle h (hu hl)).1
  | device =>
    have hl' : t.allocation.location = .device := hl
    rw [hl']
    obtain ⟨hall, hnone⟩ := settles_drainAll h
    refine hall.trans (settles_releaseIdle hall.keeps ?_).1
    rintro s c ⟨q, hq, -⟩
    rw [hnone] at hq
    cases hq

theorem Keeps.emit (h : m.Keeps T) (e : Event) : (m.emit e).Keeps T := Orderly.emit h e

/-- Doing the work of one stream changes nothing in the end, and none of it is left. -/
theorem settles_drain (h : m.Keeps T) (s : Stream) :
    m.Settles [] (m.drain s) T ∧ ∀ c, ¬ (m.drain s).Pending s c := by
  unfold drain
  cases hq : m.queues.lookup s with
  | none =>
    refine ⟨.refl h, ?_⟩
    rintro c ⟨q, hmem, -⟩
    simpa using List.lookup_eq_none_iff.mp hq _ hmem
  | some q =>
    have hq' : (m.emit (.drainedStream s q.copies.length)).queues.lookup s = some q := hq
    obtain ⟨hdone, hnone⟩ := settles_queue dropGuard
      (fun h hu => settles_release h fun _ => hu) (fun m g hg => dropGuard_of_none hg)
      (h.emit (.drainedStream s q.copies.length)) hq'
    exact ⟨⟨hdone.keeps, hdone.platform, hdone.outlook, hdone.pending, hdone.strays⟩, hnone⟩

end Machine

end DeviceBatch
