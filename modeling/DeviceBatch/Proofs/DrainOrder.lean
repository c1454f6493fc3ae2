import DeviceBatch.Proofs.Addresses
import Mathlib.Data.List.Perm.Basic

/-!
# Queues have no order

Before device storage is given back all queued work is done, queue by queue, and nothing says which
queue comes first. It makes no difference (`drain_order_irrelevant`): copies of different streams do
not touch what one of them writes, so they can be performed in any order, and what the guards of one
queue give back is touched by no other stream.

`Machine.Alike` is what two such runs agree on: all but the reports. Memory and counters are the
same because the outlook is, the bytes in use because the storage that is kept is, and the tables of
live allocations because draining only takes entries out of the one that both began with.

A move or the adoption of a buffer by a tensor that fails while a copy waits for what it drops is
not among the steps to a reachable session. After it copies of two streams can meet, and then the
order matters (`failedMove_races`).
-/

namespace DeviceBatch

namespace Machine

variable {m m' : Machine} {T : List Holding} {qs qs' : Queues}

/-! ## The same outlook -/

/-- No copy of one queue depends on a copy of another. -/
def QueuesApart (qs : Queues) : Prop :=
  qs.Pairwise fun p p' => ∀ c ∈ p.2.copies, ∀ d ∈ p'.2.copies, c.Independent d

theorem Keeps.queuesApart (h : m.Keeps T) : QueuesApart m.queues := by
  have hstreams : m.queues.Pairwise fun p p' => p.1 ≠ p'.1 := List.pairwise_map.mp h.streams
  refine hstreams.imp_of_mem fun {p p'} hp hp' hne c hc d hd => ?_
  exact h.independent (h.served p.1 c ⟨p.2, hp, hc⟩) (h.served p'.1 d ⟨p'.2, hp', hd⟩) hne

/-- Queues whose copies do not depend on each other do the same in any order. -/
theorem run_copies_perm (hq : qs.Perm qs') (h : QueuesApart qs) (memory : Memory) :
    memory.run qs.copies = memory.run qs'.copies := by
  induction hq generalizing memory with
  | nil => rfl
  | cons p _ ih =>
    obtain ⟨s, q⟩ := p
    obtain ⟨-, hrest⟩ := List.pairwise_cons.mp h
    rw [Queues.copies_cons, Queues.copies_cons, Memory.run_append, Memory.run_append, ih hrest]
  | swap p p' rest =>
    obtain ⟨s, q⟩ := p
    obtain ⟨s', q'⟩ := p'
    have hfirst : ∀ c ∈ q'.copies, ∀ d ∈ q.copies, c.Independent d :=
      (List.pairwise_cons.mp h).1 (s, q) List.mem_cons_self
    simp only [Queues.copies_cons, Memory.run_append]
    rw [Memory.run_run_comm memory hfirst]
  | trans hq _ ih ih' =>
    have hsymm : ∀ {p p' : Stream × StreamQueue},
        (∀ c ∈ p.2.copies, ∀ d ∈ p'.2.copies, c.Independent d) →
          ∀ c ∈ p'.2.copies, ∀ d ∈ p.2.copies, c.Independent d :=
      fun h c hc d hd => (h d hd c hc).symm
    exact (ih h memory).trans (ih' ((hq.pairwise_iff hsymm).mp h) memory)

/-- The order of the queues does not matter for what a machine will hold. -/
theorem Keeps.outlook_reorder (h : m.Keeps T) (hq : qs.Perm m.queues) :
    ({ m with queues := qs } : Machine).outlook = m.outlook := by
  have hrun : ({ m with queues := qs } : Machine).settled = m.settled :=
    (run_copies_perm hq.symm h.queuesApart m.memory).symm
  have hkept : ∀ b, b ∈ qs.kept.map Holding.block ↔ b ∈ m.queues.kept.map Holding.block :=
    fun b => ((kept_reorder hq).map _).mem_iff
  unfold outlook
  rw [hrun, Memory.freeAll_congr _ hkept]

/-! ## The same table -/

theorem live_reclaim {a : Allocation} (h : m.reclaim a = .ok m') : m'.live.Sublist m.live := by
  rcases (reclaim_eq_ok h).table with ⟨-, hlive, -⟩ | ⟨-, -, -, hlive, -⟩
  · rw [hlive]
  · rw [hlive]
    exact List.eraseP_sublist

theorem live_releaseIdle (m : Machine) (a : Allocation) :
    (m.releaseIdle a).live.Sublist m.live := by
  unfold releaseIdle
  split
  · exact .refl _
  · cases hr : m.reclaim a with
    | ok m' => exact live_reclaim hr
    | error e => exact .refl _

theorem live_dropGuardIdle (m : Machine) (g : Guard) :
    (m.dropGuardIdle g).live.Sublist m.live := by
  cases g with
  | storage a => exact live_releaseIdle m a
  | token name => exact .refl _

theorem live_drainIdle (m : Machine) (q : StreamQueue) :
    (m.drainIdle q).live.Sublist m.live := by
  have hcopies : (m.runCopies q.copies).live.Sublist m.live := .refl _
  exact List.foldlRecOn (motive := fun m' => m'.live.Sublist m.live) q.guards dropGuardIdle hcopies
    fun m' h g _ => (live_dropGuardIdle m' g).trans h

/-- Doing queued work only takes entries out of the table. -/
theorem live_drainAll (m : Machine) : m.drainAll.live.Sublist m.live := by
  have hempty : { m with queues := [] }.live.Sublist m.live := .refl _
  exact List.foldlRecOn (motive := fun m' => m'.live.Sublist m.live) _ drainIdle hempty
    fun m' h q _ => (live_drainIdle m' q).trans h

/-- No entry stands twice in the table. -/
theorem Orderly.live_nodup (h : m.Orderly T) : m.live.Nodup := by
  refine h.table.nodup_iff.mp (List.pairwise_filterMap.mpr ?_)
  have hblocks : T.Pairwise fun t u => t.block ≠ u.block := List.pairwise_map.mp h.distinct
  refine hblocks.imp fun {t u} hne e he f hf heq => hne ?_
  obtain ⟨-, rfl⟩ := Holding.entry?_eq_some.mp he
  obtain ⟨-, rfl⟩ := Holding.entry?_eq_some.mp hf
  exact congrArg DeviceAllocation.block heq

/-! ## The same machine -/

/-- The machines agree on everything but what they have reported. -/
structure Alike (m m' : Machine) : Prop where
  platform : m.platform = m'.platform
  memory : m.memory = m'.memory
  live : m.live = m'.live
  used : m.used = m'.used
  queues : m.queues = m'.queues
  stats : m.stats = m'.stats

/-- Machines without queues that keep the same storage and have the same outlook are alike, if their
tables come from the same one. -/
theorem Keeps.alike (h : m.Keeps T) (h' : m'.Keeps T) (hq : m.queues = []) (hq' : m'.queues = [])
    (hp : m.platform = m'.platform) (ho : m.outlook = m'.outlook) {live : List DeviceAllocation}
    (hn : live.Nodup) (hl : m.live.Sublist live) (hl' : m'.live.Sublist live) :
    m.Alike m' where
  platform := hp
  memory := by
    rw [← outlook_memory_of_idle hq, ← outlook_memory_of_idle hq', ho]
  live := by
    refine (hn.perm_iff_eq_of_sublist hl hl').mp ?_
    have htable := h.table
    rw [hq] at htable
    have htable' := h'.table
    rw [hq'] at htable'
    exact htable.symm.trans htable'
  used := by rw [h.used, h'.used, hq, hq', hp]
  queues := hq.trans hq'.symm
  stats := by
    have hallocations : m.stats.allocations = m'.stats.allocations :=
      congrArg Outlook.allocations ho
    have hcounted := h.counted
    have hcounted' := h'.counted
    rw [hq] at hcounted
    rw [hq'] at hcounted'
    refine Stats.ext hallocations (by omega) ?_ (congrArg Outlook.copies ho)
      (congrArg Outlook.copiedBytes ho) (congrArg Outlook.synchronizations ho)
    rw [h.liveBytes, h'.liveBytes, hq, hq']

/-- Doing all queued work comes to the same in any order. -/
theorem Keeps.drainAll_alike (h : m.Keeps T) (hq : qs.Perm m.queues) (hq' : qs'.Perm m.queues) :
    ({ m with queues := qs } : Machine).drainAll.Alike
      ({ m with queues := qs' } : Machine).drainAll := by
  obtain ⟨hdone, hnone⟩ := settles_drainAll (h.reorder hq)
  obtain ⟨hdone', hnone'⟩ := settles_drainAll (h.reorder hq')
  refine hdone.keeps.alike hdone'.keeps hnone hnone' (hdone.platform.trans hdone'.platform.symm) ?_
    h.live_nodup (live_drainAll _) (live_drainAll _)
  rw [hdone.outlook, hdone'.outlook, h.outlook_reorder hq, h.outlook_reorder hq']

/-- Storage is taken back from machines that are alike, or refused by both. -/
theorem Alike.reclaim (h : m.Alike m') (a : Allocation) :
    (∃ e, m.reclaim a = .error e ∧ m'.reclaim a = .error e) ∨
      ∃ n n', m.reclaim a = .ok n ∧ m'.reclaim a = .ok n' ∧ n.Alike n' := by
  obtain ⟨platform, memory, live, used, queues, stats, metrics, events, strays⟩ := m
  obtain ⟨platform', memory', live', used', queues', stats', metrics', events', strays'⟩ := m'
  obtain ⟨rfl, rfl, rfl, rfl, rfl, rfl⟩ := h
  unfold Machine.reclaim
  cases a.location with
  | host => exact .inr ⟨_, _, rfl, rfl, ⟨rfl, rfl, rfl, rfl, rfl, rfl⟩⟩
  | device =>
    cases platform with
    | host => exact .inl ⟨_, rfl, rfl⟩
    | simulated devices =>
      dsimp only
      cases live.find? fun entry => entry.block == a.block with
      | none => exact .inl ⟨_, rfl, rfl⟩
      | some entry => exact .inr ⟨_, _, rfl, rfl, ⟨rfl, rfl, rfl, rfl, rfl, rfl⟩⟩

/-- Device storage is given back to the same effect whatever order the queues come in, and no queue
is left. -/
theorem Keeps.deallocate_alike (h : m.Keeps T) (hq : qs.Perm m.queues) (hq' : qs'.Perm m.queues)
    {a : Allocation} (ha : a.location = .device) :
    let ended := Action.outcome (deallocate a) { m with queues := qs }
    let ended' := Action.outcome (deallocate a) { m with queues := qs' }
    ended.1 = ended'.1 ∧ ended.2.Alike ended'.2 ∧ ended.2.queues = [] := by
  have hdone := h.drainAll_alike hq hq'
  rcases hdone.reclaim a with ⟨e, he, he'⟩ | ⟨n, n', hn, hn', halike⟩
  · rw [Action.outcome_of_error (deallocate_of_refused ha he),
      Action.outcome_of_error (deallocate_of_refused ha he')]
    exact ⟨rfl, hdone, queues_drainAll _⟩
  · rw [Action.outcome_of_ok (deallocate_of_reclaim ha hn),
      Action.outcome_of_ok (deallocate_of_reclaim ha hn')]
    exact ⟨rfl, halike, (reclaim_eq_ok hn).queues.trans (queues_drainAll _)⟩

/-- Device storage that is kept is given back. -/
theorem Keeps.deallocate_ok {t : Holding} (h : m.Keeps (t :: T)) (ht : t.location = .device) :
    (Action.outcome (deallocate t.allocation) m).1 = .ok () := by
  obtain ⟨hdone, hnone⟩ := settles_drainAll h
  have hu : m.drainAll.Untouched t.block := by
    rintro s c ⟨q, hq, -⟩
    rw [hnone] at hq
    cases hq
  obtain ⟨m', hr, -⟩ := hdone.keeps.orderly_cons.reclaim hu
  rw [Action.outcome_of_ok (deallocate_of_reclaim ht hr)]

end Machine

namespace Session

open Machine

variable {s : Session} {platform : Platform} {device : Nat} {qs qs' : Queues}

/-- In every reachable session, copies of different streams do not depend on each other, and device
storage is given back to the same effect whatever order its queues come in. And what waits is for
the storage it was issued for, wherever blocks lie.

No step to a reachable session is a move or a tensor adoption that fails and drops host storage
while a waiting copy touches it. -/
theorem drain_order_irrelevant (h : Reachable platform device s) (hq : qs.Perm s.machine.queues)
    (hq' : qs'.Perm s.machine.queues) :
    (∀ st st' c d, st ≠ st' → s.machine.Pending st c → s.machine.Pending st' d →
      c.Independent d) ∧
    (∀ a : Allocation, a.location = .device →
      let ended := Action.outcome (deallocate a) { s.machine with queues := qs }
      let ended' := Action.outcome (deallocate a) { s.machine with queues := qs' }
      ended.1 = ended'.1 ∧ ended.2.Alike ended'.2 ∧ ended.2.queues = [] ∧
        ∀ t ∈ s.holdings, t.allocation = a → ended.1 = .ok ()) ∧
    ∀ address, s.machine.memory.Placed address → s.machine.readdressed address = s.machine := by
  have hkeeps := h.sound.keeps
  refine ⟨fun st st' c d hne hc hd => hkeeps.independent (hkeeps.served st c hc)
    (hkeeps.served st' d hd) hne, fun a ha => ?_, fun _ => h.readdressed_eq⟩
  obtain ⟨hanswer, halike, hnone⟩ := hkeeps.deallocate_alike hq hq' ha
  refine ⟨hanswer, halike, hnone, ?_⟩
  rintro t ht rfl
  exact ((hkeeps.reorder hq).perm (List.perm_cons_erase ht)).deallocate_ok ha

/-- Three streams have work queued, for the two batches and for the buffer that was moved: device
storage is given back to the same effect from the first queue to the last and from the last to the
first. -/
theorem bustle_drained_backwards :
    let s := ((start (.simulated ⟨2, 64, true⟩) 0).performAll bustle).2
    Reachable (.simulated ⟨2, 64, true⟩) 0 s ∧
      (s.machine.queues.map fun p => p.2.copies.length) = [2, 2, 2] ∧
      ∃ t ∈ s.holdings, t.location = .device ∧
        let ended := Action.outcome (deallocate t.allocation) s.machine
        let ended' := Action.outcome (deallocate t.allocation)
          { s.machine with queues := s.machine.queues.reverse }
        ended.1 = .ok () ∧ ended'.1 = .ok () ∧ ended.2.Alike ended'.2 ∧ ended.2.queues = [] := by
  intro s
  have hs : Reachable (.simulated ⟨2, 64, true⟩) 0 s := reachable_bustle
  have hcopies : (s.machine.queues.map fun p => p.2.copies.length) = [2, 2, 2] := by
    decide +kernel
  have hfound : s.holdings.any (fun t => t.location = .device) = true := by decide +kernel
  clear_value s
  obtain ⟨t, ht, hdevice⟩ := List.any_eq_true.mp hfound
  have hdevice : t.location = .device := of_decide_eq_true hdevice
  obtain ⟨hanswer, halike, hnone, hok⟩ := (drain_order_irrelevant hs (.refl s.machine.queues)
    (List.reverse_perm s.machine.queues)).2.1 t.allocation hdevice
  have hended := hok t ht rfl
  exact ⟨hs, hcopies, t, ht, hdevice, hended, hanswer.symm.trans hended, halike, hnone⟩

/-- A copy of a host buffer waits, a move of the buffer fails for lack of device memory, and a copy
into another host buffer waits on another stream. -/
def rivals : List Command := [
  .buffer (.ofList "near" .uint8 [7] .host 0 .standard),
  .buffer (.copyTo "far" (.slot "near") .device 0),
  .buffer (.ofList "away" .uint8 [9] .device 0 ⟨5⟩),
  .buffer (.moveTo "moved" "near" .device),
  .buffer (.allocate "next" .uint8 1 .host 0 ⟨5⟩),
  .buffer (.copy (.slot "next") (.slot "away") 0 none)]

/-- The second host buffer may lie where the first one was. Then the copy of the first stream reads
what the other stream writes, and when device storage is given back it depends on the order of the
queues what the device buffer of the first stream holds. -/
theorem failedMove_races :
    let start := Session.start (.simulated ⟨1, 2, true⟩) 0
    let address := Memory.reusing 1 5
    let m := (start.performAll rivals).2.machine.readdressed address
    let ended (qs : Queues) :=
      Action.outcome (deallocate ⟨4, 1, .device, 0⟩) { m with queues := qs }
    start.CallerPermits address rivals ∧
      (∃ c d, m.Pending .standard c ∧ m.Pending ⟨5⟩ d ∧ c.src = d.dst) ∧
      (ended m.queues).1.isOk ∧ (ended m.queues).2.memory.block? 2 = some [0] ∧
      (ended m.queues.reverse).1.isOk ∧
      (ended m.queues.reverse).2.memory.block? 2 = some [9] := by
  intro start address m ended
  have hpermits : start.CallerPermits address rivals :=
    ⟨by decide +kernel, ⟨show Free _ "near" by decide +kernel, trivial⟩,
      by decide +kernel, ⟨show Free _ "far" by decide +kernel, trivial⟩,
      by decide +kernel, ⟨show Free _ "away" by decide +kernel, trivial⟩,
      by decide +kernel, callerPermitted_moveTo (by decide +kernel) (by decide +kernel),
      by decide +kernel, ⟨show Free _ "next" by decide +kernel, trivial⟩,
      by decide +kernel, permitted_copy (by decide) (by decide +kernel),
      show Memory.Placed address _ by decide +kernel⟩
  have hreads : (.standard, ⟨[⟨⟨2, 0⟩, ⟨5, 0⟩, 1⟩], []⟩) ∈ m.queues := by decide +kernel
  have hwrites : (⟨5⟩, ⟨[⟨⟨4, 0⟩, ⟨3, 0⟩, 1⟩, ⟨⟨5, 0⟩, ⟨4, 0⟩, 1⟩], [.storage ⟨3, 1, .host, 0⟩]⟩) ∈
      m.queues := by
    decide +kernel
  exact ⟨hpermits, ⟨_, _, ⟨_, hreads, List.mem_cons_self⟩,
      ⟨_, hwrites, List.mem_cons_of_mem _ List.mem_cons_self⟩, rfl⟩,
    by decide +kernel, by decide +kernel, by decide +kernel, by decide +kernel⟩

end Session

end DeviceBatch
