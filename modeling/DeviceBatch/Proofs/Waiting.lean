import DeviceBatch.Proofs.Moving

/-!
# What waiting for a stream sets off

The work of a stream is its copies and then its guards. To let go of a guard is to give its storage
back, and before device storage is given back all queued work is done, which lets go of more guards:
waiting, doing the work of a queue, letting go and giving back call each other. `Waiting.step` is one
call of these, with what is left to be done written out as a list.

Each step leaves less to do (`Waiting.weight_step`): a queue is taken away before its work is done,
so no guard is let go of twice. So waiting comes to an end (`Waiting.ends`), and it ends where
`Machine.drain` says, which does the same without calling itself. On the way a record is kept of the
copies that were performed and the guards that were let go of; what it says depends only on the first
guard that keeps device storage (`Machine.drain_of_host`, `Machine.drain_of_device`).
-/

namespace DeviceBatch

/-! ## Tasks and deeds -/

/-- Something that is left to be done while a stream is waited for. -/
inductive Task where
  /-- Perform the copies of a queue that has been taken away, then let go of its guards. -/
  | work (q : StreamQueue)
  | letGo (g : Guard)
  /-- Give storage back, now that nothing queued can need it. -/
  | giveBack (a : Allocation)

/-- Something that has been done while a stream was waited for. -/
inductive Deed where
  | performed (c : PendingCopy)
  | released (g : Guard)

/-- The guard keeps device storage alive. -/
def Guard.OnDevice : Guard → Prop
  | .storage a => a.bytes ≠ 0 ∧ a.location = .device
  | .token _ => False

instance (g : Guard) : Decidable g.OnDevice := by
  unfold Guard.OnDevice
  cases g <;> infer_instance

/-- What is done with a queue, if nothing comes in between. -/
def StreamQueue.deeds (q : StreamQueue) : List Deed :=
  q.copies.map .performed ++ q.guards.map .released

/-- What is done with several queues, one after the other. -/
def Queues.deeds (qs : Queues) : List Deed := qs.flatMap fun p => p.2.deeds

/-- A machine while a stream is waited for. -/
@[ext]
structure Waiting where
  machine : Machine
  tasks : List Task
  deeds : List Deed

namespace Waiting

/-- The beginning: the queue of the stream is taken away, if there is one. -/
def start (m : Machine) (s : Stream) : Waiting :=
  match m.queues.lookup s with
  | none => ⟨m, [], []⟩
  | some q =>
    ⟨{ m.emit (.drainedStream s q.copies.length) with queues := m.queues.remove s }, [.work q], []⟩

/-- The next task. Before device storage is given back all queues are taken away, and their work
becomes the next thing to do. -/
def step (w : Waiting) : Waiting :=
  match w.tasks with
  | [] => w
  | .work q :: rest =>
    ⟨w.machine.runCopies q.copies, q.guards.map .letGo ++ rest,
      w.deeds ++ q.copies.map .performed⟩
  | .letGo (.token name) :: rest => ⟨w.machine, rest, w.deeds ++ [.released (.token name)]⟩
  | .letGo (.storage a) :: rest =>
    if a.bytes = 0 then ⟨w.machine, rest, w.deeds ++ [.released (.storage a)]⟩
    else
      match a.location with
      | .host => ⟨w.machine, .giveBack a :: rest, w.deeds⟩
      | .device =>
        ⟨{ w.machine with queues := [] },
          w.machine.queues.map (fun p => .work p.2) ++ .giveBack a :: rest, w.deeds⟩
  | .giveBack a :: rest =>
    ⟨w.machine.releaseIdle a, rest, w.deeds ++ [.released (.storage a)]⟩

/-! ## Less and less is left -/

end Waiting

/-- A queue counts once for its copies and twice for each guard, which is let go of and given
back. -/
def StreamQueue.weight (q : StreamQueue) : Nat := 1 + 2 * q.guards.length

def Queues.weight (qs : Queues) : Nat := (qs.map fun p => p.2.weight).sum

def Task.weight : Task → Nat
  | work q => q.weight
  | letGo _ => 2
  | giveBack _ => 1

namespace Waiting

variable {w w' w'' : Waiting} {m m' : Machine} {rest : List Task} {done : List Deed} {s : Stream}
  {q : StreamQueue} {g : Guard}

/-- What is left to be done, in the queues and at hand. -/
def weight (w : Waiting) : Nat := w.machine.queues.weight + (w.tasks.map Task.weight).sum

theorem sum_weight_letGo (gs : List Guard) :
    ((gs.map Task.letGo).map Task.weight).sum = 2 * gs.length := by
  induction gs with
  | nil => rfl
  | cons g gs ih =>
    rw [List.map_cons, List.map_cons, List.sum_cons, ih, List.length_cons]
    show 2 + _ = _
    omega

theorem sum_weight_work (qs : Queues) :
    ((qs.map fun p => Task.work p.2).map Task.weight).sum = qs.weight := by
  rw [List.map_map]
  rfl

/-- Every step leaves less to do. -/
theorem weight_step (h : w.tasks ≠ []) : w.step.weight < w.weight := by
  obtain ⟨m, tasks, done⟩ := w
  cases tasks with
  | nil => exact absurd rfl h
  | cons task rest =>
    cases task with
    | work q =>
      simp only [weight, step, List.map_append, List.map_cons, List.sum_append, List.sum_cons,
        sum_weight_letGo, Task.weight, StreamQueue.weight]
      show m.queues.weight + _ < _
      omega
    | letGo g =>
      cases g with
      | token name =>
        simp only [weight, step, List.map_cons, List.sum_cons, Task.weight]
        omega
      | storage a =>
        simp only [weight, step]
        split
        · simp only [List.map_cons, List.sum_cons, Task.weight]
          omega
        · split
          · simp only [List.map_cons, List.sum_cons, Task.weight]
            omega
          · simp only [List.map_append, List.map_cons, List.sum_append, List.sum_cons,
              sum_weight_work, Task.weight]
            show 0 + _ < _
            omega
    | giveBack a =>
      simp only [weight, step, List.map_cons, List.sum_cons, Task.weight,
        Machine.queues_releaseIdle]
      omega

/-- Waiting comes to an end, after no more steps than there is left to do. -/
theorem ends (w : Waiting) : ∃ n ≤ w.weight, (step^[n] w).tasks = [] := by
  induction hk : w.weight using Nat.strong_induction_on generalizing w with
  | _ k ih =>
    by_cases h : w.tasks = []
    · exact ⟨0, Nat.zero_le _, h⟩
    · have hless := weight_step h
      obtain ⟨n, hn, hdone⟩ := ih w.step.weight (hk ▸ hless) w.step rfl
      exact ⟨n + 1, by omega, hdone⟩

/-! ## Where it ends -/

/-- Some steps lead from one to the other. -/
def Leads (w w' : Waiting) : Prop := ∃ n, step^[n] w = w'

theorem Leads.refl (w : Waiting) : w.Leads w := ⟨0, rfl⟩

theorem Leads.trans (h : w.Leads w') (h' : w'.Leads w'') : w.Leads w'' := by
  obtain ⟨n, rfl⟩ := h
  obtain ⟨k, rfl⟩ := h'
  exact ⟨k + n, Function.iterate_add_apply step k n w⟩

theorem Leads.of_step (h : w.step.Leads w') : w.Leads w' := by
  obtain ⟨n, rfl⟩ := h
  exact ⟨n + 1, rfl⟩

theorem Leads.single (h : w.step = w') : w.Leads w' := ⟨1, h⟩

theorem iterate_of_done (h : w.tasks = []) (n : Nat) : step^[n] w = w := by
  have hstep : w.step = w := by
    unfold step
    rw [h]
  exact Function.iterate_fixed hstep n

/-- Waiting can end in one way only. -/
theorem Leads.unique (h : w.Leads w') (h' : w.Leads w'') (hw' : w'.tasks = [])
    (hw'' : w''.tasks = []) : w' = w'' := by
  obtain ⟨n, rfl⟩ := h
  obtain ⟨k, rfl⟩ := h'
  rcases Nat.le_total n k with hle | hle
  · obtain ⟨d, rfl⟩ := Nat.exists_eq_add_of_le' hle
    rw [Function.iterate_add_apply, iterate_of_done hw']
  · obtain ⟨d, rfl⟩ := Nat.exists_eq_add_of_le' hle
    rw [Function.iterate_add_apply, iterate_of_done hw'']

/-! ## While no queue is left -/

section Runs

variable (rest : List Task) (done : List Deed)

theorem leads_giveBack (m : Machine) (a : Allocation) :
    (Waiting.mk m (.giveBack a :: rest) done).Leads
      ⟨m.releaseIdle a, rest, done ++ [.released (.storage a)]⟩ := .single rfl

theorem leads_letGo_idle (hm : m.queues = []) (g : Guard) :
    (Waiting.mk m (.letGo g :: rest) done).Leads
      ⟨m.dropGuardIdle g, rest, done ++ [.released g]⟩ := by
  cases g with
  | token name => exact .single rfl
  | storage a =>
    have hgive := leads_giveBack rest done m a
    by_cases hb : a.bytes = 0
    · refine .single ?_
      simp only [step, if_pos hb, Machine.dropGuardIdle, Machine.releaseIdle]
    · refine .of_step ?_
      simp only [step, if_neg hb]
      cases a.location with
      | host => exact hgive
      | device =>
        have hsame : { m with queues := [] } = m := by rw [← hm]
        simp only [hm, hsame]
        exact hgive

theorem leads_guards_idle (hm : m.queues = []) (gs : List Guard) :
    (Waiting.mk m (gs.map .letGo ++ rest) done).Leads
      ⟨gs.foldl Machine.dropGuardIdle m, rest, done ++ gs.map .released⟩ := by
  induction gs generalizing m done with
  | nil =>
    simp only [List.map_nil, List.nil_append, List.append_nil, List.foldl_nil]
    exact .refl _
  | cons g gs ih =>
    have hfirst := leads_letGo_idle (gs.map .letGo ++ rest) done hm g
    have hm' : (m.dropGuardIdle g).queues = [] := (Machine.queues_dropGuardIdle m g).trans hm
    have hrest := ih (done ++ [.released g]) hm'
    rw [List.append_assoc] at hrest
    exact hfirst.trans hrest

/-- A queue is done with before the next one. -/
theorem leads_work_idle (hm : m.queues = []) (q : StreamQueue) :
    (Waiting.mk m (.work q :: rest) done).Leads ⟨m.drainIdle q, rest, done ++ q.deeds⟩ := by
  have hcopies : (m.runCopies q.copies).queues = [] := hm
  have hguards := leads_guards_idle rest (done ++ q.copies.map .performed) hcopies q.guards
  rw [List.append_assoc] at hguards
  exact .of_step hguards

theorem leads_works_idle (hm : m.queues = []) (qs : Queues) :
    (Waiting.mk m (qs.map (fun p => .work p.2) ++ rest) done).Leads
      ⟨(qs.map Prod.snd).foldl Machine.drainIdle m, rest, done ++ qs.deeds⟩ := by
  induction qs generalizing m done with
  | nil =>
    show Leads _ ⟨m, rest, done ++ []⟩
    rw [List.append_nil]
    exact .refl _
  | cons p qs ih =>
    have hfirst := leads_work_idle (qs.map (fun p => .work p.2) ++ rest) done hm p.2
    have hm' : (m.drainIdle p.2).queues = [] :=
      (congrArg Machine.queues (Machine.drainIdle_withQueues m m.queues p.2)).trans hm
    have hrest := ih (done ++ p.2.deeds) hm'
    rw [List.append_assoc] at hrest
    exact hfirst.trans hrest

/-! ## While there are queues -/

/-- What does not keep device storage is let go of without a look at the queues. -/
theorem leads_letGo_host (m : Machine) (hg : ¬ g.OnDevice) :
    (Waiting.mk m (.letGo g :: rest) done).Leads
      ⟨m.dropGuard g, rest, done ++ [.released g]⟩ ∧ (m.dropGuard g).queues = m.queues := by
  cases g with
  | token name => exact ⟨.single rfl, rfl⟩
  | storage a =>
    by_cases hb : a.bytes = 0
    · have hsame : m.dropGuard (.storage a) = m := if_pos hb
      rw [hsame]
      refine ⟨.single ?_, rfl⟩
      simp only [step, if_pos hb]
    · have hhost : a.location = .host := by
        cases hl : a.location with
        | host => rfl
        | device => exact absurd ⟨hb, hl⟩ hg
      have hdrop : m.dropGuard (.storage a) = m.releaseIdle a := by
        show m.release a = _
        unfold Machine.release Machine.settleFor
        rw [if_neg hb, hhost]
      rw [hdrop]
      refine ⟨.of_step ?_, Machine.queues_releaseIdle m a⟩
      simp only [step, if_neg hb, hhost]
      exact leads_giveBack rest done m a

theorem leads_guards_host (m : Machine) {gs : List Guard} (hgs : ∀ g ∈ gs, ¬ g.OnDevice) :
    (Waiting.mk m (gs.map .letGo ++ rest) done).Leads
      ⟨gs.foldl Machine.dropGuard m, rest, done ++ gs.map .released⟩ ∧
      (gs.foldl Machine.dropGuard m).queues = m.queues := by
  induction gs generalizing m done with
  | nil =>
    simp only [List.map_nil, List.nil_append, List.append_nil, List.foldl_nil]
    exact ⟨.refl _, trivial⟩
  | cons g gs ih =>
    obtain ⟨hfirst, hq⟩ := leads_letGo_host (gs.map .letGo ++ rest) done m
      (hgs g List.mem_cons_self)
    obtain ⟨hrest, hq'⟩ := ih (done ++ [.released g]) (m.dropGuard g)
      fun g' hg' => hgs g' (List.mem_cons_of_mem _ hg')
    rw [List.append_assoc] at hrest
    exact ⟨hfirst.trans hrest, hq'.trans hq⟩

/-- To let go of device storage all queues are done with first. -/
theorem leads_letGo_device (m : Machine) (hg : g.OnDevice) :
    (Waiting.mk m (.letGo g :: rest) done).Leads
      ⟨m.dropGuard g, rest, done ++ m.queues.deeds ++ [.released g]⟩ ∧
      (m.dropGuard g).queues = [] := by
  cases g with
  | token name => exact hg.elim
  | storage a =>
    obtain ⟨hb, hl⟩ := hg
    have hdrop : m.dropGuard (.storage a) = m.drainAll.releaseIdle a := by
      show m.release a = _
      unfold Machine.release Machine.settleFor
      rw [if_neg hb, hl]
    rw [hdrop]
    refine ⟨.of_step ?_, (Machine.queues_releaseIdle _ a).trans (Machine.queues_drainAll m)⟩
    simp only [step, if_neg hb, hl]
    exact (leads_works_idle _ done rfl m.queues).trans (leads_giveBack rest _ m.drainAll a)

end Runs

/-- After the queues are done with, guards are let go of one after the other. -/
theorem foldl_dropGuard_idle (hm : m.queues = []) (gs : List Guard) :
    gs.foldl Machine.dropGuard m = gs.foldl Machine.dropGuardIdle m := by
  induction gs generalizing m with
  | nil => rfl
  | cons g gs ih =>
    have hsame : m.dropGuard g = m.dropGuardIdle g := by
      cases g with
      | token name => rfl
      | storage a =>
        have hidle : m.drainAll = m := by
          unfold Machine.drainAll
          rw [hm]
          show { m with queues := [] } = m
          rw [← hm]
        show m.release a = m.releaseIdle a
        unfold Machine.release Machine.settleFor
        by_cases hb : a.bytes = 0
        · rw [if_pos hb, Machine.releaseIdle, if_pos hb]
        · rw [if_neg hb]
          cases a.location with
          | host => rfl
          | device => simp only [hidle]
    have hm' : (m.dropGuardIdle g).queues = [] := (Machine.queues_dropGuardIdle m g).trans hm
    rw [List.foldl_cons, List.foldl_cons, hsame, ih hm']

/-! ## The work of a stream -/

/-- A stream without a queue has no work. -/
theorem leads_drain_of_none (hq : m.queues.lookup s = none) :
    (start m s).Leads ⟨m.drain s, [], []⟩ ∧ (m.drain s).queues = m.queues := by
  have hdrain : m.drain s = m := by
    unfold Machine.drain
    rw [hq]
  have hstart : start m s = ⟨m, [], []⟩ := by
    unfold start
    rw [hq]
  rw [hstart, hdrain]
  exact ⟨.refl _, rfl⟩

/-- The copies of a queue have been performed, and its guards are let go of. -/
def begun (m : Machine) (s : Stream) (q : StreamQueue) : Machine :=
  { m.emit (.drainedStream s q.copies.length) with queues := m.queues.remove s }.runCopies q.copies

theorem drain_of_lookup (hq : m.queues.lookup s = some q) :
    m.drain s = q.guards.foldl Machine.dropGuard (begun m s q) := by
  unfold Machine.drain
  rw [hq]
  rfl

theorem leads_begun (hq : m.queues.lookup s = some q) :
    (start m s).Leads
      ⟨begun m s q, q.guards.map .letGo ++ [], q.copies.map .performed⟩ := by
  have hstart : start m s =
      ⟨{ m.emit (.drainedStream s q.copies.length) with queues := m.queues.remove s }, [.work q],
        []⟩ := by
    unfold start
    rw [hq]
  rw [hstart]
  exact .single rfl

/-- If no guard keeps device storage, the queue is done with and all others are as before. -/
theorem leads_drain_of_host (hq : m.queues.lookup s = some q)
    (hgs : ∀ g ∈ q.guards, ¬ g.OnDevice) :
    (start m s).Leads ⟨m.drain s, [], q.deeds⟩ ∧ (m.drain s).queues = m.queues.remove s := by
  obtain ⟨hguards, hqueues⟩ := leads_guards_host [] (q.copies.map .performed) (begun m s q) hgs
  rw [drain_of_lookup hq]
  exact ⟨(leads_begun hq).trans hguards, hqueues⟩

/-- If some guard keeps device storage, then all other queues are done with when it is the turn of
the first such guard. -/
theorem leads_drain_of_device {before after : List Guard} (hq : m.queues.lookup s = some q)
    (hsplit : q.guards = before ++ g :: after) (hbefore : ∀ g' ∈ before, ¬ g'.OnDevice)
    (hg : g.OnDevice) :
    (start m s).Leads ⟨m.drain s, [], q.copies.map .performed ++ before.map .released ++
      (m.queues.remove s).deeds ++ (g :: after).map .released⟩ ∧ (m.drain s).queues = [] := by
  have hbegun := leads_begun hq
  rw [hsplit, List.map_append, List.map_cons, List.append_assoc] at hbegun
  obtain ⟨hhost, hqueues⟩ := leads_guards_host (.letGo g :: (after.map .letGo ++ []))
    (q.copies.map .performed) (begun m s q) hbefore
  generalize hm₁ : before.foldl Machine.dropGuard (begun m s q) = m₁ at hhost hqueues
  obtain ⟨hdevice, hnone⟩ := leads_letGo_device (after.map .letGo ++ [])
    (q.copies.map .performed ++ before.map .released) m₁ hg
  have hafter := leads_guards_idle []
    (q.copies.map .performed ++ before.map .released ++ m₁.queues.deeds ++ [.released g])
    hnone after
  have hothers : m₁.queues = m.queues.remove s := hqueues
  have hend : m.drain s = after.foldl Machine.dropGuardIdle (m₁.dropGuard g) := by
    rw [drain_of_lookup hq, hsplit, List.foldl_append, List.foldl_cons, hm₁,
      foldl_dropGuard_idle hnone]
  have hleads := ((hbegun.trans hhost).trans hdevice).trans hafter
  rw [hothers, List.append_assoc _ [_]] at hleads
  rw [hend]
  refine ⟨hleads, ?_⟩
  rw [← foldl_dropGuard_idle hnone]
  exact List.eq_nil_of_subset_nil
    (hnone ▸ Machine.queues_dropGuards after (m₁.dropGuard g))

end Waiting

/-! ## What the deeds come to -/

/-- The guard keeps storage alive, and some of it. -/
def Guard.Solid : Guard → Prop
  | .storage a => a.bytes ≠ 0
  | .token _ => False

/-- What a task gives back in the end. -/
def Task.owned : Task → Multiset Allocation
  | work q => q.owned
  | letGo g => g.owned
  | giveBack a => a.owned

def Task.Solid : Task → Prop
  | work q => ∀ g ∈ q.guards, g.Solid
  | letGo g => g.Solid
  | giveBack a => a.bytes ≠ 0

namespace Deed

/-- What a deed does to the memory: a copy is made, or a block is given up. -/
def on (memory : Memory) : Deed → Memory
  | performed c => memory.copy c.dst c.src c.bytes
  | released (.storage a) => memory.free a.block
  | released (.token _) => memory

def isRelease : Deed → Bool
  | performed _ => false
  | released _ => true

theorem foldl_on_performed (cs : List PendingCopy) (memory : Memory) :
    (cs.map performed).foldl on memory =
      cs.foldl (fun memory c => memory.copy c.dst c.src c.bytes) memory :=
  List.foldl_map

theorem countP_performed (cs : List PendingCopy) : (cs.map performed).countP isRelease = 0 :=
  List.countP_eq_zero.mpr fun d hd => by
    obtain ⟨c, -, rfl⟩ := List.mem_map.mp hd
    exact Bool.false_ne_true

end Deed

namespace Waiting

variable {w : Waiting} {m : Machine} {A : Multiset Allocation} {s : Stream}

/-- While a machine waits, its books say what the user has and what is still to be given back; the
memory is what the deeds have made of it, and each guard that was let go of is counted once. -/
structure Faithful (m : Machine) (A : Multiset Allocation) (w : Waiting) : Prop where
  balanced : w.machine.Balanced (A + w.machine.queues.owned + (w.tasks.map Task.owned).sum)
  queued : ∀ p ∈ w.machine.queues, ∀ g ∈ p.2.guards, g.Solid
  solid : ∀ task ∈ w.tasks, task.Solid
  memory : w.machine.memory = w.deeds.foldl Deed.on m.memory
  counted : w.machine.stats = { m.stats with
    deallocations := m.stats.deallocations + w.deeds.countP Deed.isRelease
    liveBytes := w.machine.stats.liveBytes }

theorem sum_owned_letGo (gs : List Guard) :
    ((gs.map Task.letGo).map Task.owned).sum = (gs.map Guard.owned).sum := by
  rw [List.map_map]
  rfl

theorem sum_owned_work (qs : Queues) :
    ((qs.map fun p => Task.work p.2).map Task.owned).sum = qs.owned := by
  rw [List.map_map]
  rfl

/-- Storage that is in the books leaves memory and is counted. -/
theorem giveBack_faithful {a : Allocation} {rest : List Task} {done : List Deed} {m' : Machine}
    (h : Faithful m A ⟨m', .giveBack a :: rest, done⟩) :
    Faithful m A ⟨m'.releaseIdle a, rest, done ++ [.released (.storage a)]⟩ := by
  have hb : a.bytes ≠ 0 := h.solid _ List.mem_cons_self
  have hbooks : m'.Balanced (a ::ₘ (A + m'.queues.owned + (rest.map Task.owned).sum)) := by
    have hbal := h.balanced
    rw [List.map_cons, List.sum_cons, Task.owned, Allocation.owned_of_ne hb] at hbal
    rw [← Multiset.singleton_add]
    convert hbal using 1
    abel
  obtain ⟨m'', hr, hbal⟩ := hbooks.reclaim
  have hreclaimed := Machine.reclaim_eq_ok hr
  have hrun : m'.releaseIdle a = m'' := by
    unfold Machine.releaseIdle
    rw [if_neg hb, hr]
  have hqueues : m''.queues = m'.queues := hreclaimed.queues
  have hcounted := h.counted
  have hbefore := h.memory
  rw [hrun]
  refine ⟨?_, ?_, fun task ht => h.solid task (List.mem_cons_of_mem _ ht), ?_, ?_⟩
  · dsimp only
    rw [hqueues]
    exact hbal
  · dsimp only
    rw [hqueues]
    exact h.queued
  · dsimp only at hbefore ⊢
    rw [hreclaimed.memory, hbefore, List.foldl_append]
    rfl
  · dsimp only at hcounted ⊢
    rw [hreclaimed.stats, List.countP_append]
    unfold Stats.recordDeallocation
    rw [hcounted]
    rfl

theorem Faithful.step (h : Faithful m A w) : Faithful m A w.step := by
  obtain ⟨m', tasks, done⟩ := w
  cases tasks with
  | nil => exact h
  | cons task rest =>
    have hrest : ∀ task ∈ rest, task.Solid := fun task ht => h.solid task (.tail _ ht)
    have hsolid := h.solid task List.mem_cons_self
    have hbal := h.balanced
    rw [List.map_cons, List.sum_cons] at hbal
    cases task with
    | work q =>
      refine ⟨?_, h.queued, ?_, ?_, ?_⟩
      · show (m'.runCopies q.copies).Balanced
          (A + m'.queues.owned + ((q.guards.map Task.letGo ++ rest).map Task.owned).sum)
        rw [List.map_append, List.sum_append, sum_owned_letGo]
        exact hbal.runCopies q.copies
      · intro task ht
        rcases List.mem_append.mp ht with ht | ht
        · obtain ⟨g, hg, rfl⟩ := List.mem_map.mp ht
          exact hsolid g hg
        · exact hrest task ht
      · show q.copies.foldl _ m'.memory = (done ++ q.copies.map Deed.performed).foldl Deed.on _
        rw [List.foldl_append, Deed.foldl_on_performed]
        have hbefore : m'.memory = done.foldl Deed.on m.memory := h.memory
        rw [hbefore]
      · show m'.stats = _
        simp only [Waiting.step, List.countP_append, Deed.countP_performed, Nat.add_zero]
        exact h.counted
    | letGo g =>
      cases g with
      | token name => exact hsolid.elim
      | storage a =>
        have hb : a.bytes ≠ 0 := hsolid
        unfold Waiting.step
        simp only [if_neg hb]
        cases a.location with
        | host =>
          refine ⟨?_, h.queued, ?_, h.memory, h.counted⟩
          · rw [List.map_cons, List.sum_cons]
            exact hbal
          · exact List.forall_mem_cons.mpr ⟨hb, hrest⟩
        | device =>
          refine ⟨?_, fun p hp => absurd hp List.not_mem_nil, ?_, h.memory, h.counted⟩
          · dsimp only
            rw [List.map_append, List.sum_append, sum_owned_work, List.map_cons, List.sum_cons]
            have hidle := hbal.withQueues []
            convert hidle using 1
            show A + 0 + _ = _
            rw [add_zero, add_assoc]
            rfl
          · intro task ht
            rcases List.mem_append.mp ht with ht | ht
            · obtain ⟨p, hp, rfl⟩ := List.mem_map.mp ht
              exact h.queued p hp
            · rcases List.mem_cons.mp ht with rfl | ht
              · exact hb
              · exact hrest task ht
    | giveBack a => exact giveBack_faithful h

theorem Faithful.iterate (h : Faithful m A w) (n : Nat) : Faithful m A (Waiting.step^[n] w) := by
  induction n generalizing w with
  | zero => exact h
  | succ n ih => exact ih h.step

/-- Waiting begins with nothing done and all that the stream keeps to be given back. -/
theorem start_faithful (h : m.Accounts A) (hsolid : ∀ p ∈ m.queues, ∀ g ∈ p.2.guards, g.Solid)
    (s : Stream) : Faithful m A (start m s) := by
  unfold start
  cases hq : m.queues.lookup s with
  | none =>
    refine ⟨?_, hsolid, fun task ht => absurd ht List.not_mem_nil, rfl, rfl⟩
    show m.Balanced (A + m.queues.owned + 0)
    rw [add_zero]
    exact h.balanced
  | some q =>
    obtain ⟨l, r, hsplit, hrem⟩ := Queues.split_of_lookup hq h.streams
    refine ⟨?_, fun p hp => hsolid p (List.mem_filter.mp hp).1, ?_, rfl, rfl⟩
    · have hsaid := (h.balanced.emit (e := .drainedStream s q.copies.length) id).withQueues
        (m.queues.remove s)
      convert hsaid using 1
      show A + (m.queues.remove s).owned + (q.owned + 0) = A + m.queues.owned
      rw [Queues.owned_remove hq h.streams]
      abel
    · intro task ht
      rw [List.mem_singleton.mp ht]
      have hmem : (s, q) ∈ m.queues := by rw [hsplit]; simp
      exact hsolid (s, q) hmem

end Waiting

/-! ## The whole of it -/

namespace Machine

variable {m : Machine} {A : Multiset Allocation} {s : Stream}

/-- Waiting for a stream whose guards keep no device storage: its queue is done with, and no other
queue is touched. -/
theorem drain_of_host (hgs : ∀ g ∈ (m.queues.get s).guards, ¬ g.OnDevice) :
    (Waiting.start m s).Leads ⟨m.drain s, [], (m.queues.get s).deeds⟩ ∧
      (m.drain s).queues = m.queues.remove s := by
  unfold Queues.get at hgs ⊢
  cases hq : m.queues.lookup s with
  | none =>
    obtain ⟨hleads, hqueues⟩ := Waiting.leads_drain_of_none hq
    refine ⟨hleads, hqueues.trans (List.filter_eq_self.mpr fun p hp => ?_).symm⟩
    have hne := List.lookup_eq_none_iff.mp hq p hp
    exact decide_eq_true (Ne.symm (by simpa using hne))
  | some q =>
    rw [hq] at hgs
    exact Waiting.leads_drain_of_host hq hgs

/-- Waiting for a stream that keeps device storage: all queues are done with, the others when it is
the turn of the first guard that keeps such storage. -/
theorem drain_of_device {before after : List Guard} {g : Guard}
    (hsplit : (m.queues.get s).guards = before ++ g :: after)
    (hbefore : ∀ g' ∈ before, ¬ g'.OnDevice) (hg : g.OnDevice) :
    (Waiting.start m s).Leads ⟨m.drain s, [], (m.queues.get s).copies.map .performed ++
      before.map .released ++ (m.queues.remove s).deeds ++ (g :: after).map .released⟩ ∧
      (m.drain s).queues = [] := by
  unfold Queues.get at hsplit ⊢
  cases hq : m.queues.lookup s with
  | none =>
    rw [hq] at hsplit
    have hlength := congrArg List.length hsplit
    simp at hlength
  | some q =>
    rw [hq] at hsplit
    exact Waiting.leads_drain_of_device hq hsplit hbefore hg

/-- One way or the other, waiting ends in the state that `drain` gives. -/
theorem leads_drain (m : Machine) (s : Stream) :
    ∃ deeds, (Waiting.start m s).Leads ⟨m.drain s, [], deeds⟩ := by
  cases hfind : (m.queues.get s).guards.find? (fun g => decide g.OnDevice) with
  | none =>
    refine ⟨_, (drain_of_host fun g hg => ?_).1⟩
    simpa using List.find?_eq_none.mp hfind g hg
  | some g =>
    obtain ⟨hg, before, after, hsplit, hbefore⟩ := List.find?_eq_some_iff_append.mp hfind
    exact ⟨_, (drain_of_device hsplit (fun g' hg' => by simpa using hbefore g' hg')
      (of_decide_eq_true hg)).1⟩

end Machine

namespace Session

/-- The books of a session agree whatever order the queues are taken in. -/
theorem accounts_reordered {platform : Platform} {device : Nat} {steps : List Step}
    (h : (start platform device).Allows steps) {qs : Queues}
    (hqs : qs.Perm (steps.foldl after (start platform device)).machine.queues) :
    ({ (steps.foldl after (start platform device)).machine with queues := qs } : Machine).Accounts
      (steps.foldl after (start platform device)).owned := by
  have hall := ((accounted_start platform device).foldl_after h).machine_zero
  have hbalanced := hall.balanced.withQueues qs
  rw [show Queues.owned (steps.foldl after (start platform device)).machine.queues =
    Queues.owned qs from (hqs.symm.map _).sum_eq] at hbalanced
  exact ⟨hbalanced, (hqs.map Prod.fst).nodup_iff.mpr hall.streams⟩

/-- Streams keep nothing but storage unless they are asked to keep something else. -/
theorem solid_after {platform : Platform} {device : Nat} {steps : List Step}
    (hlent : ∀ guard stream, Step.perform (.platform (.retain guard stream)) ∉ steps) :
    ∀ p ∈ (steps.foldl after (start platform device)).machine.queues, ∀ g ∈ p.2.guards,
      g.Solid := by
  have hgrounded := grounded_after_of (K := ∅) platform device fun step hstep => by
    cases step with
    | dropRequest | dropResponse => exact Set.Subset.rfl
    | perform c =>
      cases c with
      | buffer | batch | side => exact Set.Subset.rfl
      | platform c =>
        cases c with
        | retain guard stream => exact absurd hstep (hlent guard stream)
        | _ => exact Set.Subset.rfl
  intro p hp g hg
  have hkept : (steps.foldl after (start platform device)).machine.Retains g := ⟨p, hp, hg⟩
  cases g with
  | token name => exact absurd (hgrounded.tokens name hkept) (Set.notMem_empty name)
  | storage a => exact hgrounded.machine.guards a hkept

/-- At every moment of every session, waiting for a stream comes to an end. It performs the copies
of that stream and lets go of each of its guards, in order. If none of them keeps device storage
alive, no other queue is touched; otherwise all other queues are done with as well, when it is the
turn of the first guard that does. The memory is what these deeds make of it, one more stream was
waited for, and one more allocation has been given back for each guard. Queues have no order, so
this holds in whatever order they are taken.

Here streams keep nothing but storage, as in every session that does not ask for more. -/
theorem synchronize_reaches {platform : Platform} {device : Nat} {steps : List Step}
    (h : (start platform device).Allows steps)
    (hlent : ∀ guard stream, Step.perform (.platform (.retain guard stream)) ∉ steps)
    {qs : Queues} (hqs : qs.Perm (steps.foldl after (start platform device)).machine.queues)
    (s : Stream) :
    let m := { (steps.foldl after (start platform device)).machine with queues := qs }
    let q := m.queues.get s
    let m' := m.synchronize s
    ∃ n deeds, n ≤ (Waiting.start m s).weight ∧
      Waiting.step^[n] (Waiting.start m s) = ⟨m.drain s, [], deeds⟩ ∧
      m'.queues.get s = {} ∧
      ((∀ g ∈ q.guards, ¬ g.OnDevice) → deeds = q.deeds ∧ m'.queues = m.queues.remove s) ∧
      (∀ before g after, q.guards = before ++ g :: after → (∀ g' ∈ before, ¬ g'.OnDevice) →
        g.OnDevice →
          deeds = q.copies.map .performed ++ before.map .released ++ (m.queues.remove s).deeds ++
            (g :: after).map .released ∧
          m'.queues = []) ∧
      m'.memory = deeds.foldl Deed.on m.memory ∧
      m'.stats = { m.stats with
        synchronizations := m.stats.synchronizations + 1
        deallocations := m.stats.deallocations + deeds.countP Deed.isRelease
        liveBytes := m'.stats.liveBytes } := by
  intro m q m'
  have haccounts : m.Accounts (steps.foldl after (start platform device)).owned :=
    accounts_reordered h hqs
  have hsolid : ∀ p ∈ m.queues, ∀ g ∈ p.2.guards, g.Solid := fun p hp =>
    solid_after hlent p (hqs.mem_iff.mp hp)
  obtain ⟨n, hn, hdone⟩ := Waiting.ends (Waiting.start m s)
  have hend : ∀ {deeds}, (Waiting.start m s).Leads ⟨m.drain s, [], deeds⟩ →
      Waiting.step^[n] (Waiting.start m s) = ⟨m.drain s, [], deeds⟩ :=
    fun hleads => Waiting.Leads.unique ⟨n, rfl⟩ hleads hdone rfl
  obtain ⟨deeds, hleads⟩ := m.leads_drain s
  have hsame : ∀ {deeds'}, (Waiting.start m s).Leads ⟨m.drain s, [], deeds'⟩ →
      deeds = deeds' := fun hleads' =>
    congrArg Waiting.deeds ((hend hleads).symm.trans (hend hleads'))
  have hfaithful := (Waiting.start_faithful haccounts hsolid s).iterate n
  rw [hend hleads] at hfaithful
  refine ⟨n, deeds, hn, hend hleads, m.get_synchronize s, fun hgs => ?_,
    fun before g after hsplit hbefore hg => ?_, hfaithful.memory, ?_⟩
  · obtain ⟨hhost, hqueues⟩ := Machine.drain_of_host hgs
    exact ⟨hsame hhost, hqueues⟩
  · obtain ⟨hdevice, hqueues⟩ := Machine.drain_of_device hsplit hbefore hg
    exact ⟨hsame hdevice, hqueues⟩
  · have hcounted := hfaithful.counted
    dsimp only at hcounted
    show (m.drain s).stats.recordSynchronization = _
    unfold Stats.recordSynchronization
    rw [hcounted]
    rfl

/-- A stream that keeps device storage alive, with work on another stream. -/
def entangled : List Step := [
  .perform (.buffer (.ofList "a" .uint8 [1, 2, 3] .device 0 ⟨1⟩)),
  .perform (.buffer (.ofList "b" .uint16 [4] .device 0 ⟨2⟩)),
  .perform (.buffer (.moveTo "c" "a" .host))]

theorem allows_entangled : (start (.simulated ⟨1, 64, true⟩) 0).Allows entangled := by
  refine ⟨List.not_mem_nil, ?_, ?_, trivial⟩
  · show "b" ∉ _
    decide +kernel
  · show "c" ∉ _
    decide +kernel

/-- The first stream keeps the staging buffer of `a` and then its device storage; before that is let
go of, the copy of `b` is performed and its staging buffer is let go of. -/
theorem entangled_reaches :
    let m := (entangled.foldl after (start (.simulated ⟨1, 64, true⟩) 0)).machine
    (start (.simulated ⟨1, 64, true⟩) 0).Allows entangled ∧
    ∃ n, Waiting.step^[n] (Waiting.start m ⟨1⟩) = ⟨m.drain ⟨1⟩, [], [
      .performed ⟨⟨2, 0⟩, ⟨1, 0⟩, 3⟩,
      .performed ⟨⟨5, 0⟩, ⟨2, 0⟩, 3⟩,
      .released (.storage ⟨1, 3, .host, 0⟩),
      .performed ⟨⟨4, 0⟩, ⟨3, 0⟩, 2⟩,
      .released (.storage ⟨3, 2, .host, 0⟩),
      .released (.storage ⟨2, 3, .device, 0⟩)]⟩ ∧
      (m.synchronize ⟨1⟩).queues = [] ∧
      (m.synchronize ⟨1⟩).stats.deallocations = 3 ∧
      (m.synchronize ⟨1⟩).stats.synchronizations = 1 := by
  obtain ⟨n, deeds, -, hrun, -, -, hdevice, -, hstats⟩ :=
    synchronize_reaches allows_entangled (by simp [entangled]) (.refl _) ⟨1⟩
  have hqueues : (entangled.foldl after (start (.simulated ⟨1, 64, true⟩) 0)).machine.queues = [
      (⟨1⟩, ⟨[⟨⟨2, 0⟩, ⟨1, 0⟩, 3⟩, ⟨⟨5, 0⟩, ⟨2, 0⟩, 3⟩],
        [.storage ⟨1, 3, .host, 0⟩, .storage ⟨2, 3, .device, 0⟩]⟩),
      (⟨2⟩, ⟨[⟨⟨4, 0⟩, ⟨3, 0⟩, 2⟩], [.storage ⟨3, 2, .host, 0⟩]⟩)] := by
    decide +kernel
  have hcounted : (entangled.foldl after
      (start (.simulated ⟨1, 64, true⟩) 0)).machine.stats.deallocations = 0 ∧ (entangled.foldl after
      (start (.simulated ⟨1, 64, true⟩) 0)).machine.stats.synchronizations = 0 := by
    decide +kernel
  have hget := congrArg (Queues.get · ⟨1⟩) hqueues
  obtain ⟨hdeeds, hnone⟩ := hdevice [.storage ⟨1, 3, .host, 0⟩] (.storage ⟨2, 3, .device, 0⟩) []
    (congrArg StreamQueue.guards hget) (by decide) (by decide)
  have hall : deeds = [
      .performed ⟨⟨2, 0⟩, ⟨1, 0⟩, 3⟩,
      .performed ⟨⟨5, 0⟩, ⟨2, 0⟩, 3⟩,
      .released (.storage ⟨1, 3, .host, 0⟩),
      .performed ⟨⟨4, 0⟩, ⟨3, 0⟩, 2⟩,
      .released (.storage ⟨3, 2, .host, 0⟩),
      .released (.storage ⟨2, 3, .device, 0⟩)] := by
    rw [hdeeds, hget, hqueues]
    rfl
  refine ⟨allows_entangled, n, hall ▸ hrun, hnone, ?_, ?_⟩
  · refine (congrArg Stats.deallocations hstats).trans ?_
    show _ + _ = 3
    rw [hcounted.1, hall]
    rfl
  · refine (congrArg Stats.synchronizations hstats).trans ?_
    show _ + 1 = 1
    rw [hcounted.2]

end Session

end DeviceBatch
