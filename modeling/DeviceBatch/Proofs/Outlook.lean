import DeviceBatch.Proofs.Storage

/-!
# What a machine will hold once its work is done

A machine keeps some holdings for its user and, in its queues, the guards. Its outlook is what its
memory will be when all queued work is done and all guards are gone, together with the counters that
waiting does not change. A machine on which nothing waits is its own outlook, so two machines with
equal outlooks, one of which defers copies, differ only in when things happen.

`Effect` lists what can happen to storage, and `Outlook.after` says what that means.
-/

namespace DeviceBatch

/-! ## What the queues keep -/

/-- The storage that a guard keeps alive for a stream. -/
def Guard.holding? (s : Stream) : Guard → Option Holding
  | .storage a => if a.bytes = 0 then none else some ⟨a, .bound s⟩
  | .token _ => none

theorem Guard.holding?_eq_some {s : Stream} {g : Guard} {t : Holding} :
    g.holding? s = some t ↔ g = .storage t.allocation ∧ t.bytes ≠ 0 ∧ t.use = .bound s := by
  obtain ⟨a, use⟩ := t
  cases g with
  | token name => simp [Guard.holding?]
  | storage b =>
    simp only [Guard.holding?, Guard.storage.injEq, Holding.bytes, Option.ite_none_left_eq_some,
      Option.some.injEq, Holding.mk.injEq]
    constructor
    · rintro ⟨hb, rfl, rfl⟩
      exact ⟨rfl, hb, rfl⟩
    · rintro ⟨rfl, hb, rfl⟩
      exact ⟨hb, rfl, rfl⟩

/-- The storage that the guards of a queue keep alive. -/
def StreamQueue.kept (s : Stream) (q : StreamQueue) : List Holding :=
  q.guards.filterMap (Guard.holding? s)

namespace Queues

/-- The storage that all queues keep alive. -/
def kept (qs : Queues) : List Holding := qs.flatMap fun p => p.2.kept p.1

@[simp] theorem kept_nil : kept [] = [] := rfl

@[simp] theorem kept_cons (s : Stream) (q : StreamQueue) (qs : Queues) :
    kept ((s, q) :: qs) = q.kept s ++ kept qs := rfl

@[simp] theorem kept_append (qs rs : Queues) : kept (qs ++ rs) = kept qs ++ kept rs :=
  List.flatMap_append

/-- Copies that are added keep nothing alive. -/
theorem kept_update_copies (s : Stream) (c : PendingCopy) (qs : Queues) :
    kept (update s (fun q => { q with copies := q.copies ++ [c] }) qs) = kept qs := by
  induction qs with
  | nil => rfl
  | cons p rest ih =>
    obtain ⟨t, q⟩ := p
    rw [update]
    split
    · rfl
    · rw [kept_cons, kept_cons, ih]

/-- A guard that is added keeps its storage alive. -/
theorem kept_update_guards (s : Stream) (g : Guard) (qs : Queues) :
    (kept (update s (fun q => { q with guards := q.guards ++ [g] }) qs)).Perm
      ((Guard.holding? s g).toList ++ kept qs) := by
  induction qs with
  | nil =>
    simp only [update, kept_cons, kept_nil, StreamQueue.kept, List.nil_append, List.append_nil]
    cases h : Guard.holding? s g <;> simp [h]
  | cons p rest ih =>
    obtain ⟨t, q⟩ := p
    rw [update]
    split
    · next h =>
      subst h
      simp only [kept_cons, StreamQueue.kept, List.filterMap_append, List.append_assoc]
      refine List.Perm.trans (List.perm_append_comm_assoc ..) ?_
      cases h : Guard.holding? s g <;> simp [h]
    · rw [kept_cons, kept_cons]
      exact (ih.append_left _).trans (List.perm_append_comm_assoc ..)

/-- Adding a guard leaves the copies as they are. -/
theorem copies_update_guards (s : Stream) (g : Guard) (qs : Queues) :
    copies (update s (fun q => { q with guards := q.guards ++ [g] }) qs) = copies qs := by
  induction qs with
  | nil => rfl
  | cons p rest ih =>
    obtain ⟨t, q⟩ := p
    rw [update]
    split
    · rfl
    · rw [copies_cons, copies_cons, ih]

theorem pending_of_update_guards {s t : Stream} {g : Guard} {qs : Queues} {q : StreamQueue}
    {c : PendingCopy} (hq : (t, q) ∈ update s (fun q => { q with guards := q.guards ++ [g] }) qs)
    (hc : c ∈ q.copies) : ∃ q', (t, q') ∈ qs ∧ c ∈ q'.copies := by
  induction qs with
  | nil =>
    obtain ⟨rfl, rfl⟩ := Prod.mk.inj (List.mem_singleton.mp hq)
    cases hc
  | cons p rest ih =>
    obtain ⟨u, r⟩ := p
    rw [update] at hq
    split at hq
    · rcases List.mem_cons.mp hq with heq | hq
      · obtain ⟨rfl, rfl⟩ := Prod.mk.inj heq
        exact ⟨r, List.mem_cons_self, hc⟩
      · exact ⟨q, List.mem_cons_of_mem _ hq, hc⟩
    · rcases List.mem_cons.mp hq with heq | hq
      · obtain ⟨rfl, rfl⟩ := Prod.mk.inj heq
        exact ⟨q, List.mem_cons_self, hc⟩
      · obtain ⟨q', hq', hc'⟩ := ih hq
        exact ⟨q', List.mem_cons_of_mem _ hq', hc'⟩

end Queues

/-- The machine holds `T` for its user, and what its guards keep alive. -/
def Machine.Keeps (m : Machine) (T : List Holding) : Prop := m.Orderly (T ++ m.queues.kept)

/-! ## Outlooks -/

/-- What can be said of a machine without regard to when its copies are performed. -/
@[ext] structure Outlook where
  memory : Memory
  allocations : Nat
  copies : Nat
  copiedBytes : Nat
  synchronizations : Nat
  deriving DecidableEq, Repr

/-- The machine once all queued work is done and all guards are gone. -/
def Machine.outlook (m : Machine) : Outlook where
  memory := m.settled.freeAll (m.queues.kept.map Holding.block)
  allocations := m.stats.allocations
  copies := m.stats.copies
  copiedBytes := m.stats.copiedBytes
  synchronizations := m.stats.synchronizations

/-- Something that happens to storage, now or later. -/
inductive Effect where
  | alloc (bytes : Nat)
  | write (p : Pointer) (bytes : List UInt8)
  | copy (c : PendingCopy)
  | free (block : Nat)
  | wait
  deriving DecidableEq, Repr

namespace Effect

/-- The block is given up or written. -/
def Changes (b : Nat) : Effect → Prop
  | write p _ => p.block = b
  | copy c => c.dst.block = b
  | free b' => b' = b
  | alloc _ | wait => False

/-- Bytes of the block are copied from or to. -/
def CopiesAt (b : Nat) : Effect → Prop
  | copy c => c.Touches b
  | _ => False

/-- Queued work may be done on this occasion. -/
def MaySettle : Effect → Prop
  | free _ | wait => True
  | _ => False

end Effect

namespace Outlook

/-- What becomes of an outlook. -/
def after (o : Outlook) : Effect → Outlook
  | .alloc n =>
    { o with memory := o.memory.alloc (List.replicate n 0), allocations := o.allocations + 1 }
  | .write p bytes => { o with memory := o.memory.write p bytes }
  | .copy c =>
    { o with
      memory := o.memory.copy c.dst c.src c.bytes
      copies := o.copies + 1
      copiedBytes := o.copiedBytes + c.bytes }
  | .free b => { o with memory := o.memory.free b }
  | .wait => { o with synchronizations := o.synchronizations + 1 }

/-- What becomes of an outlook by one effect after the other. -/
def afterAll (o : Outlook) (es : List Effect) : Outlook := es.foldl after o

@[simp] theorem afterAll_nil (o : Outlook) : o.afterAll [] = o := rfl

@[simp] theorem afterAll_cons (o : Outlook) (e : Effect) (es : List Effect) :
    o.afterAll (e :: es) = (o.after e).afterAll es := rfl

@[simp] theorem afterAll_append (o : Outlook) (es fs : List Effect) :
    o.afterAll (es ++ fs) = (o.afterAll es).afterAll fs := List.foldl_append ..

/-- A block that is neither given up nor written is as before; new blocks come at the end. -/
theorem block?_after {o : Outlook} {e : Effect} {b : Nat} (h : ¬ e.Changes b)
    (hb : b < o.memory.next) :
    (o.after e).memory.block? b = o.memory.block? b ∧ b < (o.after e).memory.next := by
  cases e with
  | alloc n =>
    refine ⟨?_, ?_⟩
    · show (o.memory.alloc _).block? b = _
      rw [Memory.block?_alloc, if_neg (Nat.ne_of_lt hb)]
    · show b < (o.memory.alloc _).next
      rw [Memory.next_alloc]
      omega
  | write p bytes =>
    exact ⟨Memory.block?_write_of_ne _ _ _ (Ne.symm h), (Memory.next_write ..).symm ▸ hb⟩
  | copy c => exact ⟨Memory.block?_copy_of_ne _ (Ne.symm h), (Memory.next_copy ..).symm ▸ hb⟩
  | free b' =>
    refine ⟨?_, (Memory.next_free ..).symm ▸ hb⟩
    show (o.memory.free b').block? b = _
    rw [Memory.block?_free, if_neg (Ne.symm h)]
  | wait => exact ⟨rfl, hb⟩

theorem block?_afterAll {o : Outlook} {es : List Effect} {b : Nat}
    (h : ∀ e ∈ es, ¬ e.Changes b) (hb : b < o.memory.next) :
    (o.afterAll es).memory.block? b = o.memory.block? b := by
  induction es generalizing o with
  | nil => rfl
  | cons e es ih =>
    obtain ⟨hsame, hlt⟩ := block?_after (h e List.mem_cons_self) hb
    rw [afterAll_cons, ih (fun f hf => h f (.tail _ hf)) hlt, hsame]

/-- Giving up blocks one by one. -/
theorem afterAll_free (o : Outlook) (bs : List Nat) :
    o.afterAll (bs.map .free) = { o with memory := o.memory.freeAll bs } := by
  induction bs generalizing o with
  | nil => rfl
  | cons b bs ih => rw [List.map_cons, afterAll_cons, ih]; rfl

end Outlook

/-! ## Giving blocks up late or early -/

namespace Memory

theorem freeAll_append (m : Memory) (bs cs : List Nat) :
    m.freeAll (bs ++ cs) = (m.freeAll bs).freeAll cs := List.foldl_append ..

theorem freeAll_congr (m : Memory) {bs cs : List Nat} (h : ∀ b, b ∈ bs ↔ b ∈ cs) :
    m.freeAll bs = m.freeAll cs := by
  refine ext_block? (by simp) fun b => ?_
  simp only [block?_freeAll, h]

theorem freeAll_free (m : Memory) (bs : List Nat) (b : Nat) :
    (m.free b).freeAll bs = (m.freeAll bs).free b := by
  refine ext_block? (by simp) fun i => ?_
  simp only [block?_freeAll, block?_free]
  split <;> split <;> rfl

theorem freeAll_alloc (m : Memory) {bs : List Nat} (z : List UInt8) (h : ∀ b ∈ bs, b < m.next) :
    (m.alloc z).freeAll bs = (m.freeAll bs).alloc z := by
  refine ext_block? (by simp) fun i => ?_
  simp only [block?_freeAll, block?_alloc, next_freeAll]
  by_cases hi : i ∈ bs
  · rw [if_pos hi, if_neg (Nat.ne_of_lt (h i hi)), if_pos hi]
  · rw [if_neg hi, if_neg hi]

theorem freeAll_write (m : Memory) {bs : List Nat} {p : Pointer} (bytes : List UInt8)
    (h : p.block ∉ bs) : (m.write p bytes).freeAll bs = (m.freeAll bs).write p bytes := by
  refine ext_block? (by simp) fun i => ?_
  simp only [block?_freeAll, block?_write]
  by_cases hi : i = p.block
  · rw [if_pos hi, if_pos hi, if_neg (hi ▸ h), if_neg (hi ▸ h)]
  · rw [if_neg hi, if_neg hi]

theorem freeAll_copy (m : Memory) {bs : List Nat} {c : PendingCopy} (hd : c.dst.block ∉ bs)
    (hs : c.src.block ∉ bs) :
    (m.copy c.dst c.src c.bytes).freeAll bs = (m.freeAll bs).copy c.dst c.src c.bytes := by
  have hread : (m.freeAll bs).read c.src c.bytes = m.read c.src c.bytes := by
    refine read_congr ?_ _
    rw [block?_freeAll, if_neg hs]
  unfold copy
  rw [freeAll_write m _ hd, hread]

end Memory

namespace Machine

variable {m m' : Machine} {T T' : List Holding} {t : Holding}

/-! ## Laws of what is kept -/

theorem Keeps.perm (h : m.Keeps T) (hp : T.Perm T') : m.Keeps T' :=
  Orderly.perm h (hp.append_right _)

theorem start_keeps (platform : Platform) : (start platform).Keeps [] := start_orderly platform

namespace Keeps

theorem mem (ht : t ∈ T) : t ∈ T ++ m.queues.kept := List.mem_append_left _ ht

/-- What the user holds is not what a guard keeps alive. -/
theorem block_notMem_kept (h : m.Keeps T) (ht : t ∈ T) :
    t.block ∉ m.queues.kept.map Holding.block := by
  intro hmem
  have hn := h.distinct
  rw [List.map_append, List.nodup_append] at hn
  exact hn.2.2 t.block (List.mem_map_of_mem ht) t.block hmem rfl

/-- Different parts of what the user holds lie in different blocks. -/
theorem block_ne {X : List Holding} (h : m.Keeps (X ++ T)) {u : Holding} (hu : u ∈ X) (ht : t ∈ T) :
    u.block ≠ t.block := by
  have hn := h.distinct
  rw [List.append_assoc, List.map_append, List.nodup_append] at hn
  exact hn.2.2 u.block (List.mem_map_of_mem hu) t.block
    (List.mem_map_of_mem (List.mem_append_left _ ht))

theorem kept_lt (h : m.Keeps T) : ∀ b ∈ m.queues.kept.map Holding.block, b < m.memory.next := by
  intro b hb
  obtain ⟨t, ht, rfl⟩ := List.mem_map.mp hb
  exact h.block_lt (List.mem_append_right _ ht)

/-- Storage that the user holds is, in the outlook, what the copies that wait make of it. -/
theorem block?_outlook (h : m.Keeps T) (ht : t ∈ T) :
    m.outlook.memory.block? t.block = m.settled.block? t.block := by
  show (m.settled.freeAll _).block? _ = _
  rw [Memory.block?_freeAll, if_neg (h.block_notMem_kept ht)]

/-- Storage that no waiting copy writes is already what it will be. -/
theorem block?_outlook_of_unwritten (h : m.Keeps T) (ht : t ∈ T) (hu : m.Unwritten t.block) :
    m.outlook.memory.block? t.block = m.memory.block? t.block := by
  rw [h.block?_outlook ht, block?_settled hu]

/-- In the outlook, storage that the user holds has its bytes. -/
theorem length_outlook (h : m.Keeps T) (ht : t ∈ T) :
    (m.outlook.memory.block? t.block).map List.length = some t.bytes := by
  rw [h.block?_outlook ht, settled, Memory.length_block?_run]
  exact h.occupied t (mem ht)

end Keeps

@[simp] theorem next_outlook (m : Machine) : m.outlook.memory.next = m.memory.next := by
  simp [outlook]

/-- A block that was given out, and that effects do not change, will hold what it would have held. -/
theorem block?_outlook_afterAll {es : List Effect} {b : Nat} (h : ∀ e ∈ es, ¬ e.Changes b)
    (hb : b < m.memory.next) :
    (m.outlook.afterAll es).memory.block? b = m.outlook.memory.block? b :=
  Outlook.block?_afterAll h (by rw [next_outlook]; exact hb)

/-- What memory will be is a matter of memory and queues. -/
theorem outlook_memory_congr (hm : m'.memory = m.memory) (hq : m'.queues = m.queues) :
    m'.outlook.memory = m.outlook.memory := by
  simp only [outlook, settled, hm, hq]

/-- A machine without queues is its own outlook. -/
theorem outlook_memory_of_idle (h : m.queues = []) : m.outlook.memory = m.memory := by
  simp [outlook, settled, h]

end Machine

end DeviceBatch
