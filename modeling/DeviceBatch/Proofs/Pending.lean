import DeviceBatch.Proofs.Memory

/-!
# Copies that wait

`Memory.run` performs a list of copies. Copies that do not conflict can be performed in either
order (`Memory.run_run_comm`), and what a copy does not read or write it does not notice:
allocating, releasing and writing elsewhere can be done before or after it.

`Machine.settled` is the memory once all copies that wait have been performed, queue by queue. It is
defined for every machine; that the order of the queues is of no importance is shown where machines
are known to be orderly.
-/

namespace DeviceBatch

namespace PendingCopy

/-- The copy neither reads nor writes any of the `n` bytes at `p`. -/
def Avoids (c : PendingCopy) (p : Pointer) (n : Nat) : Prop :=
  c.dst.Apart c.bytes p n ∧ c.src.Apart c.bytes p n

/-- Neither of the two copies writes what the other one reads or writes. -/
def Independent (c d : PendingCopy) : Prop :=
  c.Avoids d.dst d.bytes ∧ d.Avoids c.dst c.bytes

theorem Independent.symm {c d : PendingCopy} (h : c.Independent d) : d.Independent c :=
  And.symm h

/-- The copy reads or writes bytes of a block. -/
def Touches (c : PendingCopy) (b : Nat) : Prop := c.dst.block = b ∨ c.src.block = b

theorem avoids_of_not_touches {c : PendingCopy} {p : Pointer} (h : ¬ c.Touches p.block) (n : Nat) :
    c.Avoids p n :=
  ⟨.of_ne fun hb => h (.inl hb), .of_ne fun hb => h (.inr hb)⟩

end PendingCopy

namespace Memory

/-! ## Performing copies -/

/-- Performs copies one after the other. -/
def run (m : Memory) (cs : List PendingCopy) : Memory :=
  cs.foldl (fun m c => m.copy c.dst c.src c.bytes) m

@[simp] theorem run_nil (m : Memory) : m.run [] = m := rfl

@[simp] theorem run_cons (m : Memory) (c : PendingCopy) (cs : List PendingCopy) :
    m.run (c :: cs) = (m.copy c.dst c.src c.bytes).run cs := rfl

@[simp] theorem run_append (m : Memory) (cs ds : List PendingCopy) :
    m.run (cs ++ ds) = (m.run cs).run ds := List.foldl_append ..

@[simp] theorem next_run (m : Memory) (cs : List PendingCopy) : (m.run cs).next = m.next := by
  induction cs generalizing m with
  | nil => rfl
  | cons c cs ih => rw [run_cons, ih, next_copy]

theorem block?_copy_of_ne (m : Memory) {dst src : Pointer} {n b : Nat} (h : b ≠ dst.block) :
    (m.copy dst src n).block? b = m.block? b := block?_write_of_ne m dst _ h

/-- A block that no copy writes is as before. -/
theorem block?_run (m : Memory) {cs : List PendingCopy} {b : Nat}
    (h : ∀ c ∈ cs, c.dst.block ≠ b) : (m.run cs).block? b = m.block? b := by
  induction cs generalizing m with
  | nil => rfl
  | cons c cs ih =>
    rw [run_cons, ih _ fun d hd => h d (List.mem_cons_of_mem _ hd),
      block?_copy_of_ne m (Ne.symm (h c List.mem_cons_self))]

/-- Bytes that no copy writes are read as before. -/
theorem read_run (m : Memory) {cs : List PendingCopy} {p : Pointer} {n : Nat}
    (h : ∀ c ∈ cs, p.Apart n c.dst c.bytes) : (m.run cs).read p n = m.read p n := by
  induction cs generalizing m with
  | nil => rfl
  | cons c cs ih =>
    rw [run_cons, ih _ fun d hd => h d (List.mem_cons_of_mem _ hd)]
    exact read_write_of_apart m
      ((h c List.mem_cons_self).mono (Nat.le_refl _) (length_read_le ..))

/-- Copies leave the length of every block as it is. -/
theorem length_block?_run (m : Memory) (cs : List PendingCopy) (b : Nat) :
    ((m.run cs).block? b).map List.length = (m.block? b).map List.length := by
  induction cs generalizing m with
  | nil => rfl
  | cons c cs ih =>
    rw [run_cons, ih, copy, block?_write]
    split
    · cases m.block? b <;> simp
    · rfl

/-! ## What can be done before or after copies -/

theorem copy_write (m : Memory) {c : PendingCopy} {p : Pointer} {bytes : List UInt8}
    (h : c.Avoids p bytes.length) :
    (m.write p bytes).copy c.dst c.src c.bytes = (m.copy c.dst c.src c.bytes).write p bytes := by
  unfold copy
  rw [read_write_of_apart m h.2, write_write_comm]
  exact (h.1.mono (length_read_le ..) (Nat.le_refl _)).symm

theorem copy_alloc (m : Memory) {c : PendingCopy} (z : List UInt8)
    (h : c.dst.block < m.next ∧ c.src.block < m.next) :
    (m.alloc z).copy c.dst c.src c.bytes = (m.copy c.dst c.src c.bytes).alloc z := by
  have hread : (m.alloc z).read c.src c.bytes = m.read c.src c.bytes := by
    refine read_congr ?_ _
    rw [block?_alloc, if_neg (Nat.ne_of_lt h.2)]
  unfold copy
  rw [hread, write_alloc_comm m _ z h.1]

theorem copy_free (m : Memory) {c : PendingCopy} {b : Nat} (h : ¬ c.Touches b) :
    (m.free b).copy c.dst c.src c.bytes = (m.copy c.dst c.src c.bytes).free b := by
  have hread : (m.free b).read c.src c.bytes = m.read c.src c.bytes := by
    refine read_congr ?_ _
    rw [block?_free, if_neg fun hb => h (.inr hb)]
  unfold copy
  rw [hread, write_free_comm m _ fun hb => h (.inl hb)]

theorem run_write (m : Memory) {cs : List PendingCopy} {p : Pointer} {bytes : List UInt8}
    (h : ∀ c ∈ cs, c.Avoids p bytes.length) :
    (m.write p bytes).run cs = (m.run cs).write p bytes := by
  induction cs generalizing m with
  | nil => rfl
  | cons c cs ih =>
    rw [run_cons, run_cons, copy_write m (h c List.mem_cons_self)]
    exact ih _ fun d hd => h d (List.mem_cons_of_mem _ hd)

theorem run_alloc (m : Memory) {cs : List PendingCopy} (z : List UInt8)
    (h : ∀ c ∈ cs, c.dst.block < m.next ∧ c.src.block < m.next) :
    (m.alloc z).run cs = (m.run cs).alloc z := by
  induction cs generalizing m with
  | nil => rfl
  | cons c cs ih =>
    rw [run_cons, run_cons, copy_alloc m z (h c List.mem_cons_self)]
    refine ih _ fun d hd => ?_
    rw [next_copy]
    exact h d (List.mem_cons_of_mem _ hd)

theorem run_free (m : Memory) {cs : List PendingCopy} {b : Nat} (h : ∀ c ∈ cs, ¬ c.Touches b) :
    (m.free b).run cs = (m.run cs).free b := by
  induction cs generalizing m with
  | nil => rfl
  | cons c cs ih =>
    rw [run_cons, run_cons, copy_free m (h c List.mem_cons_self)]
    exact ih _ fun d hd => h d (List.mem_cons_of_mem _ hd)

/-- A copy can be performed before or after copies that it is independent of. -/
theorem run_copy (m : Memory) {c : PendingCopy} {cs : List PendingCopy}
    (h : ∀ d ∈ cs, c.Independent d) :
    (m.copy c.dst c.src c.bytes).run cs = (m.run cs).copy c.dst c.src c.bytes := by
  have hwrite : ∀ d ∈ cs, d.Avoids c.dst (m.read c.src c.bytes).length := fun d hd =>
    ⟨(h d hd).2.1.mono (Nat.le_refl _) (length_read_le ..),
      (h d hd).2.2.mono (Nat.le_refl _) (length_read_le ..)⟩
  unfold copy
  rw [run_write m hwrite, read_run m fun d hd => (h d hd).1.2]

theorem run_run_comm (m : Memory) {cs ds : List PendingCopy}
    (h : ∀ c ∈ cs, ∀ d ∈ ds, c.Independent d) : (m.run cs).run ds = (m.run ds).run cs := by
  induction cs generalizing m with
  | nil => rfl
  | cons c cs ih =>
    rw [run_cons, run_cons, ih _ fun d hd => h d (List.mem_cons_of_mem _ hd),
      run_copy m (h c List.mem_cons_self)]

/-- Where memories agree on some blocks, and copies into these only read these, they still agree
on them after the copies. -/
theorem run_congr {m m' : Memory} {cs : List PendingCopy} {B : Nat → Prop}
    (hcs : ∀ c ∈ cs, B c.dst.block → B c.src.block)
    (h : ∀ b, B b → m.block? b = m'.block? b) :
    ∀ b, B b → (m.run cs).block? b = (m'.run cs).block? b := by
  induction cs generalizing m m' with
  | nil => exact h
  | cons c cs ih =>
    refine ih (fun d hd => hcs d (List.mem_cons_of_mem _ hd)) fun b hb => ?_
    by_cases hd : b = c.dst.block
    · have hsrc := hcs c List.mem_cons_self (hd ▸ hb)
      unfold copy
      rw [block?_write, block?_write, h b hb, read_congr (h _ hsrc)]
    · rw [block?_copy_of_ne m hd, block?_copy_of_ne m' hd, h b hb]

/-! ## Releasing blocks -/

/-- Gives several blocks up. -/
def freeAll (m : Memory) (bs : List Nat) : Memory := bs.foldl free m

@[simp] theorem freeAll_nil (m : Memory) : m.freeAll [] = m := rfl

@[simp] theorem freeAll_cons (m : Memory) (b : Nat) (bs : List Nat) :
    m.freeAll (b :: bs) = (m.free b).freeAll bs := rfl

@[simp] theorem next_freeAll (m : Memory) (bs : List Nat) : (m.freeAll bs).next = m.next := by
  induction bs generalizing m with
  | nil => rfl
  | cons b bs ih => rw [freeAll_cons, ih, next_free]

theorem block?_freeAll (m : Memory) (bs : List Nat) (b : Nat) :
    (m.freeAll bs).block? b = if b ∈ bs then none else m.block? b := by
  induction bs generalizing m with
  | nil => simp
  | cons a bs ih =>
    rw [freeAll_cons, ih, block?_free]
    by_cases hb : b ∈ bs <;> simp [hb]

end Memory

/-! ## The work of the queues -/

namespace Queues

/-- The copies that wait, queue by queue. -/
def copies (qs : Queues) : List PendingCopy := qs.flatMap fun p => p.2.copies

@[simp] theorem copies_nil : copies [] = [] := rfl

@[simp] theorem copies_cons (s : Stream) (q : StreamQueue) (qs : Queues) :
    copies ((s, q) :: qs) = q.copies ++ copies qs := rfl

@[simp] theorem copies_append (qs rs : Queues) : copies (qs ++ rs) = copies qs ++ copies rs :=
  List.flatMap_append

theorem mem_copies {qs : Queues} {c : PendingCopy} :
    c ∈ qs.copies ↔ ∃ s q, (s, q) ∈ qs ∧ c ∈ q.copies := by
  simp [copies]

/-- Changing the queue of a stream adds at most that stream to the streams with a queue. -/
theorem map_fst_update (s : Stream) (f : StreamQueue → StreamQueue) (qs : Queues) :
    (update s f qs).map Prod.fst =
      if s ∈ qs.map Prod.fst then qs.map Prod.fst else qs.map Prod.fst ++ [s] := by
  induction qs with
  | nil => rfl
  | cons p rest ih =>
    obtain ⟨t, q⟩ := p
    by_cases h : s = t
    · simp [update, h]
    · have hmem : s ∈ ((t, q) :: rest).map Prod.fst ↔ s ∈ rest.map Prod.fst := by
        simp only [List.map_cons, List.mem_cons, h, false_or]
      rw [update, if_neg h, List.map_cons, ih]
      by_cases hr : s ∈ rest.map Prod.fst
      · rw [if_pos hr, if_pos (hmem.mpr hr), List.map_cons]
      · rw [if_neg hr, if_neg fun hc => hr (hmem.mp hc), List.map_cons, List.cons_append]

theorem nodup_update {s : Stream} {f : StreamQueue → StreamQueue} {qs : Queues}
    (h : (qs.map Prod.fst).Nodup) : ((update s f qs).map Prod.fst).Nodup := by
  rw [map_fst_update]
  split
  · exact h
  · next hs =>
    rw [List.nodup_append]
    refine ⟨h, by simp, fun t ht u hu => ?_⟩
    rw [List.mem_singleton.mp hu]
    exact fun heq => hs (heq ▸ ht)

theorem get_cons (s t : Stream) (q : StreamQueue) (qs : Queues) :
    get ((t, q) :: qs) s = if s = t then q else qs.get s := by
  unfold get
  rw [List.lookup_cons]
  by_cases h : s = t
  · rw [if_pos h, beq_iff_eq.mpr h]
    rfl
  · rw [if_neg h, beq_eq_false_iff_ne.mpr h]

/-- One queue is changed. -/
theorem get_update (s t : Stream) (f : StreamQueue → StreamQueue) (qs : Queues) :
    (update s f qs).get t = if t = s then f (qs.get s) else qs.get t := by
  induction qs with
  | nil => exact get_cons t s (f {}) []
  | cons p rest ih =>
    obtain ⟨r, q⟩ := p
    unfold update
    by_cases hr : s = r
    · rw [if_pos hr, get_cons, get_cons, get_cons, if_pos hr, ← hr]
      by_cases ht : t = s
      · rw [if_pos ht, if_pos ht]
      · rw [if_neg ht, if_neg ht, if_neg ht]
    · rw [if_neg hr, get_cons, ih, get_cons, get_cons, if_neg hr]
      by_cases ht : t = s
      · rw [if_pos ht, if_pos ht, if_neg (ht ▸ hr)]
      · rw [if_neg ht, if_neg ht]

/-- A queue that is changed is there afterwards. -/
theorem lookup_update (s : Stream) (f : StreamQueue → StreamQueue) (qs : Queues) :
    (update s f qs).lookup s = some (f (qs.get s)) := by
  induction qs with
  | nil => exact List.lookup_cons_self
  | cons p rest ih =>
    obtain ⟨t, q⟩ := p
    unfold update
    rw [get_cons]
    by_cases h : s = t
    · rw [if_pos h, if_pos h, h, List.lookup_cons_self]
    · rw [if_neg h, if_neg h, List.lookup_cons, beq_eq_false_iff_ne.mpr h]
      exact ih

/-- Taking a queue away undoes what was changed in it. -/
theorem remove_update (s : Stream) (f : StreamQueue → StreamQueue) (qs : Queues) :
    (update s f qs).remove s = qs.remove s := by
  unfold remove
  induction qs with
  | nil => simp [update]
  | cons p rest ih =>
    obtain ⟨t, q⟩ := p
    unfold update
    split
    · next h => simp [h]
    · rw [List.filter_cons, List.filter_cons, ih]

/-- A stream with a queue, the queues before and after it, and what is left without it. -/
theorem split_of_lookup {qs : Queues} {s : Stream} {q : StreamQueue}
    (h : qs.lookup s = some q) (hn : (qs.map Prod.fst).Nodup) :
    ∃ l r, qs = l ++ (s, q) :: r ∧ qs.remove s = l ++ r := by
  obtain ⟨l, r, rfl, hl⟩ := List.lookup_eq_some_iff.mp h
  refine ⟨l, r, rfl, ?_⟩
  simp only [List.map_append, List.map_cons, List.nodup_append, List.nodup_cons] at hn
  have hl' : ∀ p ∈ l, p.1 ≠ s := fun p hp heq =>
    hn.2.2 p.1 (List.mem_map_of_mem hp) s List.mem_cons_self heq
  have hr' : ∀ p ∈ r, p.1 ≠ s := fun p hp heq =>
    hn.2.1.1 (heq ▸ List.mem_map_of_mem hp)
  unfold remove
  rw [List.filter_append, List.filter_cons, if_neg (by simp)]
  rw [List.filter_eq_self.mpr (by simpa using hl'), List.filter_eq_self.mpr (by simpa using hr')]

end Queues

namespace Machine

/-- A copy that waits in the queue of a stream. -/
def Pending (m : Machine) (s : Stream) (c : PendingCopy) : Prop :=
  ∃ q, (s, q) ∈ m.queues ∧ c ∈ q.copies

/-- No copy that waits reads or writes the block. -/
def Untouched (m : Machine) (b : Nat) : Prop := ∀ s c, m.Pending s c → ¬ c.Touches b

/-- No copy that waits writes the block. -/
def Unwritten (m : Machine) (b : Nat) : Prop := ∀ s c, m.Pending s c → c.dst.block ≠ b

theorem mem_copies_iff {m : Machine} {c : PendingCopy} :
    c ∈ m.queues.copies ↔ ∃ s, m.Pending s c := Queues.mem_copies

theorem Untouched.unwritten {m : Machine} {b : Nat} (h : m.Untouched b) : m.Unwritten b :=
  fun s c hc hb => h s c hc (.inl hb)

/-- The memory once all copies that wait have been performed. -/
def settled (m : Machine) : Memory := m.memory.run m.queues.copies

@[simp] theorem next_settled (m : Machine) : m.settled.next = m.memory.next :=
  Memory.next_run ..

theorem block?_settled {m : Machine} {b : Nat} (h : m.Unwritten b) :
    m.settled.block? b = m.memory.block? b :=
  Memory.block?_run _ fun c hc => by
    obtain ⟨s, hs⟩ := mem_copies_iff.mp hc
    exact h s c hs

/-! ## The queues when a copy is added -/

theorem pending_update {qs : Queues} {s : Stream} {c : PendingCopy} {t : Stream} {d : PendingCopy} :
    (∃ q, (t, q) ∈ Queues.update s (fun q => { q with copies := q.copies ++ [c] }) qs ∧
      d ∈ q.copies) ↔ (∃ q, (t, q) ∈ qs ∧ d ∈ q.copies) ∨ t = s ∧ d = c := by
  induction qs with
  | nil =>
    simp only [Queues.update, List.mem_singleton, Prod.mk.injEq, List.not_mem_nil, false_and,
      exists_false, false_or]
    constructor
    · rintro ⟨q, ⟨rfl, rfl⟩, hd⟩
      exact ⟨rfl, List.mem_singleton.mp hd⟩
    · rintro ⟨rfl, rfl⟩
      exact ⟨_, ⟨rfl, rfl⟩, by simp⟩
  | cons p rest ih =>
    obtain ⟨u, q⟩ := p
    -- The copy is put behind the others of the queue in front, or the update passes it by.
    by_cases h : s = u
    · subst h
      simp only [Queues.update, if_true, List.mem_cons, Prod.mk.injEq]
      constructor
      · rintro ⟨q', ⟨rfl, rfl⟩ | hq', hd⟩
        · rcases List.mem_append.mp hd with hd | hd
          · exact .inl ⟨q, .inl ⟨rfl, rfl⟩, hd⟩
          · exact .inr ⟨rfl, List.mem_singleton.mp hd⟩
        · exact .inl ⟨q', .inr hq', hd⟩
      · rintro (⟨q', ⟨rfl, rfl⟩ | hq', hd⟩ | ⟨rfl, rfl⟩)
        · exact ⟨_, .inl ⟨rfl, rfl⟩, List.mem_append_left _ hd⟩
        · exact ⟨q', .inr hq', hd⟩
        · exact ⟨_, .inl ⟨rfl, rfl⟩, by simp⟩
    · simp only [Queues.update, if_neg h, List.mem_cons, Prod.mk.injEq, or_and_right, exists_or, ih]
      rw [or_assoc]

theorem pending_enqueue {m : Machine} {s t : Stream} {c d : PendingCopy} :
    (m.enqueue s c).Pending t d ↔ m.Pending t d ∨ t = s ∧ d = c := pending_update

/-- A copy that is added to a queue is performed last of all, if it is independent of the copies
of the other streams. -/
theorem run_copies_update (mem : Memory) {s : Stream} {c : PendingCopy} {qs : Queues}
    (hn : (qs.map Prod.fst).Nodup)
    (h : ∀ t q, (t, q) ∈ qs → t ≠ s → ∀ d ∈ q.copies, c.Independent d) :
    mem.run (Queues.update s (fun q => { q with copies := q.copies ++ [c] }) qs).copies =
      (mem.run qs.copies).copy c.dst c.src c.bytes := by
  induction qs generalizing mem with
  | nil => rfl
  | cons p rest ih =>
    obtain ⟨t, q⟩ := p
    have hrest : ∀ u r, (u, r) ∈ rest → u ≠ s → ∀ d ∈ r.copies, c.Independent d :=
      fun u r hr => h u r (List.mem_cons_of_mem _ hr)
    rw [List.map_cons, List.nodup_cons] at hn
    by_cases hs : s = t
    · subst hs
      rw [Queues.update, if_pos rfl, Queues.copies_cons, Queues.copies_cons, Memory.run_append,
        Memory.run_append, Memory.run_append, Memory.run_cons, Memory.run_nil]
      refine Memory.run_copy _ fun d hd => ?_
      obtain ⟨u, r, hr, hd⟩ := Queues.mem_copies.mp hd
      exact hrest u r hr (fun hu => hn.1 (List.mem_map.mpr ⟨_, hr, hu⟩)) d hd
    · rw [Queues.update, if_neg hs, Queues.copies_cons, Queues.copies_cons, Memory.run_append,
        Memory.run_append, ih _ hn.2 hrest]

/-- Performing the copies of one queue ahead of the others changes nothing in the end. -/
theorem run_copies_remove (mem : Memory) {s : Stream} {q : StreamQueue} {qs : Queues}
    (hq : qs.lookup s = some q) (hn : (qs.map Prod.fst).Nodup)
    (h : ∀ c ∈ q.copies, ∀ t r, (t, r) ∈ qs → t ≠ s → ∀ d ∈ r.copies, c.Independent d) :
    (mem.run q.copies).run (qs.remove s).copies = mem.run qs.copies := by
  obtain ⟨l, r, rfl, hrem⟩ := Queues.split_of_lookup hq hn
  have hl : ∀ c ∈ q.copies, ∀ d ∈ Queues.copies l, c.Independent d := by
    intro c hc d hd
    obtain ⟨t, q', hq', hd⟩ := Queues.mem_copies.mp hd
    refine h c hc t q' (List.mem_append_left _ hq') (fun ht => ?_) d hd
    simp only [List.map_append, List.map_cons, List.nodup_append] at hn
    exact hn.2.2 t (List.mem_map_of_mem hq') s List.mem_cons_self ht
  rw [hrem, Queues.copies_append, Queues.copies_append, Queues.copies_cons, Memory.run_append,
    Memory.run_append, Memory.run_append, Memory.run_run_comm mem hl]

end Machine

end DeviceBatch
