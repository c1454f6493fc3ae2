import DeviceBatch.Machine

/-!
# Laws of memory

What a memory holds is what `block?` answers for every number, and how many blocks there ever were;
two memories that agree on both are equal (`Memory.ext_block?`). So an operation is known once its
effect on `block?` is known, and two operations commute if neither touches bytes that the other one
reads or writes.

Bytes are compared by ranges, not by blocks: two copies into different parts of one block commute.
-/

namespace DeviceBatch

namespace Pointer

/-- The `n` bytes at `p` and the `k` bytes at `q` have no byte in common. -/
def Apart (p : Pointer) (n : Nat) (q : Pointer) (k : Nat) : Prop :=
  p.block = q.block → p.offset + n ≤ q.offset ∨ q.offset + k ≤ p.offset

theorem Apart.symm {p q : Pointer} {n k : Nat} (h : p.Apart n q k) : q.Apart k p n :=
  fun hb => (h hb.symm).symm

theorem Apart.of_ne {p q : Pointer} {n k : Nat} (h : p.block ≠ q.block) : p.Apart n q k :=
  fun hb => absurd hb h

theorem Apart.mono {p q : Pointer} {n n' k k' : Nat} (h : p.Apart n q k) (hn : n' ≤ n)
    (hk : k' ≤ k) : p.Apart n' q k' := by
  intro hb
  have := h hb
  omega

end Pointer

namespace Memory

/-! ## Replacing bytes of a block -/

/-- A block with the bytes from `offset` on replaced, if all of them fit. -/
def splice (old : List UInt8) (offset : Nat) (bytes : List UInt8) : List UInt8 :=
  if offset + bytes.length ≤ old.length then
    old.take offset ++ bytes ++ old.drop (offset + bytes.length)
  else old

@[simp] theorem length_splice (old : List UInt8) (offset : Nat) (bytes : List UInt8) :
    (splice old offset bytes).length = old.length := by
  unfold splice
  split
  · simp; omega
  · rfl

@[simp] theorem splice_nil (old : List UInt8) (offset : Nat) : splice old offset [] = old := by
  unfold splice
  split <;> simp

/-- Byte by byte: inside the range the new bytes, elsewhere the old ones. -/
theorem getElem?_splice {old bytes : List UInt8} {offset : Nat}
    (h : offset + bytes.length ≤ old.length) (i : Nat) :
    (splice old offset bytes)[i]? =
      if offset ≤ i ∧ i < offset + bytes.length then bytes[i - offset]? else old[i]? := by
  have hmin : min offset old.length = offset := by omega
  unfold splice
  rw [if_pos h, List.append_assoc]
  by_cases h1 : i < offset
  · rw [if_neg (by omega), List.getElem?_append_left (by simp; omega), List.getElem?_take,
      if_pos h1]
  · rw [List.getElem?_append_right (by simp; omega), List.length_take, hmin]
    by_cases h2 : i < offset + bytes.length
    · rw [if_pos (by omega), List.getElem?_append_left (by omega)]
    · rw [if_neg (by omega), List.getElem?_append_right (by omega), List.getElem?_drop]
      congr 1
      omega

/-- Replacing two ranges without common bytes can be done in either order. -/
theorem splice_splice_comm (old bs cs : List UInt8) (i j : Nat)
    (h : i + bs.length ≤ j ∨ j + cs.length ≤ i) :
    splice (splice old i bs) j cs = splice (splice old j cs) i bs := by
  by_cases hb : i + bs.length ≤ old.length
  · by_cases hc : j + cs.length ≤ old.length
    · have hb' : i + bs.length ≤ (splice old j cs).length := by simpa using hb
      have hc' : j + cs.length ≤ (splice old i bs).length := by simpa using hc
      apply List.ext_getElem?
      intro k
      rw [getElem?_splice hc', getElem?_splice hb, getElem?_splice hb', getElem?_splice hc]
      by_cases hi : i ≤ k ∧ k < i + bs.length
      · rw [if_pos hi, if_neg (by omega), if_pos hi]
      · rw [if_neg hi, if_neg hi]
    · have hkeep : ∀ old', old'.length = old.length → splice old' j cs = old' :=
        fun old' hl => if_neg (by omega)
      rw [hkeep old rfl, hkeep _ (by simp)]
  · have hkeep : ∀ old', old'.length = old.length → splice old' i bs = old' :=
      fun old' hl => if_neg (by omega)
    rw [hkeep old rfl, hkeep _ (by simp)]

/-- Bytes beside the replaced range are as before. -/
theorem take_drop_splice (old bytes : List UInt8) (i j n : Nat)
    (h : i + n ≤ j ∨ j + bytes.length ≤ i) :
    ((splice old j bytes).drop i).take n = (old.drop i).take n := by
  by_cases hb : j + bytes.length ≤ old.length
  · apply List.ext_getElem?
    intro k
    simp only [List.getElem?_take, List.getElem?_drop]
    rw [getElem?_splice hb]
    split
    · rw [if_neg (by omega)]
    · rfl
  · rw [splice, if_neg hb]

/-- The replaced range holds the new bytes. -/
theorem take_drop_splice_self {old bytes : List UInt8} {j : Nat}
    (h : j + bytes.length ≤ old.length) :
    ((splice old j bytes).drop j).take bytes.length = bytes := by
  apply List.ext_getElem?
  intro k
  simp only [List.getElem?_take, List.getElem?_drop]
  rw [getElem?_splice h]
  by_cases hk : k < bytes.length
  · rw [if_pos hk, if_pos (by omega)]
    congr 1
    omega
  · rw [if_neg hk, List.getElem?_eq_none (by omega)]

/-- New bytes behind those of interest. -/
theorem take_splice {old bytes : List UInt8} {j : Nat} (h : j + bytes.length ≤ old.length) :
    (splice old j bytes).take (j + bytes.length) = old.take j ++ bytes := by
  have hlen : (old.take j ++ bytes).length = j + bytes.length := by
    rw [List.length_append, List.length_take, Nat.min_eq_left (by omega)]
  rw [splice, if_pos h, ← hlen, List.take_left]

/-! ## What the operations do -/

/-- Memories with as many blocks and the same ones are equal. -/
theorem ext_block? {m m' : Memory} (hn : m.next = m'.next)
    (h : ∀ b, m.block? b = m'.block? b) : m = m' := by
  obtain ⟨bs⟩ := m
  obtain ⟨bs'⟩ := m'
  simp only [next, block?] at hn h
  congr 1
  apply List.ext_getElem hn
  intro i hi hi'
  have := h i
  rwa [List.getElem?_eq_getElem hi, List.getElem?_eq_getElem hi', Option.join_some,
    Option.join_some] at this

theorem lt_next_of_block? {m : Memory} {b : Nat} {bytes : List UInt8}
    (h : m.block? b = some bytes) : b < m.next := by
  unfold block? at h
  unfold next
  by_cases hlt : b < m.blocks.length
  · exact hlt
  · rw [List.getElem?_eq_none (by omega)] at h
    cases h

@[simp] theorem next_alloc (m : Memory) (bytes : List UInt8) :
    (m.alloc bytes).next = m.next + 1 := by
  simp [alloc, next]

@[simp] theorem next_free (m : Memory) (b : Nat) : (m.free b).next = m.next := by
  simp [free, next]

@[simp] theorem next_write (m : Memory) (p : Pointer) (bytes : List UInt8) :
    (m.write p bytes).next = m.next := by
  unfold write
  split
  · rfl
  · split <;> simp [next]

@[simp] theorem next_copy (m : Memory) (dst src : Pointer) (n : Nat) :
    (m.copy dst src n).next = m.next := next_write ..

theorem block?_write (m : Memory) (p : Pointer) (bytes : List UInt8) (b : Nat) :
    (m.write p bytes).block? b =
      if b = p.block then (m.block? b).map (splice · p.offset bytes) else m.block? b := by
  by_cases hb : b = p.block
  · subst hb
    rw [if_pos rfl]
    unfold write
    cases h : m.block? p.block with
    | none => simp [h]
    | some old =>
      simp only [Option.map_some, splice]
      by_cases hl : p.offset + bytes.length ≤ old.length
      · rw [if_pos hl, if_pos hl]
        have hlt := lt_next_of_block? h
        unfold next at hlt
        simp [block?, hlt]
      · rw [if_neg hl, if_neg hl, h]
  · rw [if_neg hb, block?_write_of_ne m p bytes hb]

/-- Writing nothing changes nothing. -/
theorem write_nil (m : Memory) (p : Pointer) : m.write p [] = m := by
  refine ext_block? (by simp) fun b => ?_
  rw [block?_write]
  split
  · cases m.block? b <;> simp
  · rfl

/-- Reading depends only on the block that is read. -/
theorem read_congr {m m' : Memory} {p : Pointer} (h : m.block? p.block = m'.block? p.block)
    (n : Nat) : m.read p n = m'.read p n := by
  unfold read
  rw [h]

theorem length_read_le (m : Memory) (p : Pointer) (n : Nat) : (m.read p n).length ≤ n :=
  List.length_take_le _ _

theorem length_read {m : Memory} {p : Pointer} {old : List UInt8} {n : Nat}
    (h : m.block? p.block = some old) (hn : p.offset + n ≤ old.length) :
    (m.read p n).length = n := by
  simp [read, h]; omega

/-- A write is not seen by reading beside it. -/
theorem read_write_of_apart (m : Memory) {p q : Pointer} {bytes : List UInt8} {n : Nat}
    (h : q.Apart n p bytes.length) : (m.write p bytes).read q n = m.read q n := by
  unfold read
  rw [block?_write]
  split
  · next hb =>
    cases m.block? q.block with
    | none => rfl
    | some old => exact take_drop_splice _ _ _ _ _ (h hb)
  · rfl

/-- What was written to a live block is read back. -/
theorem read_write_self {m : Memory} {p : Pointer} {old bytes : List UInt8}
    (h : m.block? p.block = some old) (hl : p.offset + bytes.length ≤ old.length) :
    (m.write p bytes).read p bytes.length = bytes := by
  unfold read
  rw [block?_write, if_pos rfl, h]
  exact take_drop_splice_self hl

/-- A part of the bytes that are read. -/
theorem read_advance (m : Memory) (p : Pointer) {n k l : Nat} (h : k + l ≤ n) :
    m.read (p.advance k) l = ((m.read p n).drop k).take l := by
  have hmin : min l (n - k) = l := by omega
  show (List.drop (p.offset + k) _).take l = _
  rw [read, List.drop_take, List.take_take, hmin, List.drop_drop]
  rfl

/-- A block after some of its bytes were written. -/
theorem read_write_block {m : Memory} {b k : Nat} {old : List UInt8} (bytes : List UInt8)
    (h : m.block? b = some old) :
    (m.write ⟨b, k⟩ bytes).read ⟨b, 0⟩ old.length = splice old k bytes := by
  have hblock : (m.write ⟨b, k⟩ bytes).block? b = some (splice old k bytes) := by
    rw [block?_write, if_pos rfl, h]
    rfl
  simp only [read, hblock, Option.getD_some, List.drop_zero]
  rw [← length_splice old k bytes, List.take_length]

/-! ## Operations that commute -/

theorem write_write_comm (m : Memory) {p q : Pointer} {bs cs : List UInt8}
    (h : p.Apart bs.length q cs.length) :
    (m.write p bs).write q cs = (m.write q cs).write p bs := by
  apply ext_block? (by simp)
  intro b
  simp only [block?_write]
  by_cases hp : b = p.block
  · by_cases hq : b = q.block
    · simp only [if_pos hp, if_pos hq, Option.map_map]
      congr 1
      funext old
      exact splice_splice_comm _ _ _ _ _ (h (hp.symm.trans hq))
    · simp only [if_pos hp, if_neg hq]
  · simp only [if_neg hp]

theorem write_alloc_comm (m : Memory) {p : Pointer} (bs z : List UInt8) (h : p.block < m.next) :
    (m.alloc z).write p bs = (m.write p bs).alloc z := by
  apply ext_block? (by simp)
  intro b
  simp only [block?_write, block?_alloc, next_write]
  by_cases hb : b = m.next
  · have hne : b ≠ p.block := by omega
    simp [hb, Nat.ne_of_gt h]
  · simp [hb]

theorem write_free_comm (m : Memory) {p : Pointer} {b : Nat} (bs : List UInt8)
    (h : p.block ≠ b) : (m.free b).write p bs = (m.write p bs).free b := by
  apply ext_block? (by simp)
  intro i
  simp only [block?_write, block?_free]
  by_cases hi : i = b
  · simp [hi, Ne.symm h]
  · simp [hi]

end Memory

end DeviceBatch
