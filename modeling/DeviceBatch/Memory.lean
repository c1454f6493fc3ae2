/-!
# Memory

Memory is a list of blocks. A block is named by its place in the list, and places are never used
again: a new block goes to the end, and a released one leaves its place empty. A pointer is a block
and an offset in bytes, so storage of different blocks cannot overlap, and there are no addresses.

Place 0 never holds a block; pointers to storage of no bytes point there.
-/

namespace DeviceBatch

/-- A position in memory. -/
structure Pointer where
  block : Nat
  offset : Nat
  deriving DecidableEq, Repr, Inhabited

namespace Pointer

/-- The pointer of storage that has no bytes. -/
def dangling : Pointer := ⟨0, 0⟩

/-- The position `bytes` further on. -/
def advance (p : Pointer) (bytes : Nat) : Pointer := { p with offset := p.offset + bytes }

end Pointer

/-- The blocks that were ever allocated, each with its bytes as long as it is live. -/
structure Memory where
  blocks : List (Option (List UInt8))
  deriving DecidableEq, Repr

namespace Memory

/-- No block is live. -/
def empty : Memory := ⟨[none]⟩

/-- The bytes of a live block. -/
def block? (m : Memory) (block : Nat) : Option (List UInt8) := m.blocks[block]?.join

/-- The number that the next block gets. -/
def next (m : Memory) : Nat := m.blocks.length

/-- Adds a block, which gets the number `next`. -/
def alloc (m : Memory) (bytes : List UInt8) : Memory := ⟨m.blocks ++ [some bytes]⟩

/-- Gives a block up. -/
def free (m : Memory) (block : Nat) : Memory := ⟨m.blocks.set block none⟩

/-- The `n` bytes from `p` on, as far as the block reaches. -/
def read (m : Memory) (p : Pointer) (n : Nat) : List UInt8 :=
  (((m.block? p.block).getD []).drop p.offset).take n

/-- Overwrites the bytes from `p` on; nothing happens unless all of them lie in a live block. -/
def write (m : Memory) (p : Pointer) (bytes : List UInt8) : Memory :=
  match m.block? p.block with
  | none => m
  | some old =>
    if p.offset + bytes.length ≤ old.length then
      ⟨m.blocks.set p.block
        (some (old.take p.offset ++ bytes ++ old.drop (p.offset + bytes.length)))⟩
    else m

/-- Copies `n` bytes from `src` to `dst`. -/
def copy (m : Memory) (dst src : Pointer) (n : Nat) : Memory := m.write dst (m.read src n)

/-- All of the `n` bytes from `p` on lie in a live block; no bytes lie anywhere. -/
def holds (m : Memory) (p : Pointer) (n : Nat) : Bool :=
  n == 0 || (m.block? p.block).any fun bytes => p.offset + n ≤ bytes.length

/-! ## What the operations do to a block -/

@[simp] theorem block?_empty (block : Nat) : empty.block? block = none := by
  unfold block? empty
  cases block <;> simp

/-- The new block is the one with number `next`; all others are as before. -/
theorem block?_alloc (m : Memory) (bytes : List UInt8) (block : Nat) :
    (m.alloc bytes).block? block = if block = m.next then some bytes else m.block? block := by
  unfold alloc block? next
  rcases Nat.lt_trichotomy block m.blocks.length with h | h | h
  · simp [List.getElem?_append_left h, Nat.ne_of_lt h]
  · subst h; simp
  · have hne : block ≠ m.blocks.length := Nat.ne_of_gt h
    rw [List.getElem?_eq_none (by simp; omega), List.getElem?_eq_none (Nat.le_of_lt h)]
    simp [hne]

/-- Only the block given up is no longer live. -/
theorem block?_free (m : Memory) (freed block : Nat) :
    (m.free freed).block? block = if block = freed then none else m.block? block := by
  unfold free block?
  rw [List.getElem?_set]
  by_cases h : freed = block
  · subst h
    by_cases hl : freed < m.blocks.length <;> simp [hl]
  · simp [h, Ne.symm h]

/-- A write changes no other block. -/
theorem block?_write_of_ne (m : Memory) (p : Pointer) (bytes : List UInt8) {block : Nat}
    (h : block ≠ p.block) : (m.write p bytes).block? block = m.block? block := by
  unfold write
  split
  · rfl
  · split
    · unfold block?
      simp [List.getElem?_set_ne (Ne.symm h)]
    · rfl

end Memory

end DeviceBatch
