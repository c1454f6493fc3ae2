import DeviceBatch.Proofs.Lifetimes

/-!
# Addresses come back

Every block has a number of its own, but the host allocator may put a new block where one was that
has been given back. A copy that waits keeps addresses: if storage of it was given back while it
waited, it reads or writes the block that lies there when it is performed (`Machine.readdressed`).

In a reachable session that makes no difference, because all storage that copies wait for is live
(`Session.Reachable.readdressed_eq`). It does make one where a move or the adoption of a buffer by a
tensor fails: what was handed over is dropped, host storage too that a waiting copy touches. No
reachable session has such a step (`BufferCommand.Permitted`), although it is not the caller who
drops anything (`Session.CallerPermits`).
-/

namespace DeviceBatch

/-! ## Where blocks lie -/

namespace Memory

variable {m : Memory} {address : Nat → Nat} {block : Nat}

/-- Live blocks start at addresses of their own and share none. -/
def Placed (address : Nat → Nat) (m : Memory) : Prop :=
  ∀ b < m.next, ∀ b' < m.next, b ≠ b' → ∀ bytes ∈ m.block? b, ∀ bytes' ∈ m.block? b',
    address b ≠ address b' ∧
      (address b + bytes.length ≤ address b' ∨ address b' + bytes'.length ≤ address b)

instance (address : Nat → Nat) (m : Memory) : Decidable (m.Placed address) :=
  inferInstanceAs (Decidable (∀ b < m.next, ∀ b' < m.next, b ≠ b' → ∀ bytes ∈ m.block? b,
    ∀ bytes' ∈ m.block? b', _ ∧ _))

/-- The live block that starts where the block does or did; if there is none, the block itself. -/
def tenant (address : Nat → Nat) (m : Memory) (block : Nat) : Nat :=
  ((List.range m.next).find? fun b => (m.block? b).isSome && address b == address block).getD block

/-- While a block is live, no other one is taken for it. -/
theorem tenant_of_live (h : m.Placed address) (hlive : m.block? block ≠ none) :
    m.tenant address block = block := by
  unfold tenant
  cases hf : (List.range m.next).find? fun b => (m.block? b).isSome && address b == address block
  with
  | none => rfl
  | some b =>
    have hfound := List.find?_some hf
    obtain ⟨hb, hsame⟩ := Bool.and_eq_true_iff.mp hfound
    obtain ⟨bytes, hbytes⟩ := Option.isSome_iff_exists.mp hb
    obtain ⟨bytes', hbytes'⟩ := Option.ne_none_iff_exists'.mp hlive
    by_contra hne
    exact (h b (lt_next_of_block? hbytes) block (lt_next_of_block? hbytes') hne bytes hbytes bytes'
      hbytes').1 (eq_of_beq hsame)

/-- Addresses at which the block `new` lies where `gone` was, and the others apart from each other,
as long as none has more than 4096 bytes. -/
def reusing (gone new block : Nat) : Nat := (if block = new then gone else block) * 4096

end Memory

/-! ## Copies and addresses -/

/-- The copy as it is performed if what it keeps is addresses. -/
def PendingCopy.readdress (address : Nat → Nat) (memory : Memory) (c : PendingCopy) :
    PendingCopy where
  dst := { c.dst with block := memory.tenant address c.dst.block }
  src := { c.src with block := memory.tenant address c.src.block }
  bytes := c.bytes

namespace Machine

variable {m : Machine} {T : List Holding} {address : Nat → Nat}

/-- The machine with its waiting copies as they would be performed now. -/
def readdressed (address : Nat → Nat) (m : Machine) : Machine :=
  { m with
    queues := m.queues.map fun p => (p.1, { p.2 with
      copies := p.2.copies.map (PendingCopy.readdress address m.memory) }) }

/-- Storage in use is live. -/
theorem Orderly.block?_ne_none (h : m.Orderly T) {t : Holding} (ht : t ∈ T) :
    m.memory.block? t.block ≠ none := by
  intro hnone
  have hoccupied := h.occupied t ht
  rw [hnone] at hoccupied
  cases hoccupied

/-- Where copies wait for storage in use only, each will find the storage it was issued for. -/
theorem Keeps.readdressed_eq (h : m.Keeps T) (hp : m.memory.Placed address) :
    m.readdressed address = m := by
  have hsame : ∀ p ∈ m.queues, ∀ c ∈ p.2.copies, c.readdress address m.memory = c := by
    intro p hmem c hc
    obtain ⟨t, ht, u, hu, hdst, hsrc, -⟩ := h.served p.1 c ⟨p.2, hmem, hc⟩
    unfold PendingCopy.readdress
    rw [← hdst.1, ← hsrc.1, Memory.tenant_of_live hp (h.block?_ne_none ht),
      Memory.tenant_of_live hp (h.block?_ne_none hu), hdst.1, hsrc.1]
  have hqueue : ∀ p ∈ m.queues, (p.1, { p.2 with
      copies := p.2.copies.map (PendingCopy.readdress address m.memory) }) = p := by
    intro p hmem
    rw [List.map_congr_left (hsame p hmem), List.map_id']
  unfold readdressed
  rw [List.map_congr_left hqueue, List.map_id']

end Machine

namespace Session

variable {s : Session} {platform : Platform} {device : Nat} {address : Nat → Nat}

/-- In a reachable session every waiting copy will find the storage it was issued for, wherever the
blocks lie. -/
theorem Reachable.readdressed_eq (h : Reachable platform device s)
    (hp : s.machine.memory.Placed address) : s.machine.readdressed address = s.machine :=
  h.sound.keeps.readdressed_eq hp

end Session

/-! ## What the caller does not drop -/

/-- What is permitted, and besides moves and adoptions that fail, whatever they drop. -/
def Command.CallerPermitted (s : Session) : Command → Prop
  | .buffer (.moveTo slot src _) | .buffer (.toTensor slot src _) =>
    (BufferCommand.emptied s src).Free slot ∧ ∀ r, s.held src = .ok r → r.isInput = false
  | c => c.Permitted s

/-- Commands of which the same holds one after the other, on a host allocator that puts the blocks
at these addresses. -/
def Session.CallerPermits (address : Nat → Nat) (s : Session) : List Command → Prop
  | [] => s.machine.memory.Placed address
  | c :: cs => s.machine.memory.Placed address ∧ c.CallerPermitted s ∧
    (s.perform c).2.CallerPermits address cs

/-- A move is the caller's to make, whatever comes of it. -/
theorem Session.callerPermitted_moveTo {s : Session} {slot src : String} {location : Location}
    (hfree : (BufferCommand.emptied s src).Free slot)
    (h : (s.held src).toOption.all fun r => !r.isInput) :
    (Command.buffer (.moveTo slot src location)).CallerPermitted s :=
  ⟨hfree, fun r hr => by simpa using forall_held h r hr⟩

end DeviceBatch
