import DeviceBatch.Proofs.Grounded
import DeviceBatch.Proofs.Moving

/-!
# When storage is given out

Storage is asked for in one place, and there are five things that can come of it
(`Machine.Acquisition`): it is too long to be described, the device has none
(`Machine.Denial`), the host has none, it is empty, or the next block is given out. Which of them it
is can be told beforehand from the platform and the bytes in use (`Session.allocate_exact`), and
where nothing is given out nothing has changed.

For that the bytes in use must be counted for each device, which is so at every moment of every
session.
-/

namespace DeviceBatch

/-- The bytes of each device; the host platform has no device. -/
def Platform.capacity : Platform → Nat
  | host => 0
  | simulated devices => devices.capacity

namespace Machine

variable {m m' : Machine} {bytes device : Nat} {location : Location} {fault : AllocationFault}

/-! ## What a device has no room for -/

/-- Why a device has no storage of that length. Storage of no bytes is only denied where there is no
device memory at all. -/
inductive Denial (m : Machine) (bytes device : Nat) : Location → AllocationFault → Prop where
  | unsupported (h : m.platform.hasDeviceMemory = false) :
    Denial m bytes device .device (.noDeviceSupport m.platform.name)
  | missing (hmemory : m.platform.hasDeviceMemory = true) (hb : bytes ≠ 0)
    (h : m.platform.deviceCount ≤ device) : Denial m bytes device .device .noSuchDevice
  | full (hb : bytes ≠ 0) (hd : device < m.platform.deviceCount)
    (h : m.platform.capacity < m.bytesInUse device + bytes) :
    Denial m bytes device .device
      (.outOfDeviceMemory (m.platform.capacity - m.bytesInUse device))

namespace Denial

/-- The condition in plain terms. -/
theorem exists_iff : (∃ fault, m.Denial bytes device location fault) ↔
    location = .device ∧ (m.platform.hasDeviceMemory = false ∨
      bytes ≠ 0 ∧ (m.platform.deviceCount ≤ device ∨
        m.platform.capacity < m.bytesInUse device + bytes)) := by
  constructor
  · rintro ⟨fault, h⟩
    cases h with
    | unsupported h => exact ⟨rfl, .inl h⟩
    | missing hmemory hb h => exact ⟨rfl, .inr ⟨hb, .inl h⟩⟩
    | full hb hd h => exact ⟨rfl, .inr ⟨hb, .inr h⟩⟩
  · rintro ⟨rfl, h⟩
    cases hmemory : m.platform.hasDeviceMemory with
    | false => exact ⟨_, .unsupported hmemory⟩
    | true =>
      rcases h with h | ⟨hb, h⟩
      · rw [hmemory] at h
        cases h
      · by_cases hd : m.platform.deviceCount ≤ device
        · exact ⟨_, .missing hmemory hb hd⟩
        · rcases h with h | h
          · exact absurd h hd
          · exact ⟨_, .full hb (Nat.lt_of_not_le hd) h⟩

/-- There is one reason at most. -/
theorem unique {fault' : AllocationFault} (h : m.Denial bytes device location fault)
    (h' : m.Denial bytes device location fault') : fault = fault' := by
  have hno : m.platform.hasDeviceMemory = false → ¬ device < m.platform.deviceCount := by
    intro hmemory hd
    unfold Platform.hasDeviceMemory at hmemory
    rw [decide_eq_false_iff_not] at hmemory
    omega
  cases h with
  | unsupported h =>
    cases h' with
    | unsupported => rfl
    | missing hmemory => rw [h] at hmemory; cases hmemory
    | full _ hd => exact absurd hd (hno h)
  | missing hmemory _ h =>
    cases h' with
    | unsupported h' => rw [hmemory] at h'; cases h'
    | missing => rfl
    | full _ hd => omega
  | full _ hd =>
    cases h' with
    | unsupported h' => exact absurd hd (hno h')
    | missing _ _ h' => omega
    | full => rfl

/-- It is not for want of host memory that a device has no storage. -/
theorem ne_hostExhausted (h : m.Denial bytes device location fault) :
    fault ≠ .hostExhausted := by
  rintro rfl
  cases h

end Denial

/-! ## What comes of asking -/

/-- The five things that can come of asking for owned storage. -/
inductive Acquisition (m : Machine) (bytes : Nat) (location : Location) (device : Nat) :
    Except Error (Allocation × Machine) → Prop where
  | oversized (h : Size.storageLimit < bytes) :
    Acquisition m bytes location device
      (.error (.allocation Size.maximum location device .sizeOverflow))
  | denied {fault : AllocationFault} (hlimit : bytes ≤ Size.storageLimit)
    (h : m.Denial bytes device location fault) :
    Acquisition m bytes location device (.error (.allocation bytes location device fault))
  | exhausted (hlimit : bytes ≤ Size.storageLimit)
    (hnone : ∀ fault, ¬ m.Denial bytes device location fault) (h : hostBlockLimit ≤ bytes) :
    Acquisition m bytes location device (.error (.allocation bytes .host 0 .hostExhausted))
  | empty (hnone : ∀ fault, ¬ m.Denial bytes device location fault) (h : bytes = 0) :
    Acquisition m bytes location device (.ok (⟨0, 0, location, device⟩, m))
  | given {m' : Machine} (hnone : ∀ fault, ¬ m.Denial bytes device location fault)
    (hb : bytes ≠ 0) (h : bytes < hostBlockLimit)
    (hm : m.Allocated bytes location device m') :
    Acquisition m bytes location device (.ok (⟨m.memory.next, bytes, location, device⟩, m'))

theorem hostBlock_of_lt (hb : bytes ≠ 0) (h : bytes < hostBlockLimit) :
    m.hostBlock bytes =
      .ok (m.memory.next, { m with memory := m.memory.alloc (List.replicate bytes 0) }) := by
  unfold hostBlock
  rw [if_neg hb, if_neg (Nat.not_le_of_lt h)]

theorem hostBlock_of_le (hb : bytes ≠ 0) (h : hostBlockLimit ≤ bytes) :
    m.hostBlock bytes = .error (.allocation bytes .host 0 .hostExhausted) := by
  unfold hostBlock
  rw [if_neg hb, if_pos h]

/-- The host gives out all that it has a block for. -/
theorem allocate_host (m : Machine) (device : Nat) (hb : bytes ≠ 0) :
    (hostBlockLimit ≤ bytes ∧
      m.allocate bytes .host device = .error (.allocation bytes .host 0 .hostExhausted)) ∨
    bytes < hostBlockLimit ∧ ∃ m', m.allocate bytes .host device = .ok (m.memory.next, m') := by
  unfold allocate
  by_cases hlt : bytes < hostBlockLimit
  · simp only [hostBlock_of_lt hb hlt]
    exact .inr ⟨hlt, _, rfl⟩
  · have hle : hostBlockLimit ≤ bytes := Nat.le_of_not_lt hlt
    simp only [hostBlock_of_le hb hle]
    exact .inl ⟨hle, trivial⟩

/-- A device denies what it has no room for, and the rest is up to the host. -/
theorem allocate_device (hm : m.used.length = m.platform.deviceCount)
    (hmemory : m.platform.hasDeviceMemory = true) (device : Nat) (hb : bytes ≠ 0) :
    (∃ fault, m.Denial bytes device .device fault ∧
      m.allocate bytes .device device = .error (.allocation bytes .device device fault)) ∨
    (∀ fault, ¬ m.Denial bytes device .device fault) ∧
      ((hostBlockLimit ≤ bytes ∧
        m.allocate bytes .device device = .error (.allocation bytes .host 0 .hostExhausted)) ∨
      bytes < hostBlockLimit ∧
        ∃ m', m.allocate bytes .device device = .ok (m.memory.next, m')) := by
  cases hp : m.platform with
  | host =>
    rw [hp] at hmemory
    cases hmemory
  | simulated devices =>
    have hcapacity : m.platform.capacity = devices.capacity := by rw [hp]; rfl
    unfold allocate deviceBlock
    simp only [hp]
    by_cases hd : m.platform.deviceCount ≤ device
    · have hused : m.used[device]? = none := List.getElem?_eq_none (hm ▸ hd)
      simp only [hused]
      exact .inl ⟨_, .missing hmemory hb hd, rfl⟩
    · have hd' : device < m.platform.deviceCount := Nat.lt_of_not_le hd
      have hused : m.used[device]? = some (m.bytesInUse device) := by
        unfold bytesInUse
        rw [List.getElem?_eq_getElem (hm ▸ hd')]
        rfl
      by_cases hfull : devices.capacity < m.bytesInUse device + bytes
      · simp only [hused, if_pos hfull]
        rw [← hcapacity] at hfull ⊢
        exact .inl ⟨_, .full hb hd' hfull, rfl⟩
      · have hnone : ∀ fault, ¬ m.Denial bytes device .device fault := by
          intro fault h
          cases h with
          | unsupported h => rw [hmemory] at h; cases h
          | missing _ _ h => exact hd h
          | full _ _ h => exact hfull (hcapacity ▸ h)
        simp only [hused, if_neg hfull]
        by_cases hlt : bytes < hostBlockLimit
        · simp only [hostBlock_of_lt hb hlt]
          exact .inr ⟨hnone, .inr ⟨hlt, _, rfl⟩⟩
        · have hle : hostBlockLimit ≤ bytes := Nat.le_of_not_lt hlt
          simp only [hostBlock_of_le hb hle]
          exact .inr ⟨hnone, .inl ⟨hle, trivial⟩⟩

/-- What is not empty is asked of the platform. -/
theorem acquire_of_allocate (hb : bytes ≠ 0) (hlimit : ¬ Size.storageLimit < bytes)
    (hmemory : location = .device → m.platform.hasDeviceMemory = true) :
    acquire bytes location device m = (m.allocate bytes location device).map fun p =>
      (⟨p.1, bytes, location, device⟩, p.2) := by
  have hgranted : ¬ (location.isDevice && !m.platform.hasDeviceMemory) = true := by
    cases location with
    | host => simp [Location.isDevice]
    | device => simp [hmemory rfl]
  unfold acquire
  rw [if_neg hlimit, if_neg hgranted, if_neg hb]
  cases m.allocate bytes location device with
  | error e => rfl
  | ok p => rfl

/-- Whoever asks for storage is answered in one of five ways. -/
theorem acquire_acquisition (hm : m.used.length = m.platform.deviceCount) (bytes : Nat)
    (location : Location) (device : Nat) :
    m.Acquisition bytes location device (acquire bytes location device m) := by
  by_cases hover : Size.storageLimit < bytes
  · have hrun : acquire bytes location device m = .error _ := if_pos hover
    rw [hrun]
    exact .oversized hover
  have hlimit : bytes ≤ Size.storageLimit := Nat.le_of_not_lt hover
  by_cases hdenied : location = .device ∧ m.platform.hasDeviceMemory = false
  · obtain ⟨rfl, hmemory⟩ := hdenied
    have hrun : acquire bytes .device device m =
        .error (.allocation bytes .device device (.noDeviceSupport m.platform.name)) := by
      unfold acquire
      rw [if_neg hover, if_pos (by simp [Location.isDevice, hmemory])]
    rw [hrun]
    exact .denied hlimit (.unsupported hmemory)
  have hmemory : location = .device → m.platform.hasDeviceMemory = true := by
    intro hl
    by_contra hno
    exact hdenied ⟨hl, Bool.eq_false_iff.mpr hno⟩
  by_cases hb : bytes = 0
  · have hrun : acquire bytes location device m = .ok (⟨0, 0, location, device⟩, m) := by
      unfold acquire
      rw [if_neg hover, if_neg (by cases location <;> simp [Location.isDevice, hmemory]), if_pos hb]
      rfl
    rw [hrun]
    refine .empty (fun fault h => ?_) hb
    cases h with
    | unsupported h => rw [hmemory rfl] at h; cases h
    | missing _ hb' => exact hb' hb
    | full hb' => exact hb' hb
  rw [acquire_of_allocate hb hover hmemory]
  cases location with
  | host =>
    have hnone : ∀ fault, ¬ m.Denial bytes device .host fault := by
      intro fault h
      cases h
    rcases allocate_host m device hb with ⟨hle, ha⟩ | ⟨hlt, m', ha⟩
    · rw [ha]
      exact .exhausted hlimit hnone hle
    · rw [ha]
      exact .given hnone hb hlt (allocate_eq_ok ha).2.2
  | device =>
    rcases allocate_device hm (hmemory rfl) device hb with
      ⟨fault, hdenial, ha⟩ | ⟨hnone, ⟨hle, ha⟩ | ⟨hlt, m', ha⟩⟩
    · rw [ha]
      exact .denied hlimit hdenial
    · rw [ha]
      exact .exhausted hlimit hnone hle
    · rw [ha]
      exact .given hnone hb hlt (allocate_eq_ok ha).2.2

namespace Allocated

/-- The new block is all zeros. -/
theorem block?_next (h : m.Allocated bytes location device m') :
    m'.memory.block? m.memory.next = some (List.replicate bytes 0) := by
  rw [h.memory, Memory.block?_alloc, if_pos rfl]

/-- All other blocks are as they were. -/
theorem block?_of_isSome (h : m.Allocated bytes location device m') {k : Nat}
    (hk : (m.memory.block? k).isSome) :
    k ≠ m.memory.next ∧ m'.memory.block? k = m.memory.block? k := by
  obtain ⟨old, hold⟩ := Option.isSome_iff_exists.mp hk
  have hne : k ≠ m.memory.next := Nat.ne_of_lt (Memory.lt_next_of_block? hold)
  refine ⟨hne, ?_⟩
  rw [h.memory, Memory.block?_alloc, if_neg hne]

end Allocated

end Machine

/-! ## Buffers -/

namespace Buffer

variable {m m' : Machine} {dtype : ElementType} {size device : Nat} {location : Location}
  {stream : Stream}

theorem allocate_of_ok {a : Allocation}
    (h : Machine.acquire (size * dtype.width) location device m = .ok (a, m')) :
    allocate dtype size location device stream m = .ok ⟨.owned a, dtype, size, device, stream⟩
      (m'.emit (.allocatedBuffer size dtype location device)) :=
  Action.bind_of_ok (Action.attempt_of_ok h)

theorem allocate_of_error {e : Error}
    (h : Machine.acquire (size * dtype.width) location device m = .error e) :
    allocate dtype size location device stream m = .error e m :=
  Action.bind_of_error (Action.attempt_of_error h)

/-- The errors that a buffer is refused with, and when. -/
theorem allocate_eq_error_iff (hm : m.used.length = m.platform.deviceCount) {e : Error} :
    (∃ m', allocate dtype size location device stream m = .error e m') ↔
      (Size.storageLimit < size * dtype.width ∧
        e = .allocation Size.maximum location device .sizeOverflow) ∨
      size * dtype.width ≤ Size.storageLimit ∧
        ((∃ fault, m.Denial (size * dtype.width) device location fault ∧
          e = .allocation (size * dtype.width) location device fault) ∨
        (∀ fault, ¬ m.Denial (size * dtype.width) device location fault) ∧
          Machine.hostBlockLimit ≤ size * dtype.width ∧
            e = .allocation (size * dtype.width) .host 0 .hostExhausted) := by
  have hanswer := Machine.acquire_acquisition hm (size * dtype.width) location device
  generalize hrun : Machine.acquire (size * dtype.width) location device m = answer at hanswer
  cases hanswer with
  | oversized hover =>
    rw [allocate_of_error hrun]
    constructor
    · rintro ⟨m', h⟩
      cases h
      exact .inl ⟨hover, rfl⟩
    · rintro (⟨-, rfl⟩ | ⟨hlimit, -⟩)
      · exact ⟨m, rfl⟩
      · omega
  | denied hlimit hdenial =>
    rw [allocate_of_error hrun]
    constructor
    · rintro ⟨m', h⟩
      cases h
      exact .inr ⟨hlimit, .inl ⟨_, hdenial, rfl⟩⟩
    · rintro (⟨hover, -⟩ | ⟨-, ⟨fault, hdenial', rfl⟩ | ⟨hnone, -⟩⟩)
      · omega
      · rw [hdenial.unique hdenial']
        exact ⟨m, rfl⟩
      · exact absurd hdenial (hnone _)
  | exhausted hlimit hnone hle =>
    rw [allocate_of_error hrun]
    constructor
    · rintro ⟨m', h⟩
      cases h
      exact .inr ⟨hlimit, .inr ⟨hnone, hle, rfl⟩⟩
    · rintro (⟨hover, -⟩ | ⟨-, ⟨fault, hdenial, -⟩ | ⟨-, -, rfl⟩⟩)
      · omega
      · exact absurd hdenial (hnone fault)
      · exact ⟨m, rfl⟩
  | empty hnone hb =>
    rw [allocate_of_ok hrun]
    constructor
    · rintro ⟨m', h⟩
      cases h
    · have hpos : 0 < Size.storageLimit ∧ 0 < Machine.hostBlockLimit := by decide
      rintro (⟨hover, -⟩ | ⟨-, ⟨fault, hdenial, -⟩ | ⟨-, hle, -⟩⟩)
      · omega
      · exact absurd hdenial (hnone fault)
      · omega
  | given hnone hb hlt =>
    rw [allocate_of_ok hrun]
    constructor
    · rintro ⟨m', h⟩
      cases h
    · have hlimit : Machine.hostBlockLimit ≤ Size.storageLimit := by decide
      rintro (⟨hover, -⟩ | ⟨-, ⟨fault, hdenial, -⟩ | ⟨-, hle, -⟩⟩)
      · omega
      · exact absurd hdenial (hnone fault)
      · omega

/-- Sizes overflow for no other reason. -/
theorem allocate_oversized_iff (hm : m.used.length = m.platform.deviceCount) :
    (∃ m', allocate dtype size location device stream m =
      .error (.allocation Size.maximum location device .sizeOverflow) m') ↔
        Size.storageLimit < size * dtype.width := by
  rw [allocate_eq_error_iff hm]
  constructor
  · rintro (⟨hover, -⟩ | ⟨-, ⟨fault, hdenial, heq⟩ | ⟨-, -, heq⟩⟩)
    · exact hover
    · obtain ⟨-, -, -, rfl⟩ := Error.allocation.inj heq
      cases hdenial
    · obtain ⟨-, -, -, hfault⟩ := Error.allocation.inj heq
      cases hfault
  · exact fun hover => .inl ⟨hover, rfl⟩

/-- A denial is the answer, and nothing has been done. -/
theorem allocate_of_denial (hm : m.used.length = m.platform.deviceCount)
    (hlimit : size * dtype.width ≤ Size.storageLimit) {fault : AllocationFault}
    (hdenial : m.Denial (size * dtype.width) device location fault) :
    allocate dtype size location device stream m =
      .error (.allocation (size * dtype.width) location device fault) m := by
  obtain ⟨m', h⟩ := (allocate_eq_error_iff hm).mpr (.inr ⟨hlimit, .inl ⟨fault, hdenial, rfl⟩⟩)
  rw [h, allocate_eq_error h]

theorem allocate_denied_iff (hm : m.used.length = m.platform.deviceCount)
    (hlimit : size * dtype.width ≤ Size.storageLimit) :
    (∃ fault m', fault ≠ .hostExhausted ∧ allocate dtype size location device stream m =
      .error (.allocation (size * dtype.width) location device fault) m') ↔
        ∃ fault, m.Denial (size * dtype.width) device location fault := by
  constructor
  · rintro ⟨fault, m', hne, h⟩
    rcases (allocate_eq_error_iff hm).mp ⟨m', h⟩ with
      ⟨hover, -⟩ | ⟨-, ⟨fault', hdenial, -⟩ | ⟨-, -, heq⟩⟩
    · omega
    · exact ⟨fault', hdenial⟩
    · cases heq
      exact absurd rfl hne
  · rintro ⟨fault, hdenial⟩
    exact ⟨fault, m, hdenial.ne_hostExhausted, allocate_of_denial hm hlimit hdenial⟩

/-- The host is exhausted only where nothing else stands in the way. -/
theorem allocate_exhausted_iff (hm : m.used.length = m.platform.deviceCount)
    (hlimit : size * dtype.width ≤ Size.storageLimit) :
    (∃ m', allocate dtype size location device stream m =
      .error (.allocation (size * dtype.width) .host 0 .hostExhausted) m') ↔
        (¬ ∃ fault, m.Denial (size * dtype.width) device location fault) ∧
          Machine.hostBlockLimit ≤ size * dtype.width := by
  rw [allocate_eq_error_iff hm]
  constructor
  · rintro (⟨hover, -⟩ | ⟨-, ⟨fault, hdenial, heq⟩ | ⟨hnone, hle, -⟩⟩)
    · omega
    · cases heq
      exact absurd rfl hdenial.ne_hostExhausted
    · exact ⟨fun ⟨fault, h⟩ => hnone fault h, hle⟩
  · rintro ⟨hnone, hle⟩
    exact .inr ⟨hlimit, .inr ⟨fun fault h => hnone ⟨fault, h⟩, hle, rfl⟩⟩

/-- What nobody refuses is given out: nothing is asked for an empty buffer, and otherwise the next
block is the buffer's own. -/
theorem allocate_of_granted (hm : m.used.length = m.platform.deviceCount)
    (hlt : size * dtype.width < Machine.hostBlockLimit)
    (hnone : ∀ fault, ¬ m.Denial (size * dtype.width) device location fault) :
    (size = 0 ∧ allocate dtype size location device stream m =
      .ok ⟨.owned ⟨0, 0, location, device⟩, dtype, size, device, stream⟩
        (m.emit (.allocatedBuffer size dtype location device))) ∨
    0 < size ∧ ∃ m', m.Allocated (size * dtype.width) location device m' ∧
      allocate dtype size location device stream m =
        .ok ⟨.owned ⟨m.memory.next, size * dtype.width, location, device⟩, dtype, size, device,
          stream⟩ (m'.emit (.allocatedBuffer size dtype location device)) := by
  have hwidth := dtype.width_pos
  have hlimit : Machine.hostBlockLimit ≤ Size.storageLimit := by decide
  have hanswer := Machine.acquire_acquisition hm (size * dtype.width) location device
  generalize hrun : Machine.acquire (size * dtype.width) location device m = answer at hanswer
  cases hanswer with
  | oversized hover => omega
  | denied _ hdenial => exact absurd hdenial (hnone _)
  | exhausted _ _ hle => omega
  | empty _ hb =>
    have hsize : size = 0 := (Nat.mul_eq_zero.mp hb).resolve_right (Nat.ne_of_gt hwidth)
    exact .inl ⟨hsize, allocate_of_ok hrun⟩
  | given _ hb _ ha =>
    have hsize : 0 < size := Nat.pos_of_ne_zero fun hz => hb (by rw [hz, Nat.zero_mul])
    exact .inr ⟨hsize, _, ha, allocate_of_ok hrun⟩

end Buffer

/-! ## Tensors -/

namespace Tensor

variable {m m' : Machine} {dtype : ElementType} {shape : Shape} {size device : Nat}
  {location : Location} {stream : Stream}

theorem adopt_of_holds {b : Buffer} (h : shape.product? = some b.size) (m : Machine) :
    adopt shape b m = .ok ⟨shape, b, h⟩ m := by
  have hb : ofBuffer shape b = .ok ⟨shape, b, h⟩ := by
    unfold ofBuffer
    split
    · next hnone => rw [hnone] at h; cases h
    · next count hcount =>
      rw [hcount] at h
      rw [dif_pos (Option.some.inj h)]
  unfold adopt
  rw [hb]
  exact Action.orElseTidy_of_ok rfl

/-- A tensor is given out as a buffer for the elements of its shape is. -/
theorem allocate_of_product (h : shape.product? = some size) :
    (∀ e m', allocate dtype shape location device stream m = .error e m' ↔
      Buffer.allocate dtype size location device stream m = .error e m') ∧
    ∀ t m', allocate dtype shape location device stream m = .ok t m' ↔
      t.shape = shape ∧ Buffer.allocate dtype size location device stream m = .ok t.buffer m' := by
  unfold allocate
  rw [h]
  dsimp only
  cases hb : Buffer.allocate dtype size location device stream m with
  | error e' m₁ =>
    rw [Action.bind_of_error hb]
    refine ⟨fun e m' => ⟨fun h => ?_, fun h => ?_⟩, fun t m' => ⟨nofun, nofun⟩⟩
    · cases h
      rfl
    · cases h
      rfl
  | ok b m₁ =>
    have hsize : shape.product? = some b.size := by
      rw [(Buffer.allocate_eq_ok hb).1]
      exact h
    rw [Action.bind_of_ok hb, adopt_of_holds hsize]
    refine ⟨fun e m' => ⟨nofun, nofun⟩, fun t m' => ⟨?_, ?_⟩⟩
    · intro ht
      cases ht
      exact ⟨rfl, rfl⟩
    · rintro ⟨hshape, ht⟩
      obtain ⟨shape', buffer, holds⟩ := t
      cases hshape
      cases ht
      rfl

theorem allocate_of_overflow (h : shape.product? = none) :
    allocate dtype shape location device stream m =
      .error (.shapeMismatch (.countOverflow shape)) m := by
  unfold allocate
  rw [h]
  rfl

end Tensor

/-! ## Every session -/

namespace Session

/-- At every moment of every session it can be told from the platform and the bytes in use whether a
buffer is given out, and with which error it is refused. A buffer of no elements leaves the platform
alone; any other gets one block of zeros that was never in use before. Where nothing is given out,
nothing has changed. A tensor is given out as a buffer for the elements of its shape is, if these
can be counted. -/
theorem allocate_exact (platform : Platform) (device : Nat) (steps : List Step)
    (dtype : ElementType) (size : Nat) (location : Location) (target : Nat) (stream : Stream) :
    let m := (steps.foldl after (start platform device)).machine
    let bytes := size * dtype.width
    let allocate := Buffer.allocate dtype size location target stream
    let denied := location = .device ∧ (m.platform.hasDeviceMemory = false ∨
      0 < size ∧ (m.platform.deviceCount ≤ target ∨
        m.platform.capacity < m.bytesInUse target + bytes))
    ((∃ m', allocate m = .error (.allocation Size.maximum location target .sizeOverflow) m') ↔
      Size.storageLimit < bytes) ∧
    (bytes ≤ Size.storageLimit →
      ((∃ fault m', fault ≠ .hostExhausted ∧
        allocate m = .error (.allocation bytes location target fault) m') ↔ denied) ∧
      (∀ fault, m.Denial bytes target location fault →
        allocate m = .error (.allocation bytes location target fault) m) ∧
      ((∃ m', allocate m = .error (.allocation bytes .host 0 .hostExhausted) m') ↔
        ¬ denied ∧ Machine.hostBlockLimit ≤ bytes) ∧
      (¬ denied → bytes < Machine.hostBlockLimit →
        (size = 0 → allocate m =
          .ok ⟨.owned ⟨0, 0, location, target⟩, dtype, size, target, stream⟩
            (m.emit (.allocatedBuffer size dtype location target))) ∧
        (0 < size → ∃ m', m.Allocated bytes location target m' ∧
          allocate m =
            .ok ⟨.owned ⟨m.memory.next, bytes, location, target⟩, dtype, size, target, stream⟩
              (m'.emit (.allocatedBuffer size dtype location target)) ∧
          m'.memory.block? m.memory.next = some (List.replicate bytes 0) ∧
          ∀ k, (m.memory.block? k).isSome →
            k ≠ m.memory.next ∧ m'.memory.block? k = m.memory.block? k))) ∧
    (∀ e m', allocate m = .error e m' → m' = m) ∧
    ∀ shape : Shape,
      let allocateTensor := Tensor.allocate dtype shape location target stream
      (shape.product? = none →
        allocateTensor m = .error (.shapeMismatch (.countOverflow shape)) m) ∧
      (shape.product? = some size →
        (∀ e m', allocateTensor m = .error e m' ↔ allocate m = .error e m') ∧
        ∀ t m', allocateTensor m = .ok t m' ↔
          t.shape = shape ∧ allocate m = .ok t.buffer m') := by
  intro m bytes allocate denied
  have hm : m.used.length = m.platform.deviceCount :=
    (grounded_after platform device steps).machine.devices
  have hwidth := dtype.width_pos
  have hdenied : (∃ fault, m.Denial bytes target location fault) ↔ denied := by
    have hb : bytes ≠ 0 ↔ 0 < size := by
      rw [Nat.pos_iff_ne_zero]
      exact not_congr ⟨fun hz => (Nat.mul_eq_zero.mp hz).resolve_right (Nat.ne_of_gt hwidth),
        fun hz => by show size * _ = 0; rw [hz, Nat.zero_mul]⟩
    rw [Machine.Denial.exists_iff, hb]
  have hnone : ¬ denied → ∀ fault, ¬ m.Denial bytes target location fault :=
    fun hgranted fault h => hgranted (hdenied.mp ⟨fault, h⟩)
  refine ⟨Buffer.allocate_oversized_iff hm, fun hlimit => ⟨?_, fun fault hdenial => ?_, ?_,
    fun hgranted hlt => ⟨fun hsize => ?_, fun hsize => ?_⟩⟩, fun _ _ => Buffer.allocate_eq_error,
    fun shape => ⟨fun h => ?_, fun h => ?_⟩⟩
  · exact (Buffer.allocate_denied_iff hm hlimit).trans hdenied
  · exact Buffer.allocate_of_denial hm hlimit hdenial
  · exact (Buffer.allocate_exhausted_iff hm hlimit).trans
      (and_congr_left' (not_congr hdenied))
  · rcases Buffer.allocate_of_granted hm hlt (hnone hgranted) with ⟨-, hrun⟩ | ⟨hpos, -⟩
    · exact hrun
    · omega
  · rcases Buffer.allocate_of_granted hm hlt (hnone hgranted) with ⟨hz, -⟩ | ⟨-, m', ha, hrun⟩
    · omega
    · exact ⟨m', ha, hrun, ha.block?_next, fun _ => ha.block?_of_isSome⟩
  · exact Tensor.allocate_of_overflow h
  · exact Tensor.allocate_of_product h

/-- A device of 64 bytes, 40 of which are in use. -/
def brimful : List Step := [
  .perform (.buffer (.ofList "a" .uint64 [1, 2, 3, 4, 5] .device 0 ⟨1⟩))]

/-- There is room for three elements more and not for four. -/
theorem brimful_exact :
    let m := (brimful.foldl after (start (.simulated ⟨1, 64, true⟩) 0)).machine
    m.bytesInUse 0 = 40 ∧
    (∃ m', m.Allocated 24 .device 0 m' ∧
      Buffer.allocate .uint64 3 .device 0 ⟨2⟩ m =
        .ok ⟨.owned ⟨m.memory.next, 24, .device, 0⟩, .uint64, 3, 0, ⟨2⟩⟩
          (m'.emit (.allocatedBuffer 3 .uint64 .device 0))) ∧
    Buffer.allocate .uint64 4 .device 0 ⟨2⟩ m =
      .error (.allocation 32 .device 0 (.outOfDeviceMemory 24)) m := by
  have hfits := allocate_exact (.simulated ⟨1, 64, true⟩) 0 brimful .uint64 3 .device 0 ⟨2⟩
  have hfull := allocate_exact (.simulated ⟨1, 64, true⟩) 0 brimful .uint64 4 .device 0 ⟨2⟩
  have hstate : (brimful.foldl after (start (.simulated ⟨1, 64, true⟩) 0)).machine.platform =
      .simulated ⟨1, 64, true⟩ ∧
      (brimful.foldl after (start (.simulated ⟨1, 64, true⟩) 0)).machine.bytesInUse 0 = 40 := by
    decide +kernel
  generalize (brimful.foldl after (start (.simulated ⟨1, 64, true⟩) 0)).machine = m
    at hfits hfull hstate ⊢
  obtain ⟨hp, hused⟩ := hstate
  refine ⟨hused, ?_, ?_⟩
  · have hgranted := (hfits.2.1 (by decide)).2.2.2 (by
      rw [hp, hused]
      decide) (by decide)
    obtain ⟨m', hm, hrun, -⟩ := hgranted.2 (by decide)
    exact ⟨m', hm, hrun⟩
  · have hdenial : m.Denial 32 0 .device (.outOfDeviceMemory 24) := by
      have h : m.Denial 32 0 .device _ := .full (by decide) (by rw [hp]; decide)
        (by rw [hp, hused]; decide)
      rwa [hp, hused] at h
    exact (hfull.2.1 (by decide)).2.1 _ hdenial

end Session

end DeviceBatch
