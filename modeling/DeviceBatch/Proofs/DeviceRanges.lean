import Mathlib.Data.List.MinMax
import DeviceBatch.Proofs.DeviceTable

/-!
# Device ranges

A device side of a copy is checked by its address: of the live device allocations that start there
or below, the one that starts last has to reach to the end of the range. Because the entries of a
sound table are not empty and share no address, this is the only entry that could hold the range, so
the check is exact (`Tabled.checkRange_eq_decide`), whatever the platform has been asked before
(`calls_check_exactly`).

The end of a range is a sum of two machine words. Where it is none, a build that takes the remainder
accepts ranges that lie nowhere, and a build that checks its arithmetic stops the program
(`rows_go_round`). It still accepts nothing that it should not (`Tabled.checkRange_stops_iff`).

Pointers name blocks. An address is looked up in the table (`Machine.pointerAt`), and a pointer into
live device storage is what its address is looked up to.
-/

namespace DeviceBatch

namespace DeviceAllocation

/-! ## Ranges and entries -/

variable {address : Nat → Nat} {e : DeviceAllocation} {live : List DeviceAllocation}
  {start bytes : Nat}

/-- All of the bytes from `start` on lie in the entry. -/
def Contains (address : Nat → Nat) (e : DeviceAllocation) (start bytes : Nat) : Prop :=
  address e.block ≤ start ∧ start + bytes ≤ address e.block + e.bytes

/-- Some of the bytes from `start` on lie in the entry. -/
def Meets (address : Nat → Nat) (e : DeviceAllocation) (start bytes : Nat) : Prop :=
  address e.block < start + bytes ∧ start < address e.block + e.bytes

instance (address : Nat → Nat) (e : DeviceAllocation) (start bytes : Nat) :
    Decidable (e.Contains address start bytes) := inferInstanceAs (Decidable (_ ∧ _))

instance (address : Nat → Nat) (e : DeviceAllocation) (start bytes : Nat) :
    Decidable (e.Meets address start bytes) := inferInstanceAs (Decidable (_ ∧ _))

/-- A range that lies in an entry reaches no entry apart from it. -/
theorem Contains.not_meets {e' : DeviceAllocation} (h : e.Contains address start bytes)
    (hapart : e.Apart address e') : ¬ e'.Meets address start bytes := by
  rintro ⟨hbelow, habove⟩
  obtain ⟨hfrom, hto⟩ := h
  rcases hapart with hle | hle <;> omega

/-- Of the entries that start at `start` or below, the one that starts last. -/
def nearest? (address : Nat → Nat) (live : List DeviceAllocation) (start : Nat) :
    Option DeviceAllocation :=
  (live.filter fun e => address e.block ≤ start).argmax fun e => address e.block

theorem nearest?_spec (h : nearest? address live start = some e) :
    e ∈ live ∧ address e.block ≤ start ∧
      ∀ e' ∈ live, address e'.block ≤ start → address e'.block ≤ address e.block := by
  obtain ⟨hmem, hstart⟩ := List.mem_filter.mp (List.argmax_mem h)
  refine ⟨hmem, of_decide_eq_true hstart, fun e' he' hle => ?_⟩
  exact List.le_of_mem_argmax (f := fun e => address e.block)
    (List.mem_filter.mpr ⟨he', decide_eq_true hle⟩) h

theorem nearest?_eq_none (h : nearest? address live start = none) (he : e ∈ live) :
    start < address e.block := by
  have hnone := List.filter_eq_nil_iff.mp (List.argmax_eq_none.mp h) e he
  simpa using hnone

end DeviceAllocation

/-! ## Sums of machine words -/

/-- What a build does where the sum of two words is no word. -/
inductive Overflow where
  /-- It takes the remainder. -/
  | wraps
  /-- It stops the program. -/
  | stops
  deriving DecidableEq, Repr

namespace Overflow

variable {a b : Nat}

/-- The sum of two words; there is none if the program stops. -/
def sum? : Overflow → Nat → Nat → Option Nat
  | wraps, a, b => some ((a + b) % Size.wordLimit)
  | stops, a, b => Size.add? a b

/-- All builds agree where the sum is a word. -/
theorem sum?_of_lt (o : Overflow) (h : a + b < Size.wordLimit) : o.sum? a b = some (a + b) := by
  cases o with
  | wraps => exact congrArg some (Nat.mod_eq_of_lt h)
  | stops => exact if_pos h

theorem sum?_stops_of_le (h : Size.wordLimit ≤ a + b) : stops.sum? a b = none :=
  if_neg (Nat.not_lt.mpr h)

/-- The sum of two words that is none is too large by one `wordLimit`. -/
theorem sum?_wraps_of_le (h : Size.wordLimit ≤ a + b) (ha : a < Size.wordLimit)
    (hb : b < Size.wordLimit) : wraps.sum? a b = some (a + b - Size.wordLimit) := by
  refine congrArg some ?_
  rw [Nat.mod_eq_sub_mod h, Nat.mod_eq_of_lt (by omega)]

end Overflow

namespace Machine

open DeviceAllocation (nearest?)

variable {m m' : Machine} {devices : SimulatedDevices} {address : Nat → Nat}
  {e : DeviceAllocation} {start bytes : Nat}

/-! ## Looking addresses up -/

/-- The place in live device storage that an address may be, if it is one at all. -/
def pointerAt (address : Nat → Nat) (m : Machine) (start : Nat) : Pointer :=
  (nearest? address m.live start).elim .dangling fun e => ⟨e.block, start - address e.block⟩

/-- The check that a device side of a copy goes through: the end of the range against the end of the
entry that starts last before it. There is no answer if the program stops. -/
def checkRange (o : Overflow) (address : Nat → Nat) (m : Machine) (start bytes : Nat) :
    Option Bool :=
  match nearest? address m.live start with
  | none => some false
  | some e => do
    let stop ← o.sum? start bytes
    let last ← o.sum? (address e.block) e.bytes
    return stop ≤ last

/-- Where sums are checked, a range that ends beyond all addresses makes the check stop, unless no
live device allocation starts before it. -/
theorem checkRange_stops_of_le (m : Machine) (hover : Size.wordLimit ≤ start + bytes) :
    m.checkRange .stops address start bytes =
      (nearest? address m.live start).elim (some false) fun _ => none := by
  unfold checkRange
  cases nearest? address m.live start with
  | none => rfl
  | some e =>
    rw [Overflow.sum?_stops_of_le hover]
    rfl

/-- All device storage ends at an address. -/
def InSpace (address : Nat → Nat) (m : Machine) : Prop :=
  ∀ e ∈ m.live, address e.block + e.bytes < Size.wordLimit

instance (address : Nat → Nat) (m : Machine) : Decidable (m.InSpace address) :=
  inferInstanceAs (Decidable (∀ e ∈ m.live, _ < _))

namespace Tabled

/-- Nothing else starts between an entry and an address within it. -/
theorem nearest?_eq (h : m.Tabled devices address) (he : e ∈ m.live)
    (hfrom : address e.block ≤ start) (hto : start < address e.block + e.bytes) :
    nearest? address m.live start = some e := by
  cases hn : nearest? address m.live start with
  | none => exact absurd hfrom (Nat.not_le.mpr (DeviceAllocation.nearest?_eq_none hn he))
  | some e' =>
    obtain ⟨he', hle, hlast⟩ := DeviceAllocation.nearest?_spec hn
    have hbetween := hlast e he hfrom
    have hne' := h.nonempty e' he'
    by_contra hne
    -- Another entry that starts between the two would begin inside `e`.
    have hapart : e.Apart address e' :=
      h.apart.forall he he' fun heq => hne (congrArg some heq.symm)
    rcases hapart with hle' | hle' <;> omega

theorem find?_block (h : m.Tabled devices address) (he : e ∈ m.live) :
    (m.live.find? fun entry => entry.block == e.block) = some e := by
  cases hf : m.live.find? fun entry => entry.block == e.block with
  | none => exact absurd (beq_self_eq_true e.block) (List.find?_eq_none.mp hf e he)
  | some e' =>
    have hb : e'.block = e.block := by simpa using List.find?_some hf
    rw [h.block_injective (List.mem_of_find?_eq_some hf) he (congrArg address hb)]

/-- A pointer into live device storage is what its address is looked up to. -/
theorem pointerAt_eq (h : m.Tabled devices address) (he : e ∈ m.live) {offset : Nat}
    (ho : offset < e.bytes) :
    m.pointerAt address (address e.block + offset) = ⟨e.block, offset⟩ := by
  unfold pointerAt
  rw [h.nearest?_eq he (Nat.le_add_right ..) (Nat.add_lt_add_left ho _), Option.elim_some,
    Nat.add_sub_cancel_left]

/-- The check on pointers does the same as the check on addresses. -/
theorem inDeviceAllocation_pointerAt (h : m.Tabled devices address) (start bytes : Nat) :
    m.inDeviceAllocation (m.pointerAt address start) bytes =
      (nearest? address m.live start).any fun e => start + bytes ≤ address e.block + e.bytes := by
  unfold pointerAt inDeviceAllocation
  cases hn : nearest? address m.live start with
  | none =>
    -- No entry has the block that a dangling pointer names.
    have hnone : (m.live.find? fun entry => entry.block == Pointer.dangling.block) = none :=
      List.find?_eq_none.mpr fun e he hb => h.named e he (eq_of_beq hb)
    rw [Option.elim_none, hnone]
    rfl
  | some e =>
    obtain ⟨he, hle, -⟩ := DeviceAllocation.nearest?_spec hn
    rw [Option.elim_some, h.find?_block he, Option.any_some]
    refine decide_eq_decide.mpr ?_
    show start - address e.block + bytes ≤ e.bytes ↔ _
    omega

/-- Only the entry that starts last can hold the range. -/
theorem any_nearest?_iff (h : m.Tabled devices address) (hb : bytes ≠ 0) :
    ((nearest? address m.live start).any fun e => start + bytes ≤ address e.block + e.bytes) = true ↔
      ∃ e ∈ m.live, e.Contains address start bytes := by
  rw [Option.any_eq_true]
  constructor
  · rintro ⟨e, hn, hto⟩
    obtain ⟨he, hfrom, -⟩ := DeviceAllocation.nearest?_spec hn
    exact ⟨e, he, hfrom, of_decide_eq_true hto⟩
  · rintro ⟨e, he, hfrom, hto⟩
    exact ⟨e, h.nearest?_eq he hfrom (by omega), decide_eq_true hto⟩

/-- The pointers that pass are those to the ranges that lie in one live device allocation. -/
theorem inDeviceAllocation_iff (h : m.Tabled devices address) (hb : bytes ≠ 0) :
    m.inDeviceAllocation (m.pointerAt address start) bytes = true ↔
      ∃ e ∈ m.live, e.Contains address start bytes := by
  rw [h.inDeviceAllocation_pointerAt, h.any_nearest?_iff hb]

/-- In all builds the check finds exactly the ranges that lie in one live device allocation, among
those that end at an address. -/
theorem checkRange_eq_decide (h : m.Tabled devices address) (hspace : m.InSpace address)
    (hb : bytes ≠ 0) (hend : start + bytes < Size.wordLimit) (o : Overflow) :
    m.checkRange o address start bytes =
      some (decide (∃ e ∈ m.live, e.Contains address start bytes)) := by
  have hiff : ((nearest? address m.live start).any fun e =>
      start + bytes ≤ address e.block + e.bytes) = true ↔
      ∃ e ∈ m.live, e.Contains address start bytes := h.any_nearest?_iff hb
  unfold checkRange
  cases hn : nearest? address m.live start with
  | none =>
    rw [hn] at hiff
    exact congrArg some (decide_eq_false (hiff.not.mp Bool.false_ne_true)).symm
  | some e =>
    obtain ⟨he, -, -⟩ := DeviceAllocation.nearest?_spec hn
    rw [hn, Option.any_some, decide_eq_true_iff] at hiff
    simp only [o.sum?_of_lt hend, o.sum?_of_lt (hspace e he), Option.bind_eq_bind, Option.bind_some]
    exact congrArg some (decide_eq_decide.mpr hiff)

/-- Where sums are checked, what is accepted is exactly what lies in one live device allocation. -/
theorem checkRange_stops_iff (h : m.Tabled devices address) (hspace : m.InSpace address)
    (hb : bytes ≠ 0) :
    m.checkRange .stops address start bytes = some true ↔
      ∃ e ∈ m.live, e.Contains address start bytes := by
  rcases Nat.lt_or_ge (start + bytes) Size.wordLimit with hend | hover
  · rw [h.checkRange_eq_decide hspace hb hend, Option.some_inj, decide_eq_true_iff]
  · constructor
    · intro hcheck
      rw [m.checkRange_stops_of_le hover] at hcheck
      cases hn : nearest? address m.live start <;> rw [hn] at hcheck <;> cases hcheck
    · rintro ⟨e, he, -, hto⟩
      have := hspace e he
      omega

/-- A range that begins in a live device allocation and ends beyond all addresses lies in none. It
is accepted where the sum is taken modulo the word size, and where sums are checked the program
stops. -/
theorem checkRange_of_overflow (h : m.Tabled devices address) (hspace : m.InSpace address)
    (he : e ∈ m.live) (hfrom : address e.block ≤ start) (hto : start < address e.block + e.bytes)
    (hword : bytes < Size.wordLimit) (hover : Size.wordLimit ≤ start + bytes) :
    (¬ ∃ e ∈ m.live, e.Contains address start bytes) ∧
      m.checkRange .wraps address start bytes = some true ∧
      m.checkRange .stops address start bytes = none := by
  have hend := hspace e he
  have hnearest := h.nearest?_eq he hfrom hto
  refine ⟨?_, ?_, ?_⟩
  · rintro ⟨e', he', -, hto'⟩
    have := hspace e' he'
    omega
  · unfold checkRange
    simp only [hnearest, Overflow.sum?_wraps_of_le hover (by omega) hword,
      Overflow.sum?_of_lt _ hend, Option.bind_eq_bind, Option.bind_some]
    exact congrArg some (decide_eq_true (by omega))
  · rw [m.checkRange_stops_of_le hover, hnearest]
    rfl

/-- What is known to end beyond all addresses makes the check stop. -/
theorem checkRange_of_overruns (h : m.Tabled devices address) (he : e ∈ m.live) {offset : Nat}
    (hover : m.overruns ⟨e.block, offset⟩ bytes = true) :
    m.checkRange .stops address (address e.block + offset) bytes = none := by
  obtain ⟨hfound, hmax⟩ := Bool.and_eq_true_iff.mp hover
  obtain ⟨e', he', hsame⟩ := List.any_eq_true.mp hfound
  obtain ⟨hblock, hin⟩ := Bool.and_eq_true_iff.mp hsame
  obtain rfl := h.block_injective he' he (congrArg address (eq_of_beq hblock))
  have hnull := h.nonnull e' he
  have hmax : Size.maximum ≤ offset + bytes := of_decide_eq_true hmax
  have hlimit : Size.wordLimit ≤ address e'.block + offset + bytes := by
    unfold Size.maximum at hmax
    omega
  rw [m.checkRange_stops_of_le hlimit,
    h.nearest?_eq he (Nat.le_add_right ..) (Nat.add_lt_add_left (of_decide_eq_true hin) _)]
  rfl

/-- A range that lies in an entry reaches no other. -/
theorem eq_of_meets (h : m.Tabled devices address) {e' : DeviceAllocation} (he : e ∈ m.live)
    (hin : e.Contains address start bytes) (he' : e' ∈ m.live)
    (hmeets : e'.Meets address start bytes) : e' = e := by
  by_contra hne
  exact hin.not_meets (h.apart.forall he he' (Ne.symm hne)) hmeets

/-- What lies in no live device allocation is refused. -/
theorem checkRange_of_not_contained (h : m.Tabled devices address) (hspace : m.InSpace address)
    (hb : bytes ≠ 0) (hend : start + bytes < Size.wordLimit) (o : Overflow)
    (hnot : ∀ e ∈ m.live, ¬ e.Contains address start bytes) :
    m.checkRange o address start bytes = some false := by
  rw [h.checkRange_eq_decide hspace hb hend o, decide_eq_false]
  rintro ⟨e, he, hin⟩
  exact hnot e he hin

/-- A range with a byte that lies in no live device allocation lies in none. -/
theorem not_contains_of_outside {byte : Nat} (hfrom : start ≤ byte) (hto : byte < start + bytes)
    (hout : ∀ e ∈ m.live, ¬ e.Contains address byte 1) :
    ∀ e ∈ m.live, ¬ e.Contains address start bytes := by
  rintro e he ⟨hle, hend⟩
  exact hout e he ⟨by omega, by omega⟩

/-- A range that reaches two live device allocations lies in none. -/
theorem not_contains_of_spanning (h : m.Tabled devices address) {e' : DeviceAllocation}
    (he : e ∈ m.live) (he' : e' ∈ m.live) (hne : e ≠ e') (hmeets : e.Meets address start bytes)
    (hmeets' : e'.Meets address start bytes) :
    ∀ e ∈ m.live, ¬ e.Contains address start bytes := by
  intro e₀ he₀ hin
  exact hne ((h.eq_of_meets he₀ hin he hmeets).trans (h.eq_of_meets he₀ hin he' hmeets').symm)

end Tabled

/-! ## Copies between addresses -/

/-- Each device side of a copy lies in one live device allocation. -/
def SidesLive (address : Nat → Nat) (m : Machine) (kind : CopyKind) (dst src bytes : Nat) : Prop :=
  (kind.destination = .device → ∃ e ∈ m.live, e.Contains address dst bytes) ∧
    (kind.source = .device → ∃ e ∈ m.live, e.Contains address src bytes)

instance (address : Nat → Nat) (m : Machine) (kind : CopyKind) (dst src bytes : Nat) :
    Decidable (m.SidesLive address kind dst src bytes) := inferInstanceAs (Decidable (_ ∧ _))

/-- The pointer is what the address is looked up to and the range ends at an address, if it is one
of device memory. -/
def LooksUp (address : Nat → Nat) (m : Machine) (location : Location) (p : Pointer)
    (start bytes : Nat) : Prop :=
  location = .device → p = m.pointerAt address start ∧ start + bytes < Size.wordLimit

/-- The machine after a copy that the platform accepts. -/
def issued (m : Machine) (kind : CopyKind) (c : PendingCopy) (stream : Stream) : Machine :=
  (if m.platform.defers kind then m.enqueue stream c else m.runCopies [c]).recordCopy kind c.bytes

namespace Tabled

/-- What is checked on one side of a copy. -/
theorem refused_iff (h : m.Tabled devices address) (hb : bytes ≠ 0) {location : Location}
    {p : Pointer} (hp : m.LooksUp address location p start bytes) :
    (location.isDevice && !m.inDeviceAllocation p bytes) = true ↔
      ¬ (location = .device → ∃ e ∈ m.live, e.Contains address start bytes) := by
  cases location with
  | host => simp [Location.isDevice]
  | device =>
    rw [(hp rfl).1, ← h.inDeviceAllocation_iff hb]
    simp [Location.isDevice]

/-- A copy is issued if each device side lies in one live device allocation; else nothing is
changed. -/
theorem copy_eq (h : m.Tabled devices address) {kind : CopyKind} {dst src : Pointer} {d s : Nat}
    (hb : bytes ≠ 0) (hd : m.LooksUp address kind.destination dst d bytes)
    (hs : m.LooksUp address kind.source src s bytes) (stream : Stream) :
    Machine.copy kind dst src bytes stream m =
      if m.SidesLive address kind d s bytes then .ok (m.issued kind ⟨dst, src, bytes⟩ stream)
      else .error (.platform (.invalidDeviceRange bytes)) := by
  have hsides : m.SidesLive address kind d s bytes ↔
      ¬ (kind.destination.isDevice && !m.inDeviceAllocation dst bytes) = true ∧
        ¬ (kind.source.isDevice && !m.inDeviceAllocation src bytes) = true := by
    rw [h.refused_iff hb hd, h.refused_iff hb hs, not_not, not_not]
    rfl
  unfold Machine.copy
  rw [h.platform]
  simp only [if_neg hb]
  by_cases hdst : (kind.destination.isDevice && !m.inDeviceAllocation dst bytes) = true
  · rw [if_pos hdst, if_neg fun hlive => (hsides.mp hlive).1 hdst]
  by_cases hsrc : (kind.source.isDevice && !m.inDeviceAllocation src bytes) = true
  · rw [if_neg hdst, if_pos hsrc, if_neg fun hlive => (hsides.mp hlive).2 hsrc]
  rw [if_neg hdst, if_neg hsrc, if_pos (hsides.mpr ⟨hdst, hsrc⟩), issued, h.platform]
  split <;> rfl

end Tabled

/-- The check of device ranges is exact, and so is what becomes of a copy. -/
structure ChecksExactly (address : Nat → Nat) (m : Machine) : Prop where
  /-- What ends at an address is accepted if it lies in one live device allocation, and refused
  otherwise, in all builds. -/
  accepted : ∀ o start bytes, bytes ≠ 0 → start + bytes < Size.wordLimit →
    m.checkRange o address start bytes =
      some (decide (∃ e ∈ m.live, e.Contains address start bytes))
  /-- Where sums are checked nothing else is accepted, wherever it ends. -/
  checked : ∀ start bytes, bytes ≠ 0 →
    (m.checkRange .stops address start bytes = some true ↔
      ∃ e ∈ m.live, e.Contains address start bytes)
  /-- What begins in a live device allocation and ends beyond all addresses lies in none, and no
  build refuses it: it is accepted, or the program stops. -/
  overflows : ∀ start bytes, ∀ e ∈ m.live, address e.block ≤ start →
    start < address e.block + e.bytes → bytes < Size.wordLimit → Size.wordLimit ≤ start + bytes →
    (¬ ∃ e ∈ m.live, e.Contains address start bytes) ∧
      m.checkRange .wraps address start bytes = some true ∧
      m.checkRange .stops address start bytes = none
  /-- What is accepted reaches no other live device allocation. -/
  alone : ∀ start bytes, ∀ e ∈ m.live, e.Contains address start bytes →
    ∀ e' ∈ m.live, e'.Meets address start bytes → e' = e
  /-- A byte that lies in no live device allocation makes the whole range refused. -/
  outside : ∀ o start bytes byte, start + bytes < Size.wordLimit → start ≤ byte →
    byte < start + bytes → (∀ e ∈ m.live, ¬ e.Contains address byte 1) →
    m.checkRange o address start bytes = some false
  /-- A range that reaches two live device allocations is refused, even if nothing is between
  them. -/
  spanning : ∀ o start bytes, bytes ≠ 0 → start + bytes < Size.wordLimit →
    ∀ e ∈ m.live, ∀ e' ∈ m.live, e ≠ e' → e.Meets address start bytes →
    e'.Meets address start bytes → m.checkRange o address start bytes = some false
  /-- Pointers into live device storage are checked at their addresses. -/
  pointers : ∀ e ∈ m.live, ∀ offset < e.bytes,
    m.pointerAt address (address e.block + offset) = ⟨e.block, offset⟩
  /-- Where a range overruns all addresses, the check at its address stops. -/
  overruns : ∀ e ∈ m.live, ∀ offset bytes, m.overruns ⟨e.block, offset⟩ bytes = true →
    m.checkRange .stops address (address e.block + offset) bytes = none
  /-- A copy whose ranges end at addresses is issued and counted exactly if its device sides are
  accepted; else nothing is changed. -/
  copies : ∀ kind dst src bytes stream d s, bytes ≠ 0 →
    m.LooksUp address kind.destination dst d bytes → m.LooksUp address kind.source src s bytes →
    Action.step (Machine.copy kind dst src bytes stream) m =
      if m.SidesLive address kind d s bytes then .ok () (m.issued kind ⟨dst, src, bytes⟩ stream)
      else .error (.platform (.invalidDeviceRange bytes)) m

theorem Tabled.checksExactly (h : m.Tabled devices address) (hspace : m.InSpace address) :
    m.ChecksExactly address where
  accepted o _ _ hb hend := h.checkRange_eq_decide hspace hb hend o
  checked _ _ hb := h.checkRange_stops_iff hspace hb
  overflows _ _ _ he hfrom hto := h.checkRange_of_overflow hspace he hfrom hto
  alone _ _ _ he hin _ he' := h.eq_of_meets he hin he'
  outside o _ _ _ hend hfrom hto hout :=
    h.checkRange_of_not_contained hspace (by omega) hend o (not_contains_of_outside hfrom hto hout)
  spanning o _ _ hb hend _ he _ he' hne hmeets hmeets' :=
    h.checkRange_of_not_contained hspace hb hend o
      (h.not_contains_of_spanning he he' hne hmeets hmeets')
  pointers _ he _ := h.pointerAt_eq he
  overruns _ he _ _ := h.checkRange_of_overruns he
  copies kind dst src bytes stream d s hb hd hs := by
    have hcopy := h.copy_eq hb hd hs stream
    by_cases hlive : m.SidesLive address kind d s bytes
    · rw [if_pos hlive] at hcopy ⊢
      exact Action.step_of_ok hcopy
    · rw [if_neg hlive] at hcopy ⊢
      exact Action.step_of_error hcopy

end Machine

namespace PlatformCall

open Machine

variable {m m' : Machine} {devices : SimulatedDevices} {address : Nat → Nat}

/-- No range that reaches storage just given back lies in a live device allocation. -/
theorem not_contains_of_deallocated (h : m.Tabled devices address) {start bytes device : Nat}
    (hr : (deallocate start bytes device).run address m = .ok () m') :
    m'.Tabled devices address ∧ m'.live ⊆ m.live ∧
      ∃ e ∈ m.drainAll.live, address e.block = start ∧ ∀ first n, e.Meets address first n →
        ∀ e' ∈ m'.live, ¬ e'.Contains address first n := by
  rcases run_deallocate h start bytes device with ⟨e, he, ha, m₁, hr₁, hm₁, hlive⟩ | ⟨-, hr₁⟩
  · obtain rfl : m₁ = m' := by
      rw [hr₁] at hr
      cases hr
      rfl
    refine ⟨hm₁, fun e' he' => ((h.drainAll.2 e').mp ((hlive e').mp he').1).1, e, he, ha,
      fun first n hmeets e' he' hin => ?_⟩
    obtain ⟨hmem, hne⟩ := (hlive e').mp he'
    exact hin.not_meets (h.drainAll.1.apart.forall hmem he hne) hmeets
  · rw [hr₁] at hr
    cases hr

/-- No range that reaches new host storage lies in a live device allocation. -/
theorem not_contains_of_host (h : m.Tabled devices address) {bytes device : Nat}
    (hg : (allocate bytes .host device).Given address m)
    (hr : (allocate bytes .host device).run address m = .ok () m') :
    m'.Tabled devices address ∧ m'.live ⊆ m.live ∧ ∀ first n,
      first < address m.memory.next + bytes → address m.memory.next < first + n →
        ∀ e ∈ m'.live, ¬ e.Contains address first n := by
  cases ha : m.allocate bytes .host device with
  | error e =>
    rw [run, Action.bind_of_error (Action.attempt_of_error ha)] at hr
    cases hr
  | ok p =>
    obtain ⟨block, m₁⟩ := p
    obtain ⟨hnull, hapart⟩ := hg (block, m₁) (by rw [ha]; rfl)
    rw [run, Action.bind_of_ok (Action.attempt_of_ok ha)] at hr
    cases hr
    have hm₁ := h.allocate ha hnull hapart
    obtain ⟨-, rfl, halloc⟩ := allocate_eq_ok ha
    rcases halloc.table with ⟨-, hlive, -⟩ | ⟨hdevice, -⟩
    · refine ⟨hm₁, hlive ▸ List.Subset.refl _, fun first n hfrom hto e he hin => ?_⟩
      have hmeets : (⟨m.memory.next, bytes, device⟩ : DeviceAllocation).Meets address first n :=
        ⟨hto, hfrom⟩
      exact hin.not_meets (hapart e (hlive ▸ he)) hmeets
    · cases hdevice

/-- Whatever a platform with simulated devices has been asked before, the check of device ranges is
exact for all ranges that end at an address, in all builds, and where sums are checked it accepts no
other range. So it refuses what has just been given back and what is new host storage. -/
theorem calls_check_exactly (devices : SimulatedDevices) (address : Nat → Nat)
    (calls : List PlatformCall) (hc : AllGiven address (.start (.simulated devices)) calls)
    {m : Machine} (hm : m = afterAll address (.start (.simulated devices)) calls)
    (hspace : m.InSpace address) :
    m.ChecksExactly address ∧
    (∀ start bytes device m', (deallocate start bytes device).run address m = .ok () m' →
      ∃ e ∈ m.drainAll.live, address e.block = start ∧
        ∀ o first n, n ≠ 0 → first + n < Size.wordLimit → e.Meets address first n →
          m'.checkRange o address first n = some false) ∧
    ∀ bytes device m', (allocate bytes .host device).Given address m →
      (allocate bytes .host device).run address m = .ok () m' →
      ∀ o first n, n ≠ 0 → first + n < Size.wordLimit → first < address m.memory.next + bytes →
        address m.memory.next < first + n → m'.checkRange o address first n = some false := by
  have h : m.Tabled devices address := hm ▸ tabled_afterAll (.start devices address) hc
  refine ⟨h.checksExactly hspace, fun start bytes device m' hr => ?_,
    fun bytes device m' hg hr o first n hn hend hfrom hto => ?_⟩
  · obtain ⟨hm', hsub, e, he, ha, hnot⟩ := not_contains_of_deallocated h hr
    exact ⟨e, he, ha, fun o first n hn hend hmeets => hm'.checkRange_of_not_contained
      (fun e' he' => hspace e' (hsub he')) hn hend o (hnot first n hmeets)⟩
  · obtain ⟨hm', hsub, hnot⟩ := not_contains_of_host h hg hr
    exact hm'.checkRange_of_not_contained (fun e he => hspace e (hsub he)) hn hend o
      (hnot first n hfrom hto)

/-- Host storage and device storage with nothing between them: two blocks of one device next to each
other, host storage behind them, and the first block given back and cut in two. -/
def rows : List PlatformCall :=
  [.allocate 16 .device 0, .allocate 32 .device 0, .allocate 8 .host 0, .deallocate 64 16 0,
    .allocate 4 .device 1, .allocate 8 .device 0]

/-- Where the blocks of `rows` are. -/
def rowsAddress (block : Nat) : Nat :=
  match block with
  | 1 => 64
  | 2 => 80
  | 3 => 112
  | 4 => 64
  | _ => 72

/-- A range at the end of the entry that was cut off last is accepted, and one that reaches from
there into the next block is refused. -/
theorem rows_check_exactly :
    let m := afterAll rowsAddress (.start (.simulated ⟨2, 64, true⟩)) rows
    AllGiven rowsAddress (.start (.simulated ⟨2, 64, true⟩)) rows ∧ m.InSpace rowsAddress ∧
      m.live = [⟨2, 32, 0⟩, ⟨4, 4, 1⟩, ⟨5, 8, 0⟩] ∧
      ∀ o, m.checkRange o rowsAddress 72 8 = some true ∧
        m.checkRange o rowsAddress 79 2 = some false := by
  intro m
  have hgiven : AllGiven rowsAddress (.start (.simulated ⟨2, 64, true⟩)) rows := by decide +kernel
  have hspace : m.InSpace rowsAddress := by decide +kernel
  have hlive : m.live = [⟨2, 32, 0⟩, ⟨4, 4, 1⟩, ⟨5, 8, 0⟩] := by decide +kernel
  obtain ⟨hexact, -, -⟩ := calls_check_exactly _ _ _ hgiven rfl hspace
  have hlast : ⟨5, 8, 0⟩ ∈ m.live := by simp [hlive]
  have hmiddle : ⟨2, 32, 0⟩ ∈ m.live := by simp [hlive]
  refine ⟨hgiven, hspace, hlive, fun o => ⟨?_, ?_⟩⟩
  · rw [hexact.accepted o 72 8 (by decide) (by decide), decide_eq_true ⟨_, hlast, by decide⟩]
  · exact hexact.spanning o 79 2 (by decide) (by decide) _ hlast _ hmiddle (by decide) (by decide)
      (by decide)

/-- The range of the greatest length from the start of the same entry lies in no live device
allocation. No build refuses it: its end comes out before its start, or the program stops. -/
theorem rows_go_round :
    let m := afterAll rowsAddress (.start (.simulated ⟨2, 64, true⟩)) rows
    AllGiven rowsAddress (.start (.simulated ⟨2, 64, true⟩)) rows ∧
      (∀ e ∈ m.live, ¬ e.Contains rowsAddress 72 Size.maximum) ∧
      m.checkRange .wraps rowsAddress 72 Size.maximum = some true ∧
      m.checkRange .stops rowsAddress 72 Size.maximum = none := by
  decide +kernel

end PlatformCall

end DeviceBatch
