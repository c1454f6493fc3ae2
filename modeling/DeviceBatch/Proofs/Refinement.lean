import DeviceBatch.Proofs.Performing

/-!
# Deferring copies changes nothing that a careful user sees

Two sessions are given the same commands on buffers and tensors. They differ only in the mode of
their simulated devices: one performs all copies at once, the other lets copies that touch a device
wait. If the commands are careful (`Session.Carefully`), that is, if host storage that is worked on
at once is never touched by a waiting copy, then no answer tells the sessions apart, and once every
stream has been waited for there is no difference left at all (`deferred_refines_immediate`).
-/

namespace DeviceBatch

/-! ## Careful commands -/

/-- If the elements lie on the host, no waiting copy touches them. -/
def Machine.Quiet (m : Machine) (b : Buffer) : Prop :=
  b.location = .host → b.byteSize ≠ 0 → m.Untouched b.data.block

namespace BufferCommand

open Session

/-- No waiting copy touches the host storage that the command works on at once. -/
def Quietly (s : Session) : BufferCommand → Prop
  | copyTo _ src location _ =>
    ∀ r, s.resourceAt src = .ok r → location = .host → s.machine.Quiet r.data
  | clone _ src => ∀ r, s.resourceAt src = .ok r → s.machine.Quiet r.data
  | peek place | poke place .. => ∀ r, s.resourceAt place = .ok r → s.machine.Quiet r.data
  | copy dst src dstOffset range =>
    ∀ r r', s.resourceAt dst = .ok r → s.resourceAt src = .ok r' →
      let (i, j) := range.getD (0, r'.data.size)
      let m := Buffer.joined r.data r'.data s.machine
      Buffer.inRange r.data r'.data dstOffset i j → i < j →
        r.data.location = .host → r'.data.location = .host → m.Quiet r.data ∧ m.Quiet r'.data
  | _ => True

end BufferCommand

/-- A careful command on buffers and tensors, or waiting for a stream. -/
def Command.Careful (s : Session) : Command → Prop
  | buffer c => c.Permitted s ∧ c.Quietly s
  | platform (.synchronize _) => True
  | _ => False

/-- Each of the commands is careful when its turn comes. -/
def Session.Carefully (s : Session) : List Command → Prop
  | [] => True
  | c :: cs => c.Careful s ∧ (s.perform c).2.Carefully cs

namespace Session

variable {s s₁ s₂ : Session} {place : Place} {r : Resource} {m : Machine} {c : BufferCommand}

theorem Sound.patient (hs : s.Sound) (hc : c.Quietly s) : c.Patient s := by
  cases hd : s.machine.platform.isDeferred with
  | false =>
    have hidle : ∀ s' c, ¬ s.machine.Pending s' c := hs.keeps.not_pending hd
    cases c with
    | copyTo | clone => exact fun _ _ _ _ s' d hp => absurd hp (hidle s' d)
    | poke => exact fun _ _ _ _ _ s' d hp => absurd hp (hidle s' d)
    | copy dst src dstOffset range =>
      exact fun _ _ _ _ _ _ _ s' d hp => absurd (Buffer.pending_joined hs.keeps hp) (hidle s' d)
    | _ => trivial
  | true =>
    cases c with
    | copyTo slot src location device =>
      intro r hr hn hnow
      obtain ⟨hhost, hsrc⟩ := host_of_not_defers hd hnow
      exact (hc r hr hhost hsrc hn).unwritten.steady _
    | clone slot src =>
      intro r hr hn hnow
      obtain ⟨hhost, -⟩ := host_of_not_defers hd hnow
      exact (hc r hr hhost hn).unwritten.steady _
    | poke place index xs =>
      intro r hr hhost hfit hne
      have hn : r.data.byteSize ≠ 0 := by
        have hlen := List.length_pos_iff.mpr hne
        exact Nat.mul_ne_zero (by omega) (Nat.ne_of_gt r.data.dtype.width_pos)
      exact Machine.Untouched.avoided (p := r.data.position index) (hc r hr hhost hn) _
    | copy dst src dstOffset range =>
      intro r r' hr hr' hin hn hnow
      obtain ⟨hdst, hsrc⟩ := host_of_not_defers hd hnow
      have hlt := Nat.lt_of_sub_pos (Nat.pos_of_mul_pos_right (Nat.pos_of_ne_zero hn))
      obtain ⟨hquiet, hquiet'⟩ := hc r r' hr hr' hin hlt hdst hsrc
      obtain ⟨hsize, hsize'⟩ := Buffer.byteSize_ne_zero_of_inRange hin hn
      refine Machine.Steady.clear ?_ (hquiet hdst hsize)
      exact (hquiet' hsrc hsize').unwritten.steady (p := r'.data.position _) _
    | _ => trivial

theorem current_of_quietly (hc : c.Quietly s) : c.Current s := by
  cases c with
  | peek place => exact fun r hr hhost hn => (hc r hr hhost hn).unwritten
  | _ => trivial

/-! ## Another machine under the same names -/

/-- Where nothing waits, what is permitted elsewhere is permitted, and every command is quiet. -/
theorem Permitted.idle (hc : c.Permitted s) {T : List Holding} (hm : m.Keeps T)
    (hd : m.platform.isDeferred = false) : c.Permitted { s with machine := m } := by
  have hdrop : ∀ r, ({ s with machine := m } : Session).DropsSafely r :=
    fun r t _ _ s' d hp => absurd hp (hm.not_pending hd s' d)
  cases c with
  | moveTo => exact ⟨hc.1, fun r hr e m' _ => hdrop r⟩
  | release => exact fun r hr => hdrop r
  | copy dst src dstOffset range =>
    refine ⟨hc.1, fun r r' hr hr' => ?_⟩
    rw [resourceAt_withMachine] at hr hr'
    exact hc.2 r r' hr hr'
  | toTensor => exact ⟨hc.1, fun r hr e _ => hdrop r⟩
  | _ => exact hc

theorem Sound.quietly (hs : s.Sound) (hd : s.machine.platform.isDeferred = false)
    (c : BufferCommand) : c.Quietly s := by
  have hidle : ∀ s' c, ¬ s.machine.Pending s' c := hs.keeps.not_pending hd
  have hquiet : ∀ b, s.machine.Quiet b := fun b _ _ s' d hp => absurd hp (hidle s' d)
  cases c with
  | copyTo => exact fun r _ _ => hquiet r.data
  | clone | peek | poke => exact fun r _ => hquiet r.data
  | copy =>
    exact fun r r' _ _ _ _ _ _ =>
      ⟨fun _ _ s' d hp => absurd (Buffer.pending_joined hs.keeps hp) (hidle s' d),
        fun _ _ s' d hp => absurd (Buffer.pending_joined hs.keeps hp) (hidle s' d)⟩
  | _ => trivial

/-! ## One command -/

/-- The first session defers copies, the second one does not, and nothing else tells them apart but
when the copies are performed. -/
structure Mirrors (s₁ s₂ : Session) : Prop where
  session : s₂ = { s₁ with machine := s₂.machine }
  sound : s₁.Sound
  sound' : s₂.Sound
  batch : s₁.batch = none
  platforms : ∃ count capacity, s₁.machine.platform = .simulated ⟨count, capacity, true⟩ ∧
    s₂.machine.platform = .simulated ⟨count, capacity, false⟩
  outlook : s₂.machine.outlook = s₁.machine.outlook

theorem start_mirrors (count capacity device : Nat) :
    (start (.simulated ⟨count, capacity, true⟩) device).Mirrors
      (start (.simulated ⟨count, capacity, false⟩) device) where
  session := rfl
  sound := start_sound _ _
  sound' := start_sound _ _
  batch := rfl
  platforms := ⟨count, capacity, rfl, rfl⟩
  outlook := rfl

namespace Mirrors

theorem foreseen (h : s₁.Mirrors s₂) (c : BufferCommand) :
    s₂.foreseen c = (s₁.foreseen c).withMachine s₂.machine := by
  obtain ⟨count, capacity, h₁, h₂⟩ := h.platforms
  have hname : s₂.machine.platform.name = s₁.machine.platform.name := by rw [h₁, h₂]; rfl
  show c.foresee s₂.machine.outlook s₂.machine.platform.name s₂ = _
  rw [h.outlook, hname]
  conv_lhs => rw [h.session]
  exact BufferCommand.foresee_withMachine ..

/-- What comes next does if it changes the same names and has the same effects. -/
theorem next (h : s₁.Mirrors s₂) {s₁' s₂' : Session} {f : Foreseen} {p q : Prop}
    (h₁ : s₁.Did f p s₁') (h₂ : s₂.Did (f.withMachine s₂.machine) q s₂') (hp : p) (hq : q) :
    s₁'.Mirrors s₂' where
  session := by rw [h₂.session, h₁.session]; rfl
  sound := h₁.sound
  sound' := h₂.sound
  batch := by
    have hb := h₁.alike.batch
    rw [h.batch, Option.map_none, Option.map_eq_none_iff] at hb
    exact hb
  platforms := by
    rw [h₁.progress.platform, h₂.progress.platform]
    exact h.platforms
  outlook := by
    rw [h₂.progress.outlook hq, h₁.progress.outlook hp, h.outlook]
    rfl

end Mirrors

/-- The command was not refused for want of storage. -/
def Granted (reply : Except Error Reply) : Prop := ∀ e, reply = .error e → ¬ e.IsAllocation

theorem Performs.did (h : s.Performs c) (hg : Granted (s.perform (.buffer c)).1) :
    (c.Current s → (s.perform (.buffer c)).1 = (s.foreseen c).reply) ∧
      s.Did (s.foreseen c) (c.Patient s) (s.perform (.buffer c)).2 := by
  rcases h with ⟨e, s', es, he, hperf, -⟩ | ⟨reply, s', hperf, hreply, hdid⟩
  · rw [hperf] at hg
    exact absurd he (hg e rfl)
  · rw [hperf]
    exact ⟨hreply, hdid⟩

/-- Waiting for a stream is always granted. -/
theorem Sound.synchronize (hs : s.Sound) (stream : Stream) :
    s.Did (.answer s .done [.wait]) True { s with machine := s.machine.synchronize stream } :=
  .answer hs (hs.spares_below Effect.keepsBelow_wait)
    (Machine.progress_synchronize hs.keeps stream).1

/-- A careful command is answered alike on both, and they still mirror each other. -/
theorem Mirrors.perform (h : s₁.Mirrors s₂) {c : Command} (hc : c.Careful s₁)
    (h₁ : Granted (s₁.perform c).1) (h₂ : Granted (s₂.perform c).1) :
    (s₁.perform c).1 = (s₂.perform c).1 ∧ (s₁.perform c).2.Mirrors (s₂.perform c).2 := by
  match c, hc with
  | .buffer c, ⟨hc, hquiet⟩ =>
    obtain ⟨count, capacity, hp₁, hp₂⟩ := h.platforms
    have hidle : s₂.machine.platform.isDeferred = false := by rw [hp₂]; rfl
    have hc' : c.Permitted s₂ := by
      rw [h.session]
      exact Permitted.idle hc h.sound'.keeps hidle
    have hquiet' := h.sound'.quietly hidle c
    have hb : s₂.batch = none := by
      rw [h.session]
      exact h.batch
    obtain ⟨hr₁, hd₁⟩ := (h.sound.performs hc (h.sound.sparesInputs h.batch c)).did h₁
    obtain ⟨hr₂, hd₂⟩ := (h.sound'.performs hc' (h.sound'.sparesInputs hb c)).did h₂
    rw [h.foreseen] at hr₂ hd₂
    refine ⟨?_, h.next hd₁ hd₂ (h.sound.patient hquiet) (h.sound'.patient hquiet')⟩
    rw [hr₁ (current_of_quietly hquiet), hr₂ (current_of_quietly hquiet')]
    rfl
  | .platform (.synchronize stream), _ =>
    have hf : Foreseen.answer s₂ .done [.wait] =
        (Foreseen.answer s₁ .done [.wait]).withMachine s₂.machine := by
      conv_lhs => rw [h.session]
      rfl
    have hd₂ := h.sound'.synchronize stream
    rw [hf] at hd₂
    exact ⟨rfl, h.next (h.sound.synchronize stream) hd₂ trivial trivial⟩

/-! ## After waiting for every stream -/

end Session

namespace Machine

/-- Waits for one stream after the other. -/
def synchronizeAll (m : Machine) (streams : List Stream) : Machine :=
  streams.foldl synchronize m

/-- Once all streams with a queue were waited for, no queue is left. -/
theorem queues_synchronizeAll {m : Machine} {streams : List Stream}
    (h : ∀ p ∈ m.queues, p.1 ∈ streams) : (m.synchronizeAll streams).queues = [] := by
  induction streams generalizing m with
  | nil =>
    refine List.eq_nil_iff_forall_not_mem.mpr fun p hp => ?_
    exact absurd (h p hp) List.not_mem_nil
  | cons s streams ih =>
    refine ih fun p hp => ?_
    obtain ⟨hmem, hne⟩ := List.mem_filter.mp (queues_drain m s hp)
    exact ((List.mem_cons.mp (h p hmem)).resolve_left (of_decide_eq_true hne))

theorem progress_synchronizeAll {m : Machine} {T : List Holding} (h : m.Keeps T)
    (streams : List Stream) :
    m.Progress T (streams.map fun _ => .wait) True (m.synchronizeAll streams) T := by
  induction streams generalizing m with
  | nil => exact .refl h
  | cons s streams ih =>
    have hfirst := (progress_synchronize h s).1
    exact (hfirst.trans (ih hfirst.keeps)).imp fun _ => ⟨trivial, trivial⟩

/-- Nothing is left to tell two machines apart that hold the same storage. -/
structure Equal (m₁ m₂ : Machine) : Prop where
  memory : m₁.memory = m₂.memory
  stats : m₁.stats = m₂.stats
  used : m₁.used = m₂.used
  live : m₁.live.Perm m₂.live

theorem equal_of_idle {m₁ m₂ : Machine} {T : List Holding} (h₁ : m₁.Keeps T) (h₂ : m₂.Keeps T)
    (hq₁ : m₁.queues = []) (hq₂ : m₂.queues = []) (ho : m₁.outlook = m₂.outlook)
    (hp : m₁.platform.deviceCount = m₂.platform.deviceCount) : m₁.Equal m₂ := by
  have hk₁ : m₁.Orderly T := by
    have h : m₁.Orderly (T ++ m₁.queues.kept) := h₁
    rwa [hq₁, Queues.kept_nil, List.append_nil] at h
  have hk₂ : m₂.Orderly T := by
    have h : m₂.Orderly (T ++ m₂.queues.kept) := h₂
    rwa [hq₂, Queues.kept_nil, List.append_nil] at h
  have hcount₁ := hk₁.counted
  have hcount₂ := hk₂.counted
  -- The outlook has all counters but the deallocations, which follow from what is still in use.
  have halloc : m₁.stats.allocations = m₂.stats.allocations :=
    congrArg Outlook.allocations ho
  exact {
    memory := by
      rw [← outlook_memory_of_idle hq₁, ← outlook_memory_of_idle hq₂, ho]
    stats := by
      have hlive : m₁.stats.liveBytes = m₂.stats.liveBytes := hk₁.liveBytes.trans hk₂.liveBytes.symm
      have hdealloc : m₁.stats.deallocations = m₂.stats.deallocations := by omega
      have hcopies : m₁.stats.copies = m₂.stats.copies := congrArg Outlook.copies ho
      have hbytes : m₁.stats.copiedBytes = m₂.stats.copiedBytes :=
        congrArg Outlook.copiedBytes ho
      have hsync : m₁.stats.synchronizations = m₂.stats.synchronizations :=
        congrArg Outlook.synchronizations ho
      cases hs₁ : m₁.stats
      cases hs₂ : m₂.stats
      simp only [hs₁, hs₂] at halloc hlive hdealloc hcopies hbytes hsync
      rw [halloc, hlive, hdealloc, hcopies, hbytes, hsync]
    used := by rw [hk₁.used, hk₂.used, hp]
    live := hk₁.table.symm.trans hk₂.table }

end Machine

namespace Session

variable {s s₁ s₂ : Session} {cs : List Command}

/-- The same names and counters; and once every stream was waited for, the same storage and the same
contents. -/
structure Agrees (s₁ s₂ : Session) : Prop where
  slots : s₁.slots = s₂.slots
  allocations : s₁.machine.stats.allocations = s₂.machine.stats.allocations
  copies : s₁.machine.stats.copies = s₂.machine.stats.copies
  copiedBytes : s₁.machine.stats.copiedBytes = s₂.machine.stats.copiedBytes
  synchronizations : s₁.machine.stats.synchronizations = s₂.machine.stats.synchronizations
  settled : ∀ streams, (∀ p ∈ s₁.machine.queues, p.1 ∈ streams) →
    (s₁.machine.synchronizeAll streams).Equal (s₂.machine.synchronizeAll streams)
  contents : ∀ streams, (∀ p ∈ s₁.machine.queues, p.1 ∈ streams) → ∀ p ∈ s₁.slots,
    p.2.data.contents (s₁.machine.synchronizeAll streams) =
      p.2.data.contents (s₂.machine.synchronizeAll streams)

theorem Mirrors.agrees (h : s₁.Mirrors s₂) : s₁.Agrees s₂ := by
  obtain ⟨count, capacity, hp₁, hp₂⟩ := h.platforms
  have ho := h.outlook.symm
  have hholdings : s₂.holdings = s₁.holdings := by
    rw [h.session]
    rfl
  -- On the machine that copies at once nothing ever waits.
  have hidle : s₂.machine.queues = [] := Machine.Orderly.waits h.sound'.keeps (by rw [hp₂]; rfl)
  have hsettled : ∀ streams, (∀ p ∈ s₁.machine.queues, p.1 ∈ streams) →
      (s₁.machine.synchronizeAll streams).Equal (s₂.machine.synchronizeAll streams) := by
    intro streams hall
    have h₁ := Machine.progress_synchronizeAll h.sound.keeps streams
    have h₂ := Machine.progress_synchronizeAll h.sound'.keeps streams
    refine Machine.equal_of_idle h₁.keeps (hholdings ▸ h₂.keeps)
      (Machine.queues_synchronizeAll hall) (Machine.queues_synchronizeAll ?_) ?_ ?_
    · rw [hidle]
      exact fun p hp => absurd hp List.not_mem_nil
    · rw [h₁.outlook trivial, h₂.outlook trivial, ho]
    · rw [h₁.platform, h₂.platform, hp₁, hp₂]
      rfl
  exact {
    slots := by rw [h.session]
    allocations := congrArg Outlook.allocations ho
    copies := congrArg Outlook.copies ho
    copiedBytes := congrArg Outlook.copiedBytes ho
    synchronizations := congrArg Outlook.synchronizations ho
    settled := hsettled
    contents := fun streams hall p _ => by
      unfold Buffer.contents Buffer.bytes
      rw [(hsettled streams hall).memory] }

/-! ## Runs -/

theorem performAll_take (s : Session) (cs : List Command) (n : Nat) :
    (s.performAll (cs.take n)).1 = (s.performAll cs).1.take n := by
  induction cs generalizing s n with
  | nil => simp [performAll]
  | cons c cs ih =>
    cases n with
    | zero => rfl
    | succ n => exact congrArg ((s.perform c).1 :: ·) (ih (s.perform c).2 n)

theorem Carefully.take (h : s.Carefully cs) (n : Nat) : s.Carefully (cs.take n) := by
  induction cs generalizing s n with
  | nil => rwa [List.take_nil]
  | cons c cs ih =>
    cases n with
    | zero => trivial
    | succ n => exact ⟨h.1, ih h.2 n⟩

theorem Mirrors.performAll (h : s₁.Mirrors s₂) (hc : s₁.Carefully cs)
    (h₁ : ∀ reply ∈ (s₁.performAll cs).1, Granted reply)
    (h₂ : ∀ reply ∈ (s₂.performAll cs).1, Granted reply) :
    (s₁.performAll cs).1 = (s₂.performAll cs).1 ∧
      (s₁.performAll cs).2.Mirrors (s₂.performAll cs).2 := by
  induction cs generalizing s₁ s₂ with
  | nil => exact ⟨rfl, h⟩
  | cons c cs ih =>
    obtain ⟨hreply, hnext⟩ := h.perform hc.1 (h₁ _ List.mem_cons_self) (h₂ _ List.mem_cons_self)
    obtain ⟨hreplies, hlast⟩ := ih hnext hc.2 (fun reply hr => h₁ reply (List.mem_cons_of_mem _ hr))
      fun reply hr => h₂ reply (List.mem_cons_of_mem _ hr)
    exact ⟨congrArg₂ List.cons hreply hreplies, hlast⟩

/-- Careful commands that are all granted are answered in the same way whether copies are deferred
or not. After each of them the sessions agree. -/
theorem deferred_refines_immediate {count capacity device : Nat}
    (hc : (simulated count capacity device true).Carefully cs)
    (hd : ∀ reply ∈ ((simulated count capacity device true).performAll cs).1, Granted reply)
    (hi : ∀ reply ∈ ((simulated count capacity device false).performAll cs).1, Granted reply) :
    ((simulated count capacity device true).performAll cs).1 =
        ((simulated count capacity device false).performAll cs).1 ∧
      ∀ n, ((simulated count capacity device true).performAll (cs.take n)).2.Agrees
        ((simulated count capacity device false).performAll (cs.take n)).2 := by
  have hstart := start_mirrors count capacity device
  refine ⟨(hstart.performAll hc hd hi).1, fun n => ?_⟩
  refine (hstart.performAll (hc.take n) (fun reply hr => hd reply ?_)
    fun reply hr => hi reply ?_).2.agrees
  · exact List.mem_of_mem_take (performAll_take .. ▸ hr)
  · exact List.mem_of_mem_take (performAll_take .. ▸ hr)

theorem granted_of_ok {reply : Except Error Reply} (h : reply.isOk = true) : Granted reply := by
  rintro e rfl
  cases h

theorem granted_of_isOk {replies : List (Except Error Reply)} (h : replies.all Except.isOk) :
    ∀ reply ∈ replies, Granted reply :=
  fun _ hr => granted_of_ok (List.all_eq_true.mp h _ hr)

theorem quiet_of_idle {m : Machine} (h : m.queues = []) (b : Buffer) : m.Quiet b := by
  rintro - - s c ⟨q, hq, -⟩
  rw [h] at hq
  cases hq

/-- Elements brought to a device and back, where the way back waits until they are asked for. -/
def roundTrip : List Command := [
  .buffer (.ofList "there" .uint8 [7, 8] .device 0 ⟨3⟩),
  .platform (.synchronize ⟨3⟩),
  .buffer (.copyTo "back" (.slot "there") .host 0),
  .buffer (.toList (.slot "back")),
  .buffer (.peek (.slot "back"))]

theorem roundTrip_refines :
    (simulated 1 64 0 true).Carefully roundTrip ∧
      ((simulated 1 64 0 true).performAll roundTrip).1 =
        ((simulated 1 64 0 false).performAll roundTrip).1 := by
  have hc : (simulated 1 64 0 true).Carefully roundTrip := by
    refine ⟨⟨List.not_mem_nil, trivial⟩, trivial, ⟨?_, fun r _ _ => quiet_of_idle rfl r.data⟩,
      ⟨trivial, trivial⟩, ⟨trivial, fun r _ => quiet_of_idle rfl r.data⟩, trivial⟩
    show "back" ∉ _
    decide
  exact ⟨hc, (deferred_refines_immediate hc (granted_of_isOk rfl) (granted_of_isOk rfl)).1⟩

end Session

end DeviceBatch
