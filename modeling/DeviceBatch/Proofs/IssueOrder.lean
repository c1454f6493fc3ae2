import DeviceBatch.Proofs.Ledger

/-!
# Copies of one stream and their order

All buffers are on one stream of a platform that defers copies, and nothing is written but by
copies. One would expect that, once the stream was waited for, every buffer holds what comes of all
copies performed in the order in which they were issued (`Session.InOrder`). It need not be so:
copies from host to host are performed at once and overtake the waiting ones
(`Session.overtaking_not_inOrder`). It is so exactly if none of these makes a difference by that
(`Session.inOrder_iff_harmless`).
-/

namespace DeviceBatch

namespace BufferCommand

/-- If the command copies from host to host, it does what it would do if the stream were waited for
first: a new copy is made of what its source will hold, and a copy into another buffer does the same
to all slots before and after the waiting copies. -/
def Harmless (s : Session) (stream : Stream) : BufferCommand → Prop
  | copyTo _ src location _ => ∀ r, s.resourceAt src = .ok r → location = .host →
    r.data.location = .host → r.data.bytes s.machine = r.data.bytes (s.machine.synchronize stream)
  | clone _ src => ∀ r, s.resourceAt src = .ok r → r.data.location = .host →
    r.data.bytes s.machine = r.data.bytes (s.machine.synchronize stream)
  | copy dst src dstOffset range =>
    ∀ r r', s.resourceAt dst = .ok r → s.resourceAt src = .ok r' →
      r.data.location = .host → r'.data.location = .host →
      let (i, j) := range.getD (0, r'.data.size)
      let c := Buffer.rangeCopy r.data r'.data dstOffset i j
      i < j → ∀ p ∈ s.slots, p.2.data.bytes ((s.machine.runCopies [c]).synchronize stream) =
        p.2.data.bytes ((s.machine.synchronize stream).runCopies [c])
  | _ => True

end BufferCommand

namespace Session

open BufferCommand

variable {s : Session} {o o' : Outlook} {stream : Stream} {held : Ledger} {slot : String}
  {r r' : Resource} {place : Place} {c : BufferCommand}

/-! ## Runs -/

/-- The ledger after a command: only a command that succeeds is entered. -/
def entered (s : Session) (held : Ledger) (c : BufferCommand) : Ledger :=
  match (s.perform (.buffer c)).1 with
  | .ok _ => c.replay s held
  | .error _ => held

/-- The session after commands, and the ledger of them. -/
def issue (s : Session) (held : Ledger) : List BufferCommand → Session × Ledger
  | [] => (s, held)
  | c :: cs => (s.perform (.buffer c)).2.issue (s.entered held c) cs

/-- Every slot holds what it should once the stream was waited for. -/
def InOrder (stream : Stream) (p : Session × Ledger) : Prop :=
  ∀ q ∈ p.1.slots, q.2.data.bytes (p.1.machine.synchronize stream) = p.2 q.1

instance (stream : Stream) (p : Session × Ledger) : Decidable (InOrder stream p) :=
  inferInstanceAs (Decidable (∀ q ∈ p.1.slots, _ = p.2 q.1))

/-- Each of the commands is permitted when its turn comes, and stays on the stream. -/
def StaysOn (stream : Stream) (s : Session) : List BufferCommand → Prop
  | [] => True
  | c :: cs => c.Permitted s ∧ c.OnStream stream ∧ (s.perform (.buffer c)).2.StaysOn stream cs

/-- A session without a batch, all on one stream of a platform that defers copies. -/
structure OnOneStream (s : Session) (stream : Stream) : Prop where
  sound : s.Sound
  batch : s.batch = none
  deferred : s.machine.platform.isDeferred = true
  streams : ∀ p ∈ s.slots, p.2.data.stream = stream

/-! ## What slots hold after waiting -/

theorem Shows.congr (h : s.Shows o stream held) (ho : o'.memory = o.memory) :
    s.Shows o' stream held := by
  intro p hp
  obtain ⟨hstream, hbytes⟩ := h p hp
  refine ⟨hstream, ?_⟩
  rw [← hbytes]
  unfold Buffer.outlookBytes
  rw [ho]

namespace OnOneStream

/-- What a slot holds after waiting is what it was to hold. -/
theorem bytes_synchronize (h : s.OnOneStream stream) {p : String × Resource} (hp : p ∈ s.slots) :
    p.2.data.bytes (s.machine.synchronize stream) = p.2.data.outlookBytes s.machine.outlook := by
  have hsite := mem_sites_of_mem hp
  rw [← h.streams p hp]
  exact (h.sound.readable hsite hsite).bytes_synchronize h.sound.keeps

theorem inOrder_iff_shows (h : s.OnOneStream stream) :
    InOrder stream (s, held) ↔ s.Shows s.machine.outlook stream held := by
  constructor
  · intro horder p hp
    exact ⟨h.streams p hp, (h.bytes_synchronize hp).symm.trans (horder p hp)⟩
  · intro hshows p hp
    exact (h.bytes_synchronize hp).trans (hshows p hp).2

/-- There is always something that slots will hold. -/
theorem exists_shows (h : s.OnOneStream stream) :
    ∃ held, s.Shows s.machine.outlook stream held := by
  refine ⟨fun name => (s.slots.lookup name).elim [] fun r =>
    r.data.outlookBytes s.machine.outlook, fun p hp => ⟨h.streams p hp, ?_⟩⟩
  show _ = (s.slots.lookup p.1).elim [] _
  rw [Named.lookup_of_mem (slots_nodup h.sound.keys) hp]
  rfl

/-! ## One command -/

/-- What a ledger says of a command that was performed. It is what slots will hold if the command
does nothing at once that waiting copies depend on. -/
theorem shows_perform (h : s.OnOneStream stream) (hc : c.Permitted s) (hon : c.OnStream stream)
    (hshows : s.Shows s.machine.outlook stream held) :
    let s' := (s.perform (.buffer c)).2
    s'.Sound ∧ s.Alike s' ∧ s'.machine.platform = s.machine.platform ∧
      ∃ o, s'.Shows o stream (s.entered held c) ∧ (c.Patient s → s'.machine.outlook = o) := by
  intro s'
  rcases h.sound.performs hc (h.sound.sparesInputs h.batch c) with
    ⟨e, t, es, -, hperf, href⟩ | ⟨reply, t, hperf, hreply, hdid⟩
  · have ht : s' = t := congrArg Prod.snd hperf
    have hentered : s.entered held c = held := by
      unfold entered
      rw [hperf]
    rw [ht, hentered]
    refine ⟨href.sound, href.alike, href.progress.platform, _, ?_,
      fun _ => href.progress.outlook trivial⟩
    exact hshows.keep h.sound h.batch href.slots
      fun p hp => href.leaves _ (mem_sites_of_mem hp)
  · have ht : s' = t := congrArg Prod.snd hperf
    rw [ht]
    refine ⟨hdid.sound, hdid.alike, hdid.progress.platform, _, ?_, hdid.progress.outlook⟩
    have hslots : t.slots = (s.foreseen c).session.slots := by rw [hdid.session]
    have hforeseen : (s.foreseen c).session.Shows
        (s.machine.outlook.afterAll (s.foreseen c).effects) stream (s.entered held c) := by
      -- looking at a buffer may answer something else than was foreseen, but it enters nothing
      have hentered : s.entered held c = match (s.foreseen c).reply with
          | .ok _ => c.replay s held
          | .error _ => held := by
        unfold entered
        rw [hperf]
        cases c with
        | peek place => cases reply <;> cases (s.foreseen (.peek place)).reply <;> rfl
        | _ => rw [hreply trivial]
      rw [hentered]
      cases hf : (s.foreseen c).reply with
      | ok answer => exact h.sound.replays h.batch hc hon hshows hf
      | error e => exact h.sound.shows_of_error h.batch hshows hf
    exact fun p hp => hforeseen p (hslots ▸ hp)

theorem next (h : s.OnOneStream stream) (hc : c.Permitted s) (hon : c.OnStream stream) :
    (s.perform (.buffer c)).2.OnOneStream stream := by
  obtain ⟨held, hshows⟩ := h.exists_shows
  obtain ⟨hsound, halike, hplatform, o, ho, -⟩ := h.shows_perform hc hon hshows
  refine ⟨hsound, ?_, by rw [hplatform]; exact h.deferred, fun p hp => (ho p hp).1⟩
  have hb := halike.batch
  rw [h.batch, Option.map_none, Option.map_eq_none_iff] at hb
  exact hb

/-! ## Copies from host to host -/

/-- The copy of a host buffer holds what that buffer holds at the moment: it is as it should be if
that is what the buffer is to hold. -/
theorem shows_copied_iff (h : s.OnOneStream stream) (hfree : s.Free slot)
    (hr : s.resourceAt place = .ok r) (hl : r.data.location = .host) (device : Nat)
    (hrun : c.run s = keepBuffer slot (onMachine (r.data.copyTo .host device)) s)
    (hreplay : c.replay s held = Function.update held slot (held.bytesAt place))
    (hshows : s.Shows s.machine.outlook stream held) :
    (s.perform (.buffer c)).2.Shows (s.perform (.buffer c)).2.machine.outlook stream
        (s.entered held c) ↔
      ∀ reply, (s.perform (.buffer c)).1 = .ok reply →
        r.data.bytes s.machine = r.data.bytes (s.machine.synchronize stream) := by
  have hread := h.sound.readable_at hr
  obtain ⟨hstream, hbytes⟩ := hshows.at_place h.batch hr
  have hsettled : r.data.bytes (s.machine.synchronize stream) = held.bytesAt place := by
    rw [← hstream, hread.bytes_synchronize h.sound.keeps, hbytes]
  rcases Buffer.copyTo_host h.sound.keeps hread hl device with ⟨e, -, ha⟩ | ⟨m, ha, ho⟩
  · have hperf : s.perform (.buffer c) = (.error e, s) :=
      perform_of_error (hrun.trans (keepBuffer_of_error (onMachine_of_error ha)))
    have hentered : s.entered held c = held := by
      unfold entered
      rw [hperf]
    rw [hperf, hentered]
    exact ⟨fun _ reply hok => (by cases hok), fun _ => hshows⟩
  · have hperf := perform_of_ok (hrun.trans (keepBuffer_of_ok (onMachine_of_ok (s := s) ha)))
    have hentered : s.entered held c = c.replay s held := by
      unfold entered
      rw [hperf]
    rw [← Machine.next_outlook] at ho
    rw [hperf, hentered, hreplay, ← Machine.next_outlook]
    have hadd : ({ s with slots := s.slots.put slot (.buffer (r.data.copied
        s.machine.outlook.memory.next .host device)) } : Session).Shows m.outlook stream
        (Function.update held slot (r.data.bytes s.machine)) := by
      refine Shows.congr (hshows.add h.sound h.batch hfree ?_ hstream ?_) ho
      · refine (Effect.sparesBelow_allocs _).keepsBelow.append
          (Effect.sparesBelow_writes fun hne => ?_).keepsBelow
        have hn : r.data.size * r.data.dtype.width ≠ 0 := fun hz => hne (by
          rw [← List.length_eq_zero_iff, hread.length_bytes h.sound.keeps]
          exact hz)
        exact Nat.le_of_eq (by rw [Buffer.copied, Buffer.fresh_data hn])
      · exact Buffer.outlookBytes_written _ (hread.length_bytes h.sound.keeps) _ _ _
    constructor
    · intro hnew reply _
      have hmem : (slot, Resource.buffer (r.data.copied s.machine.outlook.memory.next .host
          device)) ∈ s.slots.put slot (.buffer (r.data.copied s.machine.outlook.memory.next .host
            device)) := by
        unfold Named.put
        simp
      have hheld := (hnew _ hmem).2
      rw [(hadd _ hmem).2, Function.update_self, Function.update_self] at hheld
      exact hheld.trans hsettled.symm
    · intro hsame
      rw [← hsettled, ← hsame _ rfl]
      exact hadd

/-- What a buffer holds if the stream is waited for before a copy is performed. -/
theorem bytes_synchronize_runCopies (h : s.OnOneStream stream) {p : String × Resource}
    (hp : p ∈ s.slots) (hr' : s.resourceAt place = .ok r') (hn' : r'.data.byteSize ≠ 0)
    {d : PendingCopy} (hsrc : d.src.block = r'.data.data.block) :
    p.2.data.bytes ((s.machine.synchronize stream).runCopies [d]) =
      p.2.data.outlookBytes (s.machine.outlook.afterAll [.copy d]) := by
  have hsite := mem_sites_of_mem hp
  refine Memory.read_congr_of_ne_zero fun hn => ?_
  have hblock := (h.sound.readable hsite hsite).block_synchronize h.sound.keeps hn
  have hblock' := (h.sound.readable_at hr').block_synchronize h.sound.keeps hn'
  obtain ⟨name, rfl, hname⟩ := slot_of_resourceAt h.batch hr'
  rw [h.streams p hp] at hblock
  rw [h.streams _ (mem_of_held hname)] at hblock'
  have hread : (s.machine.synchronize stream).memory.read d.src d.bytes =
      s.machine.outlook.memory.read d.src d.bytes := Memory.read_congr (by rw [hsrc, hblock']) _
  show ((s.machine.synchronize stream).memory.copy d.dst d.src d.bytes).block? _ =
    (s.machine.outlook.memory.copy d.dst d.src d.bytes).block? _
  unfold Memory.copy
  rw [Memory.block?_write, Memory.block?_write, hread, hblock]

/-- Binding a slot to the stream that it is on changes at most the order of the slots. -/
theorem mem_bindAt (h : s.OnOneStream stream) (hr : s.held slot = .ok r)
    {p : String × Resource} : p ∈ (bindAt (.slot slot) stream s).slots ↔ p ∈ s.slots := by
  have hstream := h.streams _ (mem_of_held hr)
  have hsame : r.withStream stream = r := by
    cases r <;> (subst hstream; rfl)
  have hperm := Named.perm_remove (held_eq_ok hr) (slots_nodup h.sound.keys)
  rw [bindAt_slot (held_eq_ok hr), hsame, hperm.mem_iff]
  show p ∈ s.slots.remove slot ++ [(slot, r)] ↔ _
  rw [List.mem_append, List.mem_singleton, List.mem_cons, or_comm]

/-- A host buffer that another one is copied into, at once, holds what it should if it makes no
difference that the copy runs ahead of the waiting ones. -/
theorem shows_copiedInto_iff (h : s.OnOneStream stream) {dst : String} (hr : s.held dst = .ok r)
    (hr' : s.resourceAt place = .ok r') (hl : r.data.location = .host)
    (hl' : r'.data.location = .host) (hty : r.data.dtype = r'.data.dtype) {dstOffset i j : Nat}
    {range : Option (Nat × Nat)} (hrange : range.getD (0, r'.data.size) = (i, j)) (hlt : i < j)
    (hin : Buffer.inRange r.data r'.data dstOffset i j = true)
    (hshows : s.Shows s.machine.outlook stream held) :
    let c := BufferCommand.copy (.slot dst) place dstOffset range
    (∃ reply, (s.perform (.buffer c)).1 = .ok reply) ∧
      ((s.perform (.buffer c)).2.Shows (s.perform (.buffer c)).2.machine.outlook stream
          (s.entered held c) ↔
        c.Harmless s stream) := by
  intro c
  let d := Buffer.rangeCopy r.data r'.data dstOffset i j
  obtain ⟨hstream', -⟩ := hshows.at_place h.batch hr'
  have hstream := h.streams _ (mem_of_held hr)
  have hd : d.bytes ≠ 0 := Nat.mul_ne_zero (by omega) (Nat.ne_of_gt r'.data.dtype.width_pos)
  obtain ⟨-, hn'⟩ := Buffer.byteSize_ne_zero_of_inRange hin hd
  obtain ⟨m, ha, hm, hq⟩ := Buffer.copyRange_host (m := s.machine) hin
    (hstream.trans hstream'.symm) hl hl' hlt
  have hat : s.resourceAt (.slot dst) = .ok r := hr
  have hperf : s.perform (.buffer c) =
      (.ok (.stream stream), { bindAt (.slot dst) stream s with machine := m }) := by
    refine perform_of_ok (run_copy_of_ok hat hr' ?_)
    rw [hrange, ← show r.data.stream = stream from hstream]
    exact ha
  have hentered : s.entered held c = Function.update held dst (Memory.splice (held dst)
      (dstOffset * r'.data.dtype.width) (((held.bytesAt place).drop
        (i * r'.data.dtype.width)).take ((j - i) * r'.data.dtype.width))) := by
    unfold entered
    rw [hperf]
    simp only [c, replay, hr', hrange]
  -- what the slots would hold if the copy had its turn
  have hturn := hshows.copiedInto h.sound h.batch hr hr' hty hin
  rw [← hentered, Effect.copies, if_neg hd] at hturn
  -- what they do hold
  have hmemory : (s.machine.runCopies [d]).outlook.memory = m.outlook.memory :=
    (Machine.outlook_memory_congr hm hq).symm
  have hkeeps : (s.machine.runCopies [d]).Keeps s.holdings :=
    Machine.Orderly.runCopies h.sound.keeps [d]
  have hahead : ∀ p ∈ s.slots, p.2.data.bytes ((s.machine.runCopies [d]).synchronize stream) =
      p.2.data.outlookBytes m.outlook := by
    intro p hp
    have hsite := mem_sites_of_mem hp
    have hdone := (h.sound.readable hsite hsite).bytes_synchronize hkeeps
    rw [h.streams p hp, Buffer.outlookBytes, hmemory] at hdone
    exact hdone
  refine ⟨⟨_, congrArg Prod.fst hperf⟩, ?_⟩
  rw [hperf]
  constructor
  · intro hnew q q' hq hq' _ _
    rw [show q = r from Except.ok.inj (hq.symm.trans hr),
      show q' = r' from Except.ok.inj (hq'.symm.trans hr'), hrange]
    intro _ p hp
    have hp' := (h.mem_bindAt hr).mpr hp
    exact (hahead p hp).trans (((hnew p hp').2.trans (hturn p hp').2.symm).trans
      (h.bytes_synchronize_runCopies hp hr' hn' rfl).symm)
  · intro hharmless p hp
    have hsame := hharmless r r' hr hr' hl hl'
    rw [hrange] at hsame
    have hp' := (h.mem_bindAt hr).mp hp
    refine ⟨(hturn p hp).1, ?_⟩
    rw [← (hturn p hp).2]
    exact (hahead p hp').symm.trans ((hsame hlt p hp').trans
      (h.bytes_synchronize_runCopies hp' hr' hn' rfl))

/-! ## Any command -/

theorem shows_of_patient (h : s.OnOneStream stream) (hc : c.Permitted s) (hon : c.OnStream stream)
    (hshows : s.Shows s.machine.outlook stream held) (hpatient : c.Patient s) :
    (s.perform (.buffer c)).2.Shows (s.perform (.buffer c)).2.machine.outlook stream
      (s.entered held c) := by
  obtain ⟨-, -, -, o, ho, heq⟩ := h.shows_perform hc hon hshows
  rw [heq hpatient]
  exact ho

/-- A copy of ranges that do not fit fails. -/
theorem perform_copy_of_not_inRange (h : s.OnOneStream stream) {dst src : Place} {dstOffset : Nat}
    {range : Option (Nat × Nat)} (hc : (copy dst src dstOffset range).Permitted s)
    (hr : s.resourceAt dst = .ok r) (hr' : s.resourceAt src = .ok r')
    (hin : Buffer.inRange r.data r'.data dstOffset (range.getD (0, r'.data.size)).1
      (range.getD (0, r'.data.size)).2 = false) (reply : Reply) :
    (s.perform (.buffer (.copy dst src dstOffset range))).1 ≠ .ok reply := by
  have hf : s.foreseen (.copy dst src dstOffset range) =
      foreseeCopy s dst r.data r'.data dstOffset (range.getD (0, r'.data.size)) :=
    (foreseeWith_of_ok hr _).trans (foreseeWith_of_ok hr' _)
  rw [foreseeCopy, hin, if_neg (by simp)] at hf
  rcases h.sound.performs hc (h.sound.sparesInputs h.batch _) with
    ⟨e, t, es, -, hperf, -⟩ | ⟨answer, t, hperf, hreply, -⟩
  · rw [hperf]
    rintro ⟨⟩
  · rw [hperf, hreply trivial, hf]
    rintro ⟨⟩

theorem shows_perform_copy_iff (h : s.OnOneStream stream) {dst src : Place} {dstOffset : Nat}
    {range : Option (Nat × Nat)} (hc : (copy dst src dstOffset range).Permitted s)
    (hon : (copy dst src dstOffset range).OnStream stream)
    (hshows : s.Shows s.machine.outlook stream held) :
    let c := copy dst src dstOffset range
    (s.perform (.buffer c)).2.Shows (s.perform (.buffer c)).2.machine.outlook stream
        (s.entered held c) ↔
      ∀ reply, (s.perform (.buffer c)).1 = .ok reply → c.Harmless s stream := by
  intro c
  have hpatient := h.shows_of_patient hc hon hshows
  -- Only elements copied from host to host can make a difference.
  by_cases hhost : ∃ r r', s.resourceAt dst = .ok r ∧ s.resourceAt src = .ok r' ∧
      r.data.location = .host ∧ r'.data.location = .host
  · obtain ⟨r, r', hr, hr', hl, hl'⟩ := hhost
    obtain ⟨⟨i, j⟩, hrange⟩ : ∃ p, range.getD (0, r'.data.size) = p := ⟨_, rfl⟩
    cases hin : Buffer.inRange r.data r'.data dstOffset i j with
    | false =>
      have hfails := h.perform_copy_of_not_inRange hc hr hr' (by rw [hrange]; exact hin)
      refine iff_of_true (hpatient fun q q' hq hq' => ?_) fun reply hok =>
        absurd hok (hfails reply)
      cases hr.symm.trans hq
      cases hr'.symm.trans hq'
      rw [hrange]
      exact fun hfit => absurd hfit (by rw [hin]; decide)
    | true =>
      by_cases hlt : i < j
      · obtain ⟨name, rfl, hname⟩ := slot_of_resourceAt h.batch hr
        obtain ⟨⟨reply, hok⟩, hiff⟩ := h.shows_copiedInto_iff hname hr' hl hl'
          (hc.2 r r' hr hr') hrange hlt hin hshows
        exact hiff.trans ⟨fun hh _ _ => hh, fun hh => hh reply hok⟩
      · refine iff_of_true (hpatient fun q q' hq hq' => ?_) fun _ _ q q' hq hq' _ _ => ?_
        · cases hr.symm.trans hq
          cases hr'.symm.trans hq'
          rw [hrange]
          intro _ hne
          exact absurd (Nat.pos_of_mul_pos_right (Nat.pos_of_ne_zero hne)) (by omega)
        · cases hr'.symm.trans hq'
          rw [hrange]
          exact fun hij => absurd hij hlt
  · refine iff_of_true (hpatient fun r r' hr hr' => ?_) fun _ _ r r' hr hr' hl hl' => ?_
    · intro _ _ hd
      exact absurd ⟨r, r', hr, hr', host_of_not_defers h.deferred hd⟩ hhost
    · exact absurd ⟨r, r', hr, hr', hl, hl'⟩ hhost

/-- After a command the slots will hold what they should exactly if it was harmless or failed. -/
theorem shows_perform_iff (h : s.OnOneStream stream) (hc : c.Permitted s) (hon : c.OnStream stream)
    (hshows : s.Shows s.machine.outlook stream held) :
    (s.perform (.buffer c)).2.Shows (s.perform (.buffer c)).2.machine.outlook stream
        (s.entered held c) ↔
      ∀ reply, (s.perform (.buffer c)).1 = .ok reply → c.Harmless s stream := by
  have hpatient := h.shows_of_patient hc hon hshows
  cases c with
  | copyTo slot src location device =>
    by_cases hhost : ∃ r, s.resourceAt src = .ok r ∧ location = .host ∧ r.data.location = .host
    · obtain ⟨r, hr, rfl, hl⟩ := hhost
      have hrun : run (.copyTo slot src .host device) s =
          keepBuffer slot (onMachine (r.data.copyTo .host device)) s :=
        keepBuffer_congr (Action.bind_of_ok (bufferAt_of_ok hr))
      refine (h.shows_copied_iff hc hr hl device hrun rfl hshows).trans ?_
      refine forall₂_congr fun reply hok => ⟨fun hsame q hq _ _ => ?_, fun hh => hh r hr rfl hl⟩
      cases hr.symm.trans hq
      exact hsame
    · refine iff_of_true (hpatient fun r hr _ hd => ?_) fun _ _ r hr hlocation hl => ?_
      · exact absurd ⟨r, hr, host_of_not_defers h.deferred hd⟩ hhost
      · exact absurd ⟨r, hr, hlocation, hl⟩ hhost
  | clone slot src =>
    by_cases hhost : ∃ r, s.resourceAt src = .ok r ∧ r.data.location = .host
    · obtain ⟨r, hr, hl⟩ := hhost
      have hrun : run (.clone slot src) s =
          keepBuffer slot (onMachine (r.data.copyTo .host r.data.device)) s := by
        rw [← hl]
        exact keepBuffer_congr (Action.bind_of_ok (bufferAt_of_ok hr))
      refine (h.shows_copied_iff hc hr hl r.data.device hrun rfl hshows).trans ?_
      refine forall₂_congr fun reply hok => ⟨fun hsame q hq _ => ?_, fun hh => hh r hr hl⟩
      cases hr.symm.trans hq
      exact hsame
    · refine iff_of_true (hpatient fun r hr _ hd => ?_) fun _ _ r hr hl => ?_
      · exact absurd ⟨r, hr, (host_of_not_defers h.deferred hd).1⟩ hhost
      · exact absurd ⟨r, hr, hl⟩ hhost
  | copy => exact h.shows_perform_copy_iff hc hon hshows
  | poke => exact hon.elim
  | _ => exact iff_of_true (hpatient trivial) fun _ _ => trivial

end OnOneStream

/-! ## Any run -/

variable {cs : List BufferCommand}

/-- If the slots are in order, they stay so exactly as long as commands that succeed are harmless.
-/
theorem OnOneStream.inOrder_iff (h : s.OnOneStream stream) (hcs : s.StaysOn stream cs)
    (hshows : s.Shows s.machine.outlook stream held) :
    (∀ n, InOrder stream (s.issue held (cs.take n))) ↔
      ∀ n c reply, cs[n]? = some c →
        let t := (s.issue held (cs.take n)).1
        (t.perform (.buffer c)).1 = .ok reply → c.Harmless t stream := by
  -- Whether the first command was harmless shows in the state after it. The commands behind it are
  -- judged from that state on.
  induction cs generalizing s held with
  | nil =>
    refine iff_of_true (fun n => ?_) fun n c reply hc => by cases hc
    rw [List.take_nil]
    exact h.inOrder_iff_shows.mpr hshows
  | cons c cs ih =>
    obtain ⟨hc, hon, hrest⟩ := hcs
    have hnext := h.next hc hon
    have hstep := h.shows_perform_iff hc hon hshows
    constructor
    · intro horder n d reply hd
      have hsecond := (hstep.mp (hnext.inOrder_iff_shows.mp (horder 1)))
      cases n with
      | zero =>
        cases hd
        exact hsecond reply
      | succ n =>
        exact (ih hnext hrest (hstep.mpr hsecond)).mp (fun n => horder (n + 1)) n d reply hd
    · intro hharmless n
      cases n with
      | zero => exact h.inOrder_iff_shows.mpr hshows
      | succ n =>
        refine (ih hnext hrest (hstep.mpr fun reply => hharmless 0 c reply rfl)).mpr ?_ n
        exact fun n d reply hd => hharmless (n + 1) d reply hd

theorem simulated_onOneStream (count capacity device : Nat) (stream : Stream) :
    (simulated count capacity device true).OnOneStream stream where
  sound := start_sound _ _
  batch := rfl
  deferred := rfl
  streams _ hp := absurd hp List.not_mem_nil

/-- From the start on, waiting for the stream shows all copies performed in the order in which they
were issued, exactly if no copy from host to host that succeeds makes a difference by being
performed at once. -/
theorem inOrder_iff_harmless {count capacity device : Nat}
    (h : (simulated count capacity device true).StaysOn stream cs) :
    (∀ n, InOrder stream ((simulated count capacity device true).issue (fun _ => []) (cs.take n))) ↔
      ∀ n c reply, cs[n]? = some c →
        let t := ((simulated count capacity device true).issue (fun _ => []) (cs.take n)).1
        (t.perform (.buffer c)).1 = .ok reply → c.Harmless t stream :=
  (simulated_onOneStream count capacity device stream).inOrder_iff h
    fun _ hp => absurd hp List.not_mem_nil

/-- The copy of a host buffer that waits to be filled. -/
def overtaking : List BufferCommand := [
  .ofList "far" .uint8 [7] .device 0 ⟨0⟩,
  .copyTo "near" (.slot "far") .host 0,
  .clone "twin" (.slot "near")]

/-- It holds what was in that buffer before. -/
theorem overtaking_not_inOrder : (simulated 1 64 0 true).StaysOn ⟨0⟩ overtaking ∧
    ¬ InOrder ⟨0⟩ ((simulated 1 64 0 true).issue (fun _ => []) overtaking) := by
  refine ⟨⟨List.not_mem_nil, rfl, ?_, trivial, ?_, trivial, trivial⟩, by decide⟩
  · show "near" ∉ _
    decide
  · show "twin" ∉ _
    decide

/-- The same if the stream is waited for in between. -/
def waiting : List BufferCommand := [
  .ofList "far" .uint8 [7] .device 0 ⟨0⟩,
  .copyTo "near" (.slot "far") .host 0,
  .toList (.slot "near"),
  .clone "twin" (.slot "near")]

theorem waiting_inOrder : (simulated 1 64 0 true).StaysOn ⟨0⟩ waiting ∧
    ∀ n, InOrder ⟨0⟩ ((simulated 1 64 0 true).issue (fun _ => []) (waiting.take n)) := by
  have hstays : (simulated 1 64 0 true).StaysOn ⟨0⟩ waiting := by
    refine ⟨List.not_mem_nil, rfl, ?_, trivial, trivial, trivial, ?_, trivial, trivial⟩
    · show "near" ∉ _
      decide
    · show "twin" ∉ _
      decide
  refine ⟨hstays, (inOrder_iff_harmless hstays).mpr fun n c reply hc => ?_⟩
  match n, hc with
  | 0, rfl => exact fun _ => trivial
  | 1, rfl =>
    intro t _ r hr _ hl
    cases hr
    cases hl
  | 2, rfl => exact fun _ => trivial
  | 3, rfl =>
    intro t _ r hr _
    cases hr
    rfl

end Session

end DeviceBatch
