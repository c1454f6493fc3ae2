import DeviceBatch.Proofs.Accounting
import DeviceBatch.Proofs.Grounding

/-!
# What a session knows was given out

In every session, whatever it is told to do, all buffers, ranges of storage and waiting copies lie
in blocks that were given out (`Session.grounded_after`). Nothing is assumed of the commands: names
may be given twice, storage may be given back past the buffers in it, and ranges may pose as what
they are not.

Streams keep storage alive, and what the caller has asked them to keep: as long as no command asks
for that, all guards are storage (`Session.grounded_after_of`).
-/

namespace DeviceBatch

open Local

/-- The names of what a command has a stream keep alive for the caller. -/
def PlatformCommand.lent : PlatformCommand → Set String
  | retain guard _ => {guard}
  | _ => ∅

def Command.lent : Command → Set String
  | platform c => c.lent
  | _ => ∅

namespace Session

/-- Only commands on the platform keep anything alive that is not storage. -/
def Step.lent : Step → Set String
  | .perform c => c.lent
  | _ => ∅

variable {s s' : Session} {K : Set String} {m : Machine} {α : Type} {slot : String}
  {place : Place} {n k : Nat}

/-- All that is known in the session lies in blocks with numbers below `n`. -/
structure Known (s : Session) (n : Nat) : Prop where
  slots : ∀ p ∈ s.slots, p.2.data.Grounded n
  raws : ∀ p ∈ s.raws, p.2.data.block < n
  requests : ∀ r ∈ s.requests, r.Grounded n
  batch : ∀ b, s.batch = some b → Local.Batch.Grounded b n
  aside : ∀ p ∈ s.aside, Local.Batch.Grounded p.2.batch n ∧ ∀ q ∈ p.2.inputs, q.2.data.Grounded n
  kept : ∀ r ∈ s.kept, r.Grounded n
  gather : ∀ g, s.gather = some g → g.Grounded n

theorem Known.mono (h : s.Known n) (hn : n ≤ k) : s.Known k where
  slots p hp := (h.slots p hp).mono hn
  raws p hp := Nat.lt_of_lt_of_le (h.raws p hp) hn
  requests r hr := (h.requests r hr).mono hn
  batch b hb := (h.batch b hb).mono hn
  aside p hp := ⟨(h.aside p hp).1.mono hn, fun q hq => ((h.aside p hp).2 q hq).mono hn⟩
  kept r hr := (h.kept r hr).mono hn
  gather g hg := (h.gather g hg).mono hn

/-- The copies that wait and all that is known in the session lie in blocks that were given out. -/
structure Grounded (s : Session) (K : Set String := Set.univ) : Prop where
  machine : s.machine.Grounded
  /-- Of the caller's things streams keep those among `K` alive. -/
  tokens : ∀ name, s.machine.Retains (.token name) → name ∈ K
  known : s.Known s.machine.memory.next

/-- Whatever comes of the action, what is known was given out. -/
def Grounds (s : Session) (K : Set String) (act : Action Session α) : Prop :=
  act.Leaves s (fun _ s' => s'.Grounded K) (·.Grounded K)

theorem grounded_start (platform : Platform) (device : Nat) :
    (start platform device).Grounded K where
  machine := Machine.grounded_start platform
  tokens := fun _ ⟨_, hp, _⟩ => absurd hp List.not_mem_nil
  known := {
    slots := fun _ h => absurd h List.not_mem_nil
    raws := fun _ h => absurd h List.not_mem_nil
    requests := fun _ h => absurd h List.not_mem_nil
    batch := nofun
    aside := fun _ h => absurd h List.not_mem_nil
    kept := fun _ h => absurd h List.not_mem_nil
    gather := nofun }

/-! ## Working on parts -/

namespace Grounded

theorem tokens_of (h : s.Grounded K) (hm : s.machine.Grows m) :
    ∀ name, m.Retains (.token name) → name ∈ K :=
  fun name hname => h.tokens name (hm.tokens name hname)

theorem withMachine (h : s.Grounded K) (hm : s.machine.Grows m) :
    ({ s with machine := m } : Session).Grounded K :=
  ⟨hm.grounded, h.tokens_of hm, { h.known.mono hm.next with }⟩

theorem onMachine {act : Action Machine α} {P : α → Machine → Prop} (h : s.Grounded K)
    (hact : act.Leaves s.machine (fun a m => s.machine.Grows m ∧ P a m) (s.machine.Grows ·)) :
    (Session.onMachine act).Leaves s (fun a s' => s'.Grounded K ∧ P a s'.machine) (·.Grounded K) :=
  .within (hact.mono (fun _ _ hm => ⟨h.withMachine hm.1, hm.2⟩) fun _ hm => h.withMachine hm)

/-- An action on the machine that answers with nothing that was given out. -/
theorem grounds_onMachine {act : Action Machine α} (h : s.Grounded K)
    (hact : act.Leaves s.machine (fun _ m => s.machine.Grows m) (s.machine.Grows ·)) :
    s.Grounds K (Session.onMachine act) :=
  .within (hact.mono (fun _ _ hm => h.withMachine hm) fun _ hm => h.withMachine hm)

theorem grounds_changeMachine {f : Machine → Machine} (h : s.Grounded K)
    (hf : s.machine.Grows (f s.machine)) : s.Grounds K (changeMachine f) :=
  h.grounds_onMachine (.change hf)

theorem store {r : Resource} (h : s.Grounded K) (hr : r.data.Grounded s.machine.memory.next) :
    ({ s with slots := s.slots.put slot r } : Session).Grounded K :=
  ⟨h.machine, h.tokens, { h.known with
    slots := fun p hp => by
      rcases Named.mem_put hp with hp | rfl
      · exact h.known.slots p hp
      · exact hr }⟩

theorem take (h : s.Grounded K) (slot : String) :
    (take slot).Leaves s (fun r s' => s'.Grounded K ∧ r.data.Grounded s'.machine.memory.next)
      (·.Grounded K) :=
  leaves_consult_bind h fun _ hr => .change_bind (.pure
    ⟨⟨h.machine, h.tokens, { h.known with
        slots := fun p hp => h.known.slots p (List.mem_filter.mp hp).1 }⟩,
      h.known.slots _ (Named.mem_of_lookup (held_eq_ok hr))⟩)

theorem resourceAt (h : s.Grounded K) {r : Resource} (hr : s.resourceAt place = .ok r) :
    r.data.Grounded s.machine.memory.next := by
  cases place with
  | slot name => exact h.known.slots _ (Named.mem_of_lookup (held_eq_ok hr))
  | output name =>
    obtain ⟨b, t, hb, -, ht, rfl⟩ := resourceAt_output hr
    exact (h.known.batch b hb).output? ht

theorem bufferAt_bind {β : Type} {g : Buffer → Action Session β} {P : β → Session → Prop}
    (h : s.Grounded K)
    (hok : ∀ b, b.Grounded s.machine.memory.next → (g b).Leaves s P (·.Grounded K)) :
    (bufferAt place >>= g).Leaves s P (·.Grounded K) := by
  rw [Session.bufferAt_bind]
  exact leaves_consult_bind h fun r hr => hok r.data (h.resourceAt hr)

theorem bindAt (h : s.Grounded K) (place : Place) (stream : Stream) :
    (bindAt place stream s).Grounded K := by
  cases place with
  | slot name =>
    cases hr : s.slots.lookup name with
    | none =>
      rw [bindAt_of_none hr]
      exact h
    | some r =>
      rw [bindAt_slot hr]
      refine h.store ?_
      have hdata := (h.known.slots _ (Named.mem_of_lookup hr)).withStream stream
      cases r <;> exact hdata
  | output name =>
    refine ⟨h.machine, h.tokens, { h.known with batch := fun b hb => ?_ }⟩
    obtain ⟨b', hb', rfl⟩ := Option.map_eq_some_iff.mp hb
    exact Local.Batch.grounded_withOutputStream (h.known.batch b' hb') name stream

/-! ## Buffers and tensors -/

theorem keepBuffer {act : Action Session Buffer}
    (hact : act.Leaves s (fun b s' => s'.Grounded K ∧ b.Grounded s'.machine.memory.next)
      (·.Grounded K)) : s.Grounds K (BufferCommand.keepBuffer slot act) :=
  .bind hact fun b _ h => .change_bind (.pure (h.1.store (r := .buffer b) h.2))

theorem keepTensor {act : Action Session Tensor}
    (hact : act.Leaves s (fun t s' => s'.Grounded K ∧ t.buffer.Grounded s'.machine.memory.next)
      (·.Grounded K)) : s.Grounds K (BufferCommand.keepTensor slot act) :=
  .bind hact fun t _ h => .change_bind (.pure (h.1.store (r := .tensor t) h.2))

theorem copyBetween (h : s.Grounded K) (dst src : Place) (dstOffset : Nat)
    (range : Option (Nat × Nat)) :
    s.Grounds K (BufferCommand.copyBetween dst src dstOffset range) := by
  refine h.bufferAt_bind fun target htarget => h.bufferAt_bind fun source hsource => ?_
  have hcopied : ∀ {p : Machine × Buffer}, target.Rebound s.machine p →
      (Session.bindAt dst p.2.stream { s with machine := p.1 }).Grounded K := fun hp =>
    (h.withMachine hp.1).bindAt dst _
  obtain ⟨i, j⟩ := range.getD (0, source.size)
  refine .bind (P := fun _ s' => s'.Grounded K) (.within ((Buffer.rebound_copyRange h.machine
    hsource htarget dstOffset i j).mono (fun _ _ => hcopied) fun _ => hcopied)) fun _ _ h' => ?_
  exact h'.bufferAt_bind fun _ _ => .pure h'

/-- Every command on buffers, whatever it is given. -/
theorem buffer (h : s.Grounded K) (c : BufferCommand) : s.Grounds K c.run := by
  have hm := h.machine
  have hmade : ∀ {act : Action Machine Buffer} {dtype : ElementType} {size : Nat} {s : Session},
      s.Grounded K → act.Leaves s.machine (fun b m => s.machine.Grows m ∧
        b.Made dtype size m.memory.next) (s.machine.Grows ·) →
      (Session.onMachine act).Leaves s
        (fun b s' => s'.Grounded K ∧ b.Grounded s'.machine.memory.next) (·.Grounded K) :=
    fun h hact => (h.onMachine hact).mono (fun _ _ hb => ⟨hb.1, hb.2.toGrounded⟩) fun _ h' => h'
  cases c with
  | allocate => exact keepBuffer (hmade h (Buffer.grows_allocate hm ..))
  | ofList => exact keepBuffer (hmade h (Buffer.grows_ofBytes hm ..))
  | copyTo | clone =>
    exact keepBuffer (h.bufferAt_bind fun b hb => hmade h (Buffer.grows_copyTo hm hb ..))
  | moveTo slot src location =>
    refine keepBuffer (.bind (h.take src) fun r s' hr => ?_)
    refine hr.1.onMachine (P := fun c m => c.Grounded m.memory.next)
      ((Buffer.grows_moveTo hr.1.machine hr.2 location).mono (fun c m hc => ⟨hc.1, ?_⟩)
        fun _ hm => hm)
    rcases hc.2 with rfl | hmade
    · exact hr.2.mono hc.1.next
    · exact hmade.toGrounded
  | borrow slot src offset size location device stream =>
    exact keepBuffer (h.bufferAt_bind fun b hb => .pure ⟨h, hb.block, nofun⟩)
  | release slot =>
    exact .bind (h.take slot) fun r s' hr =>
      .bind (hr.1.grounds_changeMachine (Buffer.grows_release hr.1.machine _))
        fun _ _ h' => .pure h'
  | describe place => exact leaves_consult_bind h fun _ _ => .pure h
  | text place => exact leaves_consult_bind h fun _ _ => .get_bind (.pure h)
  | sameData a b => exact h.bufferAt_bind fun _ _ => h.bufferAt_bind fun _ _ => .pure h
  | peek place =>
    exact h.bufferAt_bind fun b _ => .bind (h.grounds_onMachine (.ofExcept_bind
      (fun _ _ => .get_bind (.pure (.refl hm))) (Machine.Grows.refl hm))) fun _ _ h' => .pure h'
  | toList place =>
    exact h.bufferAt_bind fun b hb => .bind (h.grounds_onMachine
      (.bind (Buffer.grows_fetchBytes hm hb) fun _ _ h' => .pure h')) fun _ _ h' => .pure h'
  | poke place index xs =>
    refine h.bufferAt_bind fun b _ => .bind (h.grounds_onMachine (.ofExcept_bind (fun _ _ => ?_)
      (Machine.Grows.refl hm))) fun _ _ h' => .pure h'
    split
    · exact .change (hm.write ..)
    · exact .pure (.refl hm)
  | rebind place stream =>
    exact h.bufferAt_bind fun b _ =>
      .bind (h.grounds_changeMachine (Buffer.grows_rebind hm b stream))
        fun _ _ h' => .change_bind (.pure (h'.bindAt place stream))
  | copy dst src dstOffset range => exact h.copyBetween dst src dstOffset range
  | allocateTensor => exact keepTensor (h.onMachine (Tensor.grows_allocate hm ..))
  | toTensor slot src shape =>
    exact keepTensor (.bind (h.take src) fun r s' hr =>
      hr.1.onMachine (Tensor.grows_adopt hr.1.machine hr.2 shape))
  | toBuffer slot src => exact keepBuffer (.bind (h.take src) fun r s' hr => .pure hr)

/-! ## The platform -/

/-- Every command on the platform, also one that asks for storage or gives some back past all
buffers. -/
theorem platform (h : s.Grounded K) (c : PlatformCommand) (hc : c.lent ⊆ K) :
    s.Grounds K c.run := by
  have hm := h.machine
  have hnamed : ∀ {raw : String} {storage : RawStorage}, s.raws.find raw = .ok storage →
      storage.data.block < s.machine.memory.next := fun hfind =>
    h.known.raws _ (Named.mem_of_lookup (Named.lookup_of_find hfind))
  have hkeep : ∀ {s : Session} {raw : String} {storage : RawStorage}, s.Grounded K →
      storage.data.block < s.machine.memory.next →
      s.Grounds K (PlatformCommand.keepRaw raw storage) := fun {s raw storage} h hstorage =>
    .change_bind (.pure ⟨h.machine, h.tokens, { h.known with
      raws := fun p hp => by
        rcases Named.mem_put hp with hp | rfl
        · exact h.known.raws p hp
        · exact hstorage }⟩)
  cases c with
  | describe => exact .get_bind (.pure h)
  | synchronize stream =>
    exact .bind (h.grounds_changeMachine (hm.synchronize stream)) fun _ _ h' => .pure h'
  | allocate raw bytes location device =>
    exact .bind (h.onMachine (.attempt (fun _ _ ha => hm.allocate ha) (.refl hm)))
      fun block s' h' => hkeep h'.1 h'.2
  | deallocate raw location =>
    exact leaves_consult_bind h fun storage _ =>
      .bind (h.grounds_onMachine (hm.deallocate _)) fun _ _ h' => .pure h'
  | storageOf raw place => exact h.bufferAt_bind fun b hb => hkeep h hb.block
  | write raw index bytes =>
    exact leaves_consult_bind h fun _ _ =>
      .bind (h.grounds_changeMachine (hm.write ..)) fun _ _ h' => .pure h'
  | read raw => exact leaves_consult_bind h fun _ _ => .get_bind (.pure h)
  | copy dst dstIndex src srcIndex kind bytes stream =>
    refine leaves_consult_bind h fun target hdst => leaves_consult_bind h fun source hsrc => ?_
    have hknown : s.machine.Knows ⟨target.data.advance dstIndex, source.data.advance srcIndex,
      bytes⟩ := ⟨hnamed hdst, hnamed hsrc⟩
    exact .bind (h.grounds_onMachine (.step (fun _ hc => hm.copy hknown hc) (.refl hm)))
      fun _ _ h' => .pure h'
  | retain guard stream =>
    obtain ⟨hm', hmemory, htokens⟩ := hm.retain_token stream guard
    have hkept : ({ s with machine := s.machine.retain stream (.token guard) } : Session).Grounded
        K := by
      refine ⟨hm', fun name hname => ?_, { hmemory ▸ h.known with }⟩
      rcases htokens name hname with hname | rfl
      · exact h.tokens name hname
      · exact hc rfl
    have hchange : s.Grounds K (changeMachine (·.retain stream (.token guard))) := by
      unfold Grounds changeMachine Session.onMachine
      exact .within (Action.Leaves.change (Q := fun _ => _) hkept)
    exact .bind hchange fun _ _ h' => .get_bind (.pure h')
  | references guard => exact .get_bind (.pure h)

/-! ## Batches -/

/-- An action on the batch in progress. -/
theorem onBatch {act : Action (Machine × Local.Batch) α} {P : α → Machine → Prop} (h : s.Grounded K)
    (hact : ∀ {b : Local.Batch}, Local.Batch.Grounded b s.machine.memory.next →
      act.Leaves (s.machine, b) (fun a p => Local.Batch.Grown s.machine p ∧ P a p.1)
        (Local.Batch.Grown s.machine)) :
    (Session.onBatch act).Leaves s (fun a s' => s'.Grounded K ∧ P a s'.machine) (·.Grounded K) := by
  refine leaves_consult_bind h fun b hb => ?_
  have hback : ∀ {p : Machine × Local.Batch}, Local.Batch.Grown s.machine p →
      ({ s with machine := p.1, batch := some p.2 } : Session).Grounded K := fun {p} hp =>
    ⟨hp.1.grounded, h.tokens_of hp.1, { h.known.mono hp.1.next with
      batch := fun b hb => Option.some.inj hb ▸ hp.2 }⟩
  exact .within ((hact (h.known.batch b (currentBatch_eq_ok hb))).mono
    (fun _ _ hp => ⟨hback hp.1, hp.2⟩) fun _ => hback)

theorem request (h : s.Grounded K) (id : Nat) (inputs : List InputSpec)
    (wanted : List WantedOutput) (asked : List String) :
    s.Grounds K (BatchCommand.run (.request id inputs wanted asked)) := by
  refine .bind (.bind (h.onMachine (Request.grows_storeInputs (r := { id }) h.machine
    (fun _ hi => absurd hi List.not_mem_nil) inputs)) fun stored s' h' => .change_bind (.pure ?_))
    fun _ _ h' => .pure h'
  exact ⟨h'.1.machine, h'.1.tokens, { h'.1.known with
    requests := List.forall_mem_append.mpr ⟨h'.1.known.requests,
      List.forall_mem_singleton.mpr (h'.2.addOutputs wanted)⟩ }⟩

theorem create (h : s.Grounded K) (count : Option Nat) (settings : BatchSettings)
    (stream : Stream) : s.Grounds K (BatchCommand.run (.create count settings stream)) := by
  have hopened : (DeviceBatch.Batch.create exchange (s.requests.take (count.getD s.requests.length))
      settings stream).Leaves (s.machine, {}) (fun b p => s.machine.Grows p.1 ∧
        Local.Batch.Grounded b p.1.memory.next) fun p => s.machine.Grows p.1 := by
    unfold Action.Leaves
    rcases Local.Batch.create_cases (s.requests.take (count.getD s.requests.length)) settings
      stream with ⟨e, -, he⟩ | ⟨-, hrun⟩
    · rw [he]
      exact .refl h.machine
    · rw [hrun]
      exact ⟨((Machine.Grows.refl h.machine).emit _).emit _, Local.Batch.grounded_opening
        (fun r hr => h.known.requests r (List.mem_of_mem_take hr)) settings stream⟩
  refine .bind (.get_bind (.bind (P := fun b s' => s'.Grounded K ∧
    Local.Batch.Grounded b s'.machine.memory.next) (.within (hopened.mono
      (fun _ _ hb => ⟨h.withMachine hb.1, hb.2⟩) fun _ hm => h.withMachine hm)) fun b s' h' =>
    .change_bind (.pure ?_))) fun _ _ h' => .pure h'
  exact ⟨h'.1.machine, h'.1.tokens, { h'.1.known with
    batch := fun b' hb' => Option.some.inj hb' ▸ h'.2 }⟩

/-- The batch in progress ends, and its responses are in the hands of the caller. -/
theorem endBatch (h : s.Grounded K) {closing : Local.Batch → Machine → Machine}
    (hclosing : ∀ (b : Local.Batch) (m : Machine), m.Grounded → m.Grows (closing b m)) :
    (BatchCommand.endBatch closing).Leaves s (fun b s' => s'.Grounded K ∧
      ∀ r ∈ b.responses, r.Grounded s'.machine.memory.next) (·.Grounded K) := by
  refine leaves_consult_bind h fun b hb => .change_bind (.pure ?_)
  have hm := hclosing b s.machine h.machine
  have hknown := h.known.mono hm.next
  exact ⟨⟨hm.grounded, h.tokens_of hm, { hknown with
    batch := nofun
    slots := fun p hp => hknown.slots p (List.mem_filter.mp hp).1 }⟩,
      (hknown.batch b (currentBatch_eq_ok hb)).responses⟩

theorem responseAt (h : s.Grounded K) {index : Nat} {r : Response}
    (hr : BatchCommand.responseAt index s = .ok r) : r.Grounded s.machine.memory.next := by
  unfold BatchCommand.responseAt at hr
  split at hr
  · next r' hfound =>
    cases hr
    have hmem := List.mem_of_getElem? hfound
    unfold BatchCommand.visibleResponses at hmem
    split at hmem
    · next b hb => exact (h.known.batch b hb).responses r hmem
    · exact h.known.kept r hmem
  · cases hr

/-- Every command on requests, batches and responses. -/
theorem batch (h : s.Grounded K) (c : BatchCommand) : s.Grounds K c.run := by
  have hm := h.machine
  cases c with
  | request id inputs outputs asked => exact h.request id inputs outputs asked
  | create count settings stream => exact h.create count settings stream
  | describe => exact leaves_consult_bind h fun _ _ => .pure h
  | combinedShape name =>
    exact leaves_consult_bind h fun _ _ => .ofExcept_bind (fun _ _ => .pure h) h
  | getInput slot name dtype location device =>
    exact .bind (h.onBatch (P := fun t m => t.buffer.Grounded m.memory.next) fun hb =>
      Local.Batch.grown_getInput hm hb name dtype location device)
      fun t s' h' => .change_bind (.pure (h'.1.store (r := .input t) h'.2))
  | getOutput name dtype shape location device =>
    exact .bind (h.onBatch (P := fun _ _ => True) fun hb =>
      (Local.Batch.grown_getOutput hm hb name dtype shape location device).mono
        (fun _ _ hp => ⟨hp, trivial⟩) fun _ hp => hp) fun _ _ h' => .pure h'.1
  | output name dtype =>
    refine leaves_consult_bind h fun b _ => ?_
    split
    · exact .pure h
    · exact .pure h
  | outputs => exact leaves_consult_bind h fun _ _ => .pure h
  | finalize =>
    exact .bind (h.onBatch (P := fun _ _ => True) fun hb =>
      (Local.Batch.grown_finalize hm hb).mono (fun _ _ hp => ⟨hp, trivial⟩) fun _ hp => hp)
        fun _ _ h' => .pure h'.1
  | takeResponses =>
    refine .bind (h.endBatch fun b m hm => Local.Batch.grows_releaseRest hm b) fun b s' h' =>
      .change_bind (.pure ?_)
    have hdropped := Machine.Grows.foldl (fun _ r hm => Response.grows_release hm r) h'.1.machine
      s'.kept
    exact ⟨hdropped.grounded, h'.1.tokens_of hdropped, { h'.1.known.mono hdropped.next with
      kept := fun r hr => (h'.2 r hr).mono hdropped.next }⟩
  | drop =>
    exact .bind (h.endBatch fun b m hm => Local.Batch.grows_release hm b) fun _ _ h' => .pure h'.1
  | setAside label =>
    refine .bind (P := fun _ s' => s'.Grounded K) (leaves_consult_bind h fun b hb => .change ?_)
      fun _ _ h' => .pure h'
    exact ⟨hm, h.tokens, { h.known with
      batch := nofun
      slots := fun p hp => h.known.slots p (List.mem_filter.mp hp).1
      aside := fun p hp => by
        rcases Named.mem_put hp with hp | rfl
        · exact h.known.aside p hp
        · exact ⟨h.known.batch b (currentBatch_eq_ok hb), fun q hq =>
            h.known.slots q (List.mem_filter.mp hq).1⟩ }⟩
  | resume label =>
    refine .bind (P := fun _ s' => s'.Grounded K)
      (leaves_consult_bind h fun rest hrest => .change ?_) fun _ _ h' => .pure h'
    have haside := h.known.aside _ (Named.mem_of_lookup (Named.lookup_of_find hrest))
    exact ⟨hm, h.tokens, { h.known with
      batch := fun b hb => Option.some.inj hb ▸ haside.1
      slots := List.forall_mem_append.mpr ⟨h.known.slots, haside.2⟩
      aside := fun p hp => h.known.aside p (List.mem_filter.mp hp).1 }⟩
  | responses => exact .get_bind (.pure h)
  | response index name dtype =>
    refine leaves_consult_bind h fun r hr => ?_
    cases ho : r.output? name with
    | none => exact .pure h
    | some o =>
      exact .bind (h.grounds_onMachine (Response.grows_toList hm
        (h.responseAt hr o (List.mem_of_find?_eq_some ho)) dtype)) fun _ _ h' => .pure h'

/-! ## The sides of the exchange -/

theorem dropGather (h : s.Grounded K) : (SideCommand.dropGather s).Grounded K := by
  unfold SideCommand.dropGather
  split
  · exact h
  · next gather hg =>
    have hm := Gather.grows_close h.machine gather
    exact ⟨hm.grounded, h.tokens_of hm, { h.known.mono hm.next with gather := nofun }⟩

theorem onGather {act : Action (Machine × Gather) α} (h : s.Grounded K)
    (hact : ∀ {g : Gather}, g.Grounded s.machine.memory.next →
      act.Leaves (s.machine, g) (fun _ => Gather.Grown s.machine) (Gather.Grown s.machine)) :
    s.Grounds K (SideCommand.onGather act) := by
  refine .get_bind ?_
  cases hg : s.gather with
  | none => exact .throw h
  | some gather =>
    have hback : ∀ {p : Machine × Gather}, Gather.Grown s.machine p →
        ({ s with machine := p.1, gather := some p.2 } : Session).Grounded K := fun hp =>
      ⟨hp.1.grounded, h.tokens_of hp.1, { h.known.mono hp.1.next with
        gather := fun g hg => Option.some.inj hg ▸ hp.2 }⟩
    exact .within ((hact (h.known.gather gather hg)).mono (fun _ _ => hback) fun _ => hback)

theorem onScatter {act : Action (Machine × Scatter × List Response) α} (h : s.Grounded K)
    (hact : ∀ {p}, Scatter.Grown s.machine p →
      act.Leaves p (fun _ => Scatter.Grown s.machine) (Scatter.Grown s.machine)) :
    s.Grounds K (SideCommand.onScatter act) := by
  refine .get_bind ?_
  cases s.scatter with
  | none => exact .throw h
  | some scatter =>
    have hback : ∀ {p : Machine × Scatter × List Response}, Scatter.Grown s.machine p →
        ({ s with
          machine := p.1
          scatter := some p.2.1
          kept := p.2.2 } : Session).Grounded K := fun hp =>
      ⟨hp.1.grounded, h.tokens_of hp.1, { h.known.mono hp.1.next with kept := hp.2 }⟩
    exact .within ((hact ⟨.refl h.machine, h.known.kept⟩).mono (fun _ _ => hback) fun _ => hback)

/-- Every command on the sides of the exchange. -/
theorem side (h : s.Grounded K) (c : SideCommand) : s.Grounds K c.run := by
  cases c with
  | openGather pinned stream =>
    refine .change_bind (.pure ⟨h.dropGather.machine, h.dropGather.tokens, { h.dropGather.known with
      gather := fun g hg => ?_ }⟩)
    obtain rfl := Option.some.inj hg
    exact fun _ hb => absurd hb List.not_mem_nil
  | collect query =>
    refine .get_bind (h.onGather fun hg => ?_)
    exact ((Gather.grown_collect h.machine hg h.known.requests query).mono (fun _ _ hp => hp.1)
      fun _ hp => hp).outcome
  | closeGather => exact .change_bind (.pure h.dropGather)
  | openScatter pinned maximum stream =>
    have hdropped :=
      Machine.Grows.foldl (fun _ r hm => Response.grows_release hm r) h.machine s.kept
    refine .change_bind (.get_bind (.pure ⟨hdropped.grounded, h.tokens_of hdropped, {
      h.known.mono hdropped.next with kept := fun r hr o ho => ?_ }⟩))
    rw [outputs_of_mem_empty hr] at ho
    exact absurd ho List.not_mem_nil
  | process place name shape elementSize withoutData =>
    refine h.bufferAt_bind fun b hb => .get_bind (.bind (h.onScatter fun hp =>
      Scatter.grown_process (fun data hdata => ?_) hp s.requests) fun _ _ h' => .pure h')
    cases withoutData with
    | true => cases hdata
    | false => exact Option.some.inj hdata ▸ hb.block
  | finishScatter =>
    exact .bind (h.onScatter fun hp => Scatter.grown_finish hp) fun _ _ h' => .pure h'

/-! ## Every session -/

theorem perform (h : s.Grounded K) (c : Command) (hc : c.lent ⊆ K) :
    (s.perform c).2.Grounded K := by
  refine Action.Leaves.outcome (Q := fun s' : Session => s'.Grounded K) ?_
  cases c with
  | buffer c => exact h.buffer c
  | platform c => exact h.platform c hc
  | batch c => exact h.batch c
  | side c => exact h.side c

theorem after (h : s.Grounded K) (step : Step) (hstep : step.lent ⊆ K) :
    (s.after step).Grounded K := by
  cases step with
  | perform c => exact h.perform c hstep
  | dropRequest index =>
    simp only [Session.after]
    split
    · exact h
    · next r _ =>
      have hm := Request.grows_release h.machine r
      exact ⟨hm.grounded, h.tokens_of hm, { h.known.mono hm.next with
        requests := fun r hr => ((h.known.requests r (List.mem_of_mem_eraseIdx hr)).mono hm.next) }⟩
  | dropResponse index =>
    simp only [Session.after]
    split
    · exact h
    · next r _ =>
      have hm := Response.grows_release h.machine r
      exact ⟨hm.grounded, h.tokens_of hm, { h.known.mono hm.next with
        kept := fun r hr => ((h.known.kept r (List.mem_of_mem_eraseIdx hr)).mono hm.next) }⟩

end Grounded

/-- At every moment of every session the copies that wait and all that is known lie in blocks that
were given out, and requests store their inputs as they should. Nothing of the caller's is kept
alive but what was asked for. -/
theorem grounded_after_of (platform : Platform) (device : Nat) {steps : List Step}
    (h : ∀ step ∈ steps, step.lent ⊆ K) :
    (steps.foldl after (start platform device)).Grounded K :=
  List.foldlRecOn (motive := fun s : Session => s.Grounded K) steps after
    (grounded_start platform device) fun _ hs step hmem => hs.after step (h step hmem)

theorem grounded_after (platform : Platform) (device : Nat) (steps : List Step) :
    (steps.foldl after (start platform device)).Grounded :=
  grounded_after_of platform device fun _ _ => Set.subset_univ _

end Session

end DeviceBatch
