import DeviceBatch.Proofs.Accounting
import DeviceBatch.Proofs.HostExchange

/-!
# Host work in sessions

A session of work with buffers, tensors, requests and batches goes the same way on a simulated
platform as on the host platform, deferred or not, as long as it asks for host storage only or there
are no devices (`Session.host_work_alike`). Where there are none, nothing comes into being on a
device, and whatever asks for that fails.

Views that the caller makes of a buffer are left out, for they can claim to lie on a device, and so
is work past all buffers.
-/

namespace DeviceBatch

open Local

/-! ## Ordinary work -/

namespace BufferCommand

/-- All but views made by the caller. -/
def Ordinary : BufferCommand → Prop
  | borrow .. => False
  | _ => True

/-- Where the command asks for storage. -/
def locations : BufferCommand → List Location
  | allocate _ _ _ location _ _ => [location]
  | ofList _ _ _ location _ _ => [location]
  | copyTo _ _ location _ => [location]
  | moveTo _ _ location => [location]
  | allocateTensor _ _ _ location _ _ => [location]
  | _ => []

end BufferCommand

/-- Where the command asks for storage, now or when a batch is finalized. -/
def BatchCommand.locations : BatchCommand → List Location
  | request _ inputs wanted _ => inputs.map InputSpec.location ++ wanted.map WantedOutput.location
  | getInput _ _ _ location _ => [location]
  | getOutput _ _ _ location _ => [location]
  | _ => []

namespace Command

/-- Work with buffers, tensors, requests and batches, and waiting for it. -/
def Ordinary : Command → Prop
  | buffer c => c.Ordinary
  | platform (.synchronize _) => True
  | platform _ => False
  | batch _ => True
  | side _ => False

def locations : Command → List Location
  | buffer c => c.locations
  | batch c => c.locations
  | _ => []

/-- Something on a device would come of the command. -/
def AsksForDevice (s : Session) : Command → Prop
  | buffer c => .device ∈ c.locations
  | batch (.request _ inputs _ _) => ∃ i ∈ inputs, i.location = .device
  | batch (.getInput _ _ _ location _) => location = .device
  | batch (.getOutput _ _ _ location _) => location = .device
  | batch .finalize => ∃ b, s.batch = some b ∧
    ∃ o ∈ b.outputs, ∃ r ∈ b.requests, ∃ device, r.wants o.name = some (.device, device)
  | _ => False

end Command

/-- The same reply, errors that are alike, or the text of the same thing on either platform. -/
inductive AlikeOutcomes (p q : Platform) : Except Error Reply → Except Error Reply → Prop where
  | reply (r : Reply) : AlikeOutcomes p q (.ok r) (.ok r)
  | text (r : Resource) :
    AlikeOutcomes p q (.ok (.text (r.text p.name))) (.ok (.text (r.text q.name)))
  | error {e e' : Error} (h : e.Alike p q e') : AlikeOutcomes p q (.error e) (.error e')

namespace Session

namespace Step

def Ordinary : Step → Prop
  | perform c => c.Ordinary
  | _ => True

def locations : Step → List Location
  | perform c => c.locations
  | _ => []

end Step

/-- All that a session has is on the host. -/
structure Hosted (p q : Platform) (s : Session) : Prop where
  slots : ∀ e ∈ s.slots, e.2.data.location = .host
  requests : ∀ r ∈ s.requests, r.Hosted p q
  batch : ∀ b, s.batch = some b → b.Hosted p q
  aside : ∀ e ∈ s.aside, e.2.batch.Hosted p q ∧ ∀ i ∈ e.2.inputs, i.2.data.location = .host
  kept : ∀ r ∈ s.kept, r.OnHost

/-- The same session on two platforms. -/
def Twin (p q : Platform) (s t : Session) : Prop :=
  s.Hosted p q ∧ ∃ m, t = { s with machine := m } ∧ s.machine.Twin p q m

variable {p q : Platform} {s t : Session} {place : Place} {α β : Type} {A : Prop}

namespace Hosted

theorem location_of_resourceAt (hs : s.Hosted p q) {r : Resource} (h : s.resourceAt place = .ok r) :
    r.data.location = .host := by
  cases place with
  | slot name => exact hs.slots _ (Named.mem_of_lookup (held_eq_ok h))
  | output name =>
    obtain ⟨b, t, hb, -, ht, rfl⟩ := resourceAt_output h
    obtain ⟨o, ho, rfl⟩ := Option.map_eq_some_iff.mp ht
    exact (hs.batch b hb).outputs o (List.mem_of_find?_eq_some ho)

theorem onHost_of_responseAt (hs : s.Hosted p q) {index : Nat} {r : Response}
    (h : BatchCommand.responseAt index s = .ok r) : r.OnHost := by
  unfold BatchCommand.responseAt at h
  split at h
  · next hr =>
    cases h
    have hmem := List.mem_of_getElem? hr
    unfold BatchCommand.visibleResponses at hmem
    cases hb : s.batch with
    | none =>
      rw [hb] at hmem
      exact hs.kept r hmem
    | some b =>
      rw [hb] at hmem
      exact (hs.batch b hb).responses r hmem
  · cases h

theorem store (hs : s.Hosted p q) {r : Resource} (hr : r.data.location = .host) (slot : String) :
    ({ s with slots := s.slots.put slot r } : Session).Hosted p q :=
  { hs with
    slots := fun e he => by
      rcases Named.mem_put he with he | rfl
      · exact hs.slots e he
      · exact hr }

theorem bindAt (hs : s.Hosted p q) (place : Place) (stream : Stream) :
    (Session.bindAt place stream s).Hosted p q := by
  cases place with
  | slot name =>
    cases hr : s.slots.lookup name with
    | none =>
      rw [bindAt_of_none hr]
      exact hs
    | some r =>
      rw [bindAt_slot hr]
      refine hs.store ?_ name
      cases r <;> exact hs.slots _ (Named.mem_of_lookup hr)
  | output name =>
    refine { hs with batch := fun b hb => ?_ }
    obtain ⟨b', hb', rfl⟩ := Option.map_eq_some_iff.mp hb
    exact (hs.batch b' hb').withOutputStream name stream

end Hosted

theorem start_twin (p q : Platform) (device : Nat) : (start p device).Twin p q (start q device) :=
  ⟨⟨nofun, nofun, nofun, nofun, nofun⟩, _, rfl, Machine.start_twin p q⟩

namespace Twin

/-! ## Slots -/

theorem machine (h : s.Twin p q t) : s.machine.Twin p q t.machine := by
  obtain ⟨-, m, rfl, hm⟩ := h
  exact hm

theorem agrees_consult_bind (h : s.Twin p q t) {f : Session → Except Error α}
    (hf : ∀ m, f { s with machine := m } = f s) {g : α → Action Session β} {P : β → Prop}
    (hok : ∀ a, f s = .ok a → (g a).Agrees p q (Twin p q) s t P) :
    Action.Agrees (consult f >>= g) p q (Twin p q) s t P := by
  have hsame : f t = f s := by
    obtain ⟨-, m, rfl, -⟩ := h
    exact hf m
  cases ha : f s with
  | error e =>
    exact .of_error (Action.bind_of_error (consult_of_error ha))
      (Action.bind_of_error (consult_of_error (hsame.trans ha))) (.same e) h
  | ok a =>
    unfold Action.Agrees
    rw [Action.bind_of_ok (consult_of_ok ha), Action.bind_of_ok (consult_of_ok (hsame.trans ha))]
    exact hok a ha

theorem agrees_bufferAt_bind (h : s.Twin p q t) {g : Buffer → Action Session β} {P : β → Prop}
    (hok : ∀ b, b.location = .host → (g b).Agrees p q (Twin p q) s t P) :
    Action.Agrees (bufferAt place >>= g) p q (Twin p q) s t P := by
  rw [bufferAt_bind]
  exact agrees_consult_bind h (fun m => resourceAt_withMachine s m place) fun r hr =>
    hok r.data (h.1.location_of_resourceAt hr)

theorem agrees_onMachine (h : s.Twin p q t) {act : Action Machine α} {P : α → Prop}
    (hact : ∀ {m}, s.machine.Twin p q m → act.Agrees p q (Machine.Twin p q) s.machine m P) :
    (onMachine act).Agrees p q (Twin p q) s t P := by
  obtain ⟨hs, m, rfl, hm⟩ := h
  exact .within (hact hm) fun n n' hn => ⟨{ hs with }, n', rfl, hn⟩

theorem agrees_changeMachine (h : s.Twin p q t) {f : Machine → Machine}
    (hf : ∀ {m m'}, m.Twin p q m' → (f m).Twin p q (f m')) :
    (changeMachine f).Agrees p q (Twin p q) s t fun _ => True :=
  agrees_onMachine h fun hm => .change trivial (hf hm)

theorem store (h : s.Twin p q t) {r : Resource} (hr : r.data.location = .host) (slot : String) :
    ({ s with slots := s.slots.put slot r } : Session).Twin p q
      { t with slots := t.slots.put slot r } := by
  obtain ⟨hs, m, rfl, hm⟩ := h
  exact ⟨hs.store hr slot, m, rfl, hm⟩

theorem agrees_take (h : s.Twin p q t) (slot : String) :
    (take slot).Agrees p q (Twin p q) s t fun r => r.data.location = .host :=
  agrees_consult_bind h (fun _ => rfl) fun r hr => by
    obtain ⟨hs, m, rfl, hm⟩ := h
    exact .change_bind (.pure (hs.slots _ (Named.mem_of_lookup (held_eq_ok hr)))
      ⟨{ hs with slots := fun e he => hs.slots e (List.mem_filter.mp he).1 }, m, rfl, hm⟩)

theorem bindAt (h : s.Twin p q t) (place : Place) (stream : Stream) :
    (Session.bindAt place stream s).Twin p q (Session.bindAt place stream t) := by
  obtain ⟨hs, m, rfl, hm⟩ := h
  have hmachine : (Session.bindAt place stream s).machine = s.machine := by
    have hsame := congrArg Session.machine (bindAt_withMachine s s.machine place stream)
    exact hsame
  exact ⟨hs.bindAt place stream, m, bindAt_withMachine s m place stream, hmachine ▸ hm⟩

/-! ## Buffers and tensors -/

theorem agrees_keepBuffer {act : Action Session Buffer}
    (hact : act.Agrees p q (Twin p q) s t fun b => A ∧ b.location = .host) (slot : String) :
    (BufferCommand.keepBuffer slot act).Agrees p q (Twin p q) s t fun _ => A :=
  .bind hact fun _ _ _ hb h => .change_bind (.pure hb.1 (h.store (r := .buffer _) hb.2 slot))

theorem agrees_keepTensor {act : Action Session Tensor}
    (hact : act.Agrees p q (Twin p q) s t fun x => A ∧ x.buffer.location = .host) (slot : String) :
    (BufferCommand.keepTensor slot act).Agrees p q (Twin p q) s t fun _ => A :=
  .bind hact fun _ _ _ hx h => .change_bind (.pure hx.1 (h.store (r := .tensor _) hx.2 slot))

theorem agrees_copyBetween (h : s.Twin p q t) (dst src : Place) (dstOffset : Nat)
    (range : Option (Nat × Nat)) :
    (BufferCommand.copyBetween dst src dstOffset range).Agrees p q (Twin p q) s t
      fun _ => True := by
  refine agrees_bufferAt_bind h fun target htarget =>
    agrees_bufferAt_bind h fun source hsource => ?_
  obtain ⟨i, j⟩ := range.getD (0, source.size)
  refine .bind (P := fun _ => True) ?_ fun _ _ _ _ h' =>
    agrees_bufferAt_bind h' fun _ _ => .pure trivial h'
  obtain ⟨hs, m, rfl, hm⟩ := h
  refine .within (Buffer.agrees_copyRange (x := (s.machine, target)) (y := (m, target))
    ⟨hm, rfl, htarget⟩ hsource dstOffset i j) fun x y hxy => ?_
  obtain ⟨n, b⟩ := x
  obtain ⟨n', y⟩ := y
  obtain ⟨hn, rfl, -⟩ := hxy
  exact bindAt (s := { s with machine := n }) ⟨{ hs with }, n', rfl, hn⟩ dst b.stream

/-- Work with buffers, apart from their text, which names the platform. -/
theorem agrees_buffer (h : s.Twin p q t) {c : BufferCommand} (hc : c.Ordinary)
    (hl : ∀ l ∈ c.locations, p.SameFor q l) (htext : ∀ place, c ≠ .text place) :
    c.run.Agrees p q (Twin p q) s t fun _ => .device ∉ c.locations := by
  have hhost : ∀ {l : Location}, l = .host → .device ∉ [l] := fun hl hmem => by
    rw [hl] at hmem
    cases List.mem_singleton.mp hmem
  cases c with
  | borrow => exact hc.elim
  | text place => exact absurd rfl (htext place)
  | allocate slot dtype size location device stream =>
    exact (agrees_keepBuffer (agrees_onMachine h fun hm =>
      Buffer.agrees_allocate hm (hl _ List.mem_cons_self) ..) slot).mono fun _ => hhost
  | ofList slot dtype xs location device stream =>
    exact (agrees_keepBuffer (agrees_onMachine h fun hm =>
      Buffer.agrees_ofBytes hm (hl _ List.mem_cons_self) ..) slot).mono fun _ => hhost
  | copyTo slot src location device =>
    exact (agrees_keepBuffer (agrees_bufferAt_bind h fun b hb => agrees_onMachine h fun hm =>
      Buffer.agrees_copyTo hm hb (hl _ List.mem_cons_self) device) slot).mono fun _ => hhost
  | clone slot src =>
    exact (agrees_keepBuffer (A := True) (agrees_bufferAt_bind h fun b hb =>
      agrees_onMachine h fun hm => (Buffer.agrees_copyTo hm hb (.inl hb) b.device).mono
        fun _ hc => ⟨trivial, hc.2⟩) slot).mono fun _ _ => nofun
  | moveTo slot src location =>
    exact (agrees_keepBuffer (.bind (agrees_take h src) fun r s' t' hr h' =>
      agrees_onMachine h' fun hm => Buffer.agrees_moveTo hm hr (hl _ List.mem_cons_self))
      slot).mono fun _ => hhost
  | release slot =>
    exact .bind (agrees_take h slot) fun r s' t' hr h' =>
      .bind (agrees_changeMachine h' fun hm => Buffer.twin_release hm hr) fun _ _ _ _ h'' =>
        .pure nofun h''
  | describe place =>
    exact agrees_consult_bind h (fun m => resourceAt_withMachine s m place) fun _ _ => .pure nofun h
  | sameData a b =>
    exact agrees_bufferAt_bind h fun _ _ => agrees_bufferAt_bind h fun _ _ => .pure nofun h
  | peek place =>
    exact agrees_bufferAt_bind h fun b _ =>
      .bind (agrees_onMachine h fun hm => Buffer.agrees_peek hm b) fun _ _ _ _ h' => .pure nofun h'
  | toList place =>
    exact agrees_bufferAt_bind h fun b hb =>
      .bind (agrees_onMachine h fun hm => Buffer.agrees_toList hm hb) fun _ _ _ _ h' =>
        .pure nofun h'
  | poke place index xs =>
    exact agrees_bufferAt_bind h fun b _ =>
      .bind (agrees_onMachine h fun hm => Buffer.agrees_poke hm b index _) fun _ _ _ _ h' =>
        .pure nofun h'
  | rebind place stream =>
    exact agrees_bufferAt_bind h fun b _ =>
      .bind (agrees_changeMachine h fun hm => Buffer.twin_rebind hm b stream) fun _ _ _ _ h' =>
        .change_bind (.pure nofun (h'.bindAt place stream))
  | copy dst src dstOffset range =>
    exact (agrees_copyBetween h dst src dstOffset range).mono fun _ _ => nofun
  | allocateTensor slot dtype shape location device stream =>
    exact (agrees_keepTensor (agrees_onMachine h fun hm =>
      Tensor.agrees_allocate hm (hl _ List.mem_cons_self) ..) slot).mono fun _ => hhost
  | toTensor slot src shape =>
    exact (agrees_keepTensor (A := True) (.bind (agrees_take h src) fun r s' t' hr h' =>
      (agrees_onMachine h' fun hm => Tensor.agrees_adopt hm hr shape).mono fun _ hx =>
        ⟨trivial, hx⟩) slot).mono fun _ _ => nofun
  | toBuffer slot src =>
    exact (agrees_keepBuffer (A := True) (.bind (agrees_take h src) fun r s' t' hr h' =>
      .pure ⟨trivial, hr⟩ h') slot).mono fun _ _ => nofun

/-! ## Requests and batches -/

theorem agrees_currentBatch_bind (h : s.Twin p q t) {g : Local.Batch → Action Session α}
    {P : α → Prop} (hok : ∀ b, s.batch = some b → (g b).Agrees p q (Twin p q) s t P) :
    Action.Agrees (consult currentBatch >>= g) p q (Twin p q) s t P :=
  agrees_consult_bind h (fun _ => rfl) fun b hb => hok b (currentBatch_eq_ok hb)

/-- An action on the batch in progress. -/
theorem agrees_onBatch (h : s.Twin p q t) {act : Action (Machine × Local.Batch) α} {P : α → Prop}
    (hact : ∀ b m, s.batch = some b →
      Machine.TwinBeside p q (Local.Batch.Hosted p q) (s.machine, b) (m, b) →
      act.Agrees p q (Machine.TwinBeside p q (Local.Batch.Hosted p q)) (s.machine, b) (m, b) P) :
    (onBatch act).Agrees p q (Twin p q) s t P := by
  refine agrees_currentBatch_bind h fun b hb => ?_
  obtain ⟨hs, m, rfl, hm⟩ := h
  refine .within (hact b m hb ⟨hm, rfl, hs.batch b hb⟩) fun x y hxy => ?_
  obtain ⟨n, b'⟩ := x
  obtain ⟨n', y⟩ := y
  obtain ⟨hn, rfl, hb'⟩ := hxy
  exact ⟨{ hs with batch := fun c hc => by cases hc; exact hb' }, n', rfl, hn⟩

/-- A request is made if its inputs are on the host. -/
theorem agrees_makeRequest (h : s.Twin p q t) (id : Nat) (inputs : List InputSpec)
    (wanted : List WantedOutput) (hi : ∀ i ∈ inputs, p.SameFor q i.location)
    (hw : ∀ w ∈ wanted, p.SameFor q w.location) :
    (BatchCommand.makeRequest id inputs wanted).Agrees p q (Twin p q) s t
      fun _ => ∀ i ∈ inputs, i.location = .host := by
  have hempty : ({ id } : Request).Hosted p q := ⟨nofun, nofun⟩
  refine .bind (agrees_onMachine h fun hm => BatchCommand.agrees_storeInputs inputs hempty hm hi)
    fun r s' t' hr h' => .change_bind (.pure hr.1 ?_)
  obtain ⟨hs, m, rfl, hm⟩ := h'
  refine ⟨{ hs with requests := fun x hx => ?_ }, m, rfl, hm⟩
  rcases List.mem_append.mp hx with hx | hx
  · exact hs.requests x hx
  · exact List.mem_singleton.mp hx ▸ hr.2.foldl_addOutput hw

theorem agrees_openBatch (h : s.Twin p q t) (count : Option Nat) (settings : BatchSettings)
    (stream : Stream) :
    (BatchCommand.openBatch count settings stream).Agrees p q (Twin p q) s t fun _ => True := by
  obtain ⟨hs, m, rfl, hm⟩ := h
  refine .get_bind rfl (.bind (P := Local.Batch.Hosted p q) (.within (Local.Batch.agrees_create hm
    (fun r hr => hs.requests r (List.mem_of_mem_take hr)) settings stream) fun x y hxy => ?_)
    fun b s' t' hb h' => .change_bind (.pure trivial ?_))
  · exact ⟨{ hs with }, y.1, rfl, hxy.1⟩
  · obtain ⟨hs', m', rfl, hm'⟩ := h'
    exact ⟨{ hs' with batch := fun c hc => by cases hc; exact hb }, m', rfl, hm'⟩

/-- A batch ends, and `closing` gives its storage back. -/
theorem agrees_endBatch (h : s.Twin p q t) {closing : Local.Batch → Machine → Machine}
    (hclose : ∀ b : Local.Batch, b.Hosted p q → ∀ {m m' : Machine}, m.Twin p q m' →
      (closing b m).Twin p q (closing b m')) :
    (BatchCommand.endBatch closing).Agrees p q (Twin p q) s t (Local.Batch.Hosted p q) := by
  refine agrees_currentBatch_bind h fun b hb => ?_
  obtain ⟨hs, m, rfl, hm⟩ := h
  exact .change_bind (.pure (hs.batch b hb) ⟨{ hs with
    slots := fun e he => hs.slots e (List.mem_filter.mp he).1
    batch := nofun }, _, rfl, hclose b (hs.batch b hb) hm⟩)

theorem agrees_setBatchAside (h : s.Twin p q t) (label : String) :
    (BatchCommand.setBatchAside label).Agrees p q (Twin p q) s t fun _ => True := by
  refine agrees_currentBatch_bind h fun b hb => ?_
  obtain ⟨hs, m, rfl, hm⟩ := h
  refine .change trivial ⟨{ hs with
    slots := fun e he => hs.slots e (List.mem_filter.mp he).1
    batch := nofun
    aside := fun e he => ?_ }, m, rfl, hm⟩
  rcases Named.mem_put he with he | rfl
  · exact hs.aside e he
  · exact ⟨hs.batch b hb, fun i hi => hs.slots i (List.mem_filter.mp hi).1⟩

theorem agrees_resumeBatch (h : s.Twin p q t) (label : String) :
    (BatchCommand.resumeBatch label).Agrees p q (Twin p q) s t fun _ => True := by
  refine agrees_consult_bind h (fun _ => rfl) fun rest hrest => ?_
  obtain ⟨hs, m, rfl, hm⟩ := h
  obtain ⟨hbatch, hinputs⟩ := hs.aside _ (Named.mem_of_lookup (Named.lookup_of_find hrest))
  refine .change trivial ⟨{ hs with
    slots := fun e he => ?_
    batch := fun c hc => by cases hc; exact hbatch
    aside := fun e he => hs.aside e (List.mem_filter.mp he).1 }, m, rfl, hm⟩
  rcases List.mem_append.mp he with he | he
  · exact hs.slots e he
  · exact hinputs e he

/-- Work with requests, batches and responses. -/
theorem agrees_batch (h : s.Twin p q t) {c : BatchCommand}
    (hl : ∀ l ∈ c.locations, p.SameFor q l) :
    c.run.Agrees p q (Twin p q) s t fun _ => ¬ (Command.batch c).AsksForDevice s := by
  have hhost : ∀ {l : Location}, l = .host → l ≠ .device := by
    rintro _ rfl
    exact nofun
  cases c with
  | request id inputs wanted asked =>
    refine .bind (agrees_makeRequest h id inputs wanted
      (fun i hi => hl _ (List.mem_append_left _ (List.mem_map_of_mem hi)))
      fun w hw => hl _ (List.mem_append_right _ (List.mem_map_of_mem hw))) fun r s' t' hr h' =>
        .pure ?_ h'
    rintro ⟨i, hi, hdevice⟩
    exact hhost (hr i hi) hdevice
  | create count settings stream =>
    exact .bind (agrees_openBatch h count settings stream) fun _ _ _ _ h' => .pure id h'
  | describe => exact agrees_consult_bind h (fun _ => rfl) fun _ _ => .pure id h
  | combinedShape name =>
    exact agrees_consult_bind h (fun _ => rfl) fun _ _ => .ofExcept_bind h fun _ _ => .pure id h
  | getInput slot name dtype location device =>
    exact .bind (agrees_onBatch h fun b m _ hx =>
      Local.Batch.agrees_getInput hx (hl _ List.mem_cons_self) name dtype device)
      fun x _ _ hx h' => .change_bind (.pure (hhost hx.1) (h'.store (r := .input x) hx.2 slot))
  | getOutput name dtype shape location device =>
    exact .bind (agrees_onBatch h fun b m _ hx =>
      Local.Batch.agrees_getOutput hx (hl _ List.mem_cons_self) name dtype shape device)
      fun _ _ _ hx h' => .pure (hhost hx.1) h'
  | output name dtype =>
    refine agrees_consult_bind h (fun _ => rfl) fun b _ => ?_
    split
    · exact .pure id h
    · exact .pure id h
  | outputs => exact agrees_consult_bind h (fun _ => rfl) fun _ _ => .pure id h
  | finalize =>
    refine .bind (P := fun _ => ∀ b, s.batch = some b → b.WantsHost) (agrees_onBatch h
      fun b m hb hx => (Local.Batch.agrees_finalize hx).mono fun _ hwants b' hb' => ?_)
      fun _ _ _ hwants h' => .pure ?_ h'
    · cases hb.symm.trans hb'
      exact hwants
    · rintro ⟨b, hb, o, ho, r, hr, device, hplace⟩
      exact nomatch hwants b hb o ho r hr _ hplace
  | takeResponses =>
    refine .bind (agrees_endBatch h fun _ hb _ _ hm => hb.twin_releaseRest hm) fun b s' t' hb h' =>
      .change_bind (.pure id ?_)
    obtain ⟨hs, m, rfl, hm⟩ := h'
    exact ⟨{ hs with kept := hb.responses }, _, rfl,
      hm.foldl fun r hr _ _ hm => Response.OnHost.twin_release (hs.kept r hr) hm⟩
  | drop =>
    exact .bind (agrees_endBatch h fun _ hb _ _ hm => hb.twin_release hm) fun _ _ _ _ h' =>
      .pure id h'
  | setAside label => exact .bind (agrees_setBatchAside h label) fun _ _ _ _ h' => .pure id h'
  | resume label => exact .bind (agrees_resumeBatch h label) fun _ _ _ _ h' => .pure id h'
  | responses =>
    refine .get_bind ?_ (.pure id h)
    obtain ⟨hs, m, rfl, hm⟩ := h
    rfl
  | response index name dtype =>
    refine agrees_consult_bind h (fun _ => rfl) fun r hr => ?_
    split
    · exact .pure id h
    · next o ho =>
      exact .bind (agrees_onMachine h fun hm => Response.agrees_toList hm
        (h.1.onHost_of_responseAt hr o (List.mem_of_find?_eq_some ho)) dtype) fun _ _ _ _ h' =>
          .pure id h'

/-! ## Steps -/

/-- The text of a buffer names the platform. -/
theorem perform_text (h : s.Twin p q t) (place : Place) :
    AlikeOutcomes p q (s.perform (.buffer (.text place))).1 (t.perform (.buffer (.text place))).1 ∧
      (s.perform (.buffer (.text place))).2.Twin p q (t.perform (.buffer (.text place))).2 := by
  have hsame : t.resourceAt place = s.resourceAt place := by
    obtain ⟨-, m, rfl, -⟩ := h
    exact resourceAt_withMachine s m place
  cases hr : s.resourceAt place with
  | error e =>
    rw [show s.perform _ = _ from
        Action.outcome_of_error (Action.bind_of_error (consult_of_error hr)),
      show t.perform _ = _ from
        Action.outcome_of_error (Action.bind_of_error (consult_of_error (hsame.trans hr)))]
    exact ⟨.error (.same e), h⟩
  | ok r =>
    have hs : s.perform (.buffer (.text place)) =
        (.ok (.text (r.text s.machine.platform.name)), s) :=
      Action.outcome_of_ok ((Action.bind_of_ok (consult_of_ok hr)).trans (Action.get_bind _ _))
    have ht : t.perform (.buffer (.text place)) =
        (.ok (.text (r.text t.machine.platform.name)), t) :=
      Action.outcome_of_ok ((Action.bind_of_ok (consult_of_ok (hsame.trans hr))).trans
        (Action.get_bind _ _))
    rw [hs, ht, h.machine.plain.platform, h.machine.plain'.platform]
    exact ⟨.text r, h⟩

/-- A command does the same on both platforms; asked for something on a device it fails. -/
theorem perform (h : s.Twin p q t) {c : Command} (hc : c.Ordinary)
    (hl : ∀ l ∈ c.locations, p.SameFor q l) :
    AlikeOutcomes p q (s.perform c).1 (t.perform c).1 ∧
      (s.perform c).2.Twin p q (t.perform c).2 ∧
      (c.AsksForDevice s → ∃ e e', (s.perform c).1 = .error e ∧ (t.perform c).1 = .error e') := by
  have hrun : c.run.Agrees p q (Twin p q) s t (fun _ => ¬ c.AsksForDevice s) →
      AlikeOutcomes p q (s.perform c).1 (t.perform c).1 ∧
      (s.perform c).2.Twin p q (t.perform c).2 ∧
      (c.AsksForDevice s → ∃ e e', (s.perform c).1 = .error e ∧ (t.perform c).1 = .error e') := by
    intro hagrees
    unfold Session.perform
    rcases hagrees.cases with ⟨r, s', t', hs, ht, hasks, h'⟩ | ⟨e, e', s', t', hs, ht, he, h'⟩
    · rw [Action.outcome_of_ok hs, Action.outcome_of_ok ht]
      exact ⟨.reply r, h', fun h => absurd h hasks⟩
    · rw [Action.outcome_of_error hs, Action.outcome_of_error ht]
      exact ⟨.error he, h', fun _ => ⟨e, e', rfl, rfl⟩⟩
  cases c with
  | buffer c =>
    by_cases htext : ∃ place, c = .text place
    · obtain ⟨place, rfl⟩ := htext
      obtain ⟨halike, h'⟩ := h.perform_text place
      exact ⟨halike, h', nofun⟩
    · exact hrun (h.agrees_buffer hc hl fun place heq => htext ⟨place, heq⟩)
  | platform c =>
    cases c with
    | synchronize stream =>
      exact hrun (.bind (agrees_changeMachine h fun hm => hm.synchronize stream)
        fun _ _ _ _ h' => .pure id h')
    | _ => exact hc.elim
  | batch c => exact hrun (h.agrees_batch hl)
  | side c => exact hc.elim

/-- A step does the same on both platforms. -/
theorem after (h : s.Twin p q t) {step : Step} (hstep : step.Ordinary)
    (hl : ∀ l ∈ step.locations, p.SameFor q l) : (s.after step).Twin p q (t.after step) := by
  cases step with
  | perform c => exact (h.perform hstep hl).2.1
  | dropRequest index =>
    obtain ⟨hs, m, rfl, hm⟩ := h
    simp only [Session.after]
    cases hr : s.requests[index]? with
    | none => exact ⟨hs, m, rfl, hm⟩
    | some r =>
      exact ⟨{ hs with requests := fun x hx => hs.requests x (List.mem_of_mem_eraseIdx hx) }, _,
        rfl, (hs.requests r (List.mem_of_getElem? hr)).twin_release hm⟩
  | dropResponse index =>
    obtain ⟨hs, m, rfl, hm⟩ := h
    simp only [Session.after]
    cases hr : s.kept[index]? with
    | none => exact ⟨hs, m, rfl, hm⟩
    | some r =>
      exact ⟨{ hs with kept := fun x hx => hs.kept x (List.mem_of_mem_eraseIdx hx) }, _, rfl,
        Response.OnHost.twin_release (hs.kept r (List.mem_of_getElem? hr)) hm⟩

/-- So does every sequence of steps. -/
theorem foldl_after (h : s.Twin p q t) {steps : List Step} (hsteps : ∀ step ∈ steps, step.Ordinary)
    (hl : ∀ step ∈ steps, ∀ l ∈ step.locations, p.SameFor q l) :
    (steps.foldl Session.after s).Twin p q (steps.foldl Session.after t) := by
  induction steps generalizing s t with
  | nil => exact h
  | cons step rest ih =>
    obtain ⟨hfirst, hrest⟩ := List.forall_mem_cons.mp hsteps
    obtain ⟨hlfirst, hlrest⟩ := List.forall_mem_cons.mp hl
    exact ih (h.after hfirst hlfirst) hrest hlrest

end Twin

/-! ## Every session -/

/-- Whatever has been done, as long as it was ordinary work and either there are no devices or it
was for the host only: a simulated platform has come to the same session as the host platform, with
everything on the host, with the same contents and the same counts, and nothing waits. The next
command has the same outcome on both, and if something on a device would come of it, it fails. -/
theorem host_work_alike {devices : SimulatedDevices} {device : Nat} {steps : List Step}
    (hsteps : ∀ step ∈ steps, step.Ordinary)
    (hhost : devices.count = 0 ∨ ∀ step ∈ steps, ∀ l ∈ step.locations, l = .host) :
    let s := steps.foldl after (start (.simulated devices) device)
    let t := steps.foldl after (start .host device)
    t = { s with machine := t.machine } ∧
      t.machine.memory = s.machine.memory ∧
      t.machine.stats = s.machine.stats ∧ t.machine.metrics = s.machine.metrics ∧
      List.Forall₂ (Event.Alike (.simulated devices) .host) s.machine.events.toList
        t.machine.events.toList ∧
      s.machine.queues = [] ∧ s.machine.live = [] ∧
      s.Hosted (.simulated devices) .host ∧
      ∀ c : Command, c.Ordinary → (devices.count = 0 ∨ ∀ l ∈ c.locations, l = .host) →
        AlikeOutcomes (.simulated devices) .host (s.perform c).1 (t.perform c).1 ∧
        (c.AsksForDevice s →
          ∃ e e', (s.perform c).1 = .error e ∧ (t.perform c).1 = .error e') := by
  intro s t
  have hsame : ∀ {l : Location}, devices.count = 0 ∨ l = .host →
      (Platform.simulated devices).SameFor .host l := by
    rintro l (hnone | rfl)
    · refine .inr ⟨?_, rfl⟩
      show decide (0 < devices.count) = false
      rw [hnone]
      rfl
    · exact .inl rfl
  have htwin : s.Twin (.simulated devices) .host t :=
    (start_twin _ _ device).foldl_after hsteps fun step hstep l hl =>
      hsame (hhost.imp_right fun h => h step hstep l hl)
  have hnext : ∀ c : Command, c.Ordinary → (devices.count = 0 ∨ ∀ l ∈ c.locations, l = .host) →
      AlikeOutcomes (.simulated devices) .host (s.perform c).1 (t.perform c).1 ∧
      (c.AsksForDevice s →
        ∃ e e', (s.perform c).1 = .error e ∧ (t.perform c).1 = .error e') := fun c hc hl => by
    obtain ⟨halike, -, hfails⟩ := htwin.perform hc fun l hmem =>
      hsame (hl.imp_right fun h => h l hmem)
    exact ⟨halike, hfails⟩
  obtain ⟨hhosted, m, ht, hplain, used, events, hm, hevents⟩ := htwin
  rw [ht, hm] at hnext ⊢
  exact ⟨rfl, rfl, rfl, rfl, hevents, hplain.queues, hplain.live, hhosted, hnext⟩

/-- A session on a platform without devices that asks for them again and again: in vain for a
buffer, for an input of a request and for an input of a batch, and with no harm yet for an output.
-/
def wishful : List Step := [
  .perform (.buffer (.ofList "a" .uint16 [1, 2] .host 0 ⟨1⟩)),
  .perform (.buffer (.copyTo "b" (.slot "a") .device 0)),
  .perform (.batch (.request 1 [⟨"x", .uint8, [2], [3, 4], .host, 0⟩] [⟨"y", .device, 0⟩] [])),
  .perform (.batch (.request 2 [⟨"x", .uint8, [1], [5], .device, 0⟩] [] [])),
  .perform (.batch (.create none {} ⟨1⟩)),
  .perform (.batch (.getInput "in" "x" .uint8 .device 0)),
  .perform (.batch (.getOutput "y" .uint8 [2] .host 0)),
  .perform (.buffer (.poke (.output "y") 0 [6, 7]))]

/-- There are two buffers more than the request stored, both on the host; and the output cannot be
delivered to a device, nor moved there. -/
theorem wishful_alike :
    let s := wishful.foldl after (start (.simulated ⟨0, 64, true⟩) 0)
    let t := wishful.foldl after (start .host 0)
    (∀ step ∈ wishful, step.Ordinary) ∧ s.machine.stats.liveAllocations = 3 ∧
      t.machine.stats = s.machine.stats ∧ s.machine.queues = [] ∧
      (∃ e e', (s.perform (.batch .finalize)).1 = .error e ∧
        (t.perform (.batch .finalize)).1 = .error e') ∧
      AlikeOutcomes (.simulated ⟨0, 64, true⟩) .host (s.perform (.buffer (.text (.slot "a")))).1
        (t.perform (.buffer (.text (.slot "a")))).1 := by
  have hordinary : ∀ step ∈ wishful, step.Ordinary := by
    intro step hstep
    simp only [wishful, List.mem_cons, List.not_mem_nil, or_false] at hstep
    rcases hstep with rfl | rfl | rfl | rfl | rfl | rfl | rfl | rfl <;> trivial
  have hlive : (wishful.foldl after
      (start (.simulated ⟨0, 64, true⟩) 0)).machine.stats.liveAllocations = 3 := by
    decide +kernel
  have hwanted : ((wishful.foldl after (start (.simulated ⟨0, 64, true⟩) 0)).batch.any fun b =>
      b.outputs.any fun o =>
        b.requests.any fun r => r.wants o.name == some (.device, 0)) = true := by
    decide +kernel
  obtain ⟨-, -, hstats, -, -, hqueues, -, -, hnext⟩ :=
    @host_work_alike ⟨0, 64, true⟩ 0 wishful hordinary (.inl rfl)
  generalize wishful.foldl after (start (.simulated ⟨0, 64, true⟩) 0) = s at *
  have hasks : (Command.batch .finalize).AsksForDevice s := by
    cases hb : s.batch with
    | none =>
      rw [hb] at hwanted
      cases hwanted
    | some b =>
      rw [hb, Option.any_some] at hwanted
      obtain ⟨o, ho, hwanted⟩ := List.any_eq_true.mp hwanted
      obtain ⟨r, hr, hwanted⟩ := List.any_eq_true.mp hwanted
      exact ⟨b, hb, o, ho, r, hr, 0, eq_of_beq hwanted⟩
  exact ⟨hordinary, hlive, hstats, hqueues, (hnext (.batch .finalize) trivial (.inl rfl)).2 hasks,
    (hnext (.buffer (.text (.slot "a"))) trivial (.inl rfl)).1⟩

end Session

end DeviceBatch
