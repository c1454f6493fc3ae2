import DeviceBatch.Proofs.Accounting
import DeviceBatch.Proofs.Inputs

/-!
# The life of a batch

A batch is open until it is finalized, and finalized ever after (`Session.lifecycle`). As long as it
is open its outputs are recorded one after the other and its responses are empty; the first finalize
fills the responses from the record, as far as it gets, and then nothing can be got from the batch
any more.

This holds of any session: nothing is assumed of the machine, and a session may do anything to its
buffers between two calls on its batch. Commands other than `getOutput` and `finalize` leave alone
what the calls are about (`Session.KeepsOutline`).
-/

namespace DeviceBatch

open Local

/-- What the calls on a batch are about: its requests, its responses, its state and the names of its
outputs. -/
def Local.Batch.outline (b : Local.Batch) : List Request × List Response × BatchState × List String :=
  (b.requests, b.responses, b.state, b.outputs.map RecordedOutput.name)

namespace Session

variable {α β : Type}

/-! ## Actions that leave the batch alone -/

/-- The outline of the batch in progress. -/
def outline (s : Session) : Option (List Request × List Response × BatchState × List String) :=
  s.batch.map Local.Batch.outline

/-- Whatever comes of the action, the outline of the batch in progress is as it was. -/
def KeepsOutline (act : Action Session α) : Prop :=
  ∀ s, act.Leaves s (fun _ s' => s'.outline = s.outline) fun s' => s'.outline = s.outline

namespace KeepsOutline

variable {act : Action Session α} {f : α → Action Session β}

theorem bind (h : KeepsOutline act) (hf : ∀ a, KeepsOutline (f a)) : KeepsOutline (act >>= f) :=
  fun s => .bind (h s) fun a s' hs' =>
    (hf a s').mono (fun _ _ h => h.trans hs') fun _ h => h.trans hs'

theorem pure (a : α) : KeepsOutline (Pure.pure a : Action Session α) := fun _ => .pure rfl

theorem throw (e : Error) : KeepsOutline (MonadExcept.throw e : Action Session α) :=
  fun _ => .throw rfl

theorem get_bind {f : Session → Action Session β} (hf : ∀ s, KeepsOutline (f s)) :
    KeepsOutline (get >>= f) := fun s => .get_bind (hf s s)

theorem change {f : Session → Session} (hf : ∀ s, (f s).outline = s.outline) :
    KeepsOutline (Action.change f) := fun s => .change (hf s)

theorem ofExcept (x : Except Error α) : KeepsOutline (Action.ofExcept x) :=
  fun _ => .ofExcept (fun _ _ => rfl) rfl

theorem consult (f : Session → Except Error α) : KeepsOutline (Session.consult f) :=
  fun _ => leaves_consult (fun _ _ => rfl) rfl

theorem onMachine (act : Action Machine α) : KeepsOutline (Session.onMachine act) :=
  fun _ => .within (.of_forall (fun _ _ => rfl) fun _ => rfl)

theorem changeMachine (f : Machine → Machine) : KeepsOutline (Session.changeMachine f) :=
  onMachine _

theorem store (name : String) (r : Resource) : KeepsOutline (Session.store name r) :=
  change fun _ => rfl

theorem take (name : String) : KeepsOutline (Session.take name) :=
  (consult _).bind fun r => (change fun _ => rfl).bind fun _ => pure r

theorem bufferAt (place : Place) : KeepsOutline (Session.bufferAt place) :=
  (consult _).bind fun _ => pure _

end KeepsOutline

/-- Another stream for a buffer is nothing that the calls on the batch are about. -/
theorem outline_bindAt (place : Place) (stream : Stream) (s : Session) :
    (bindAt place stream s).outline = s.outline := by
  cases place with
  | slot name =>
    unfold bindAt
    dsimp only
    split <;> rfl
  | output name =>
    unfold bindAt outline
    rw [Option.map_map]
    congr 1
    funext b
    show (_, _, _, (b.outputs.map _).map _) = b.outline
    rw [List.map_map]
    have hname : (RecordedOutput.name ∘ fun o : RecordedOutput =>
        if o.name = name then { o with tensor := o.tensor.withStream stream } else o) =
        RecordedOutput.name := by
      funext o
      show (if o.name = name then _ else o : RecordedOutput).name = o.name
      split <;> rfl
    rw [hname]
    rfl

/-! ## Commands that leave the batch alone -/

theorem keepsOutline_buffer (c : BufferCommand) : KeepsOutline c.run := by
  have hbuffer : ∀ {slot : String} {act : Action Session Buffer}, KeepsOutline act →
      KeepsOutline (BufferCommand.keepBuffer slot act) := fun h =>
    h.bind fun _ => (KeepsOutline.store _ _).bind fun _ => .pure _
  have htensor : ∀ {slot : String} {act : Action Session Tensor}, KeepsOutline act →
      KeepsOutline (BufferCommand.keepTensor slot act) := fun h =>
    h.bind fun _ => (KeepsOutline.store _ _).bind fun _ => .pure _
  cases c with
  | allocate | ofList => exact hbuffer (.onMachine _)
  | copyTo | clone => exact hbuffer (.bind (.bufferAt _) fun _ => .onMachine _)
  | moveTo => exact hbuffer (.bind (.take _) fun _ => .onMachine _)
  | borrow => exact hbuffer (.bind (.bufferAt _) fun _ => .pure _)
  | release => exact .bind (.take _) fun _ => .bind (.changeMachine _) fun _ => .pure _
  | describe => exact .bind (.consult _) fun _ => .pure _
  | text => exact .bind (.consult _) fun _ => .get_bind fun _ => .pure _
  | sameData => exact .bind (.bufferAt _) fun _ => .bind (.bufferAt _) fun _ => .pure _
  | peek | toList => exact .bind (.bufferAt _) fun _ => .bind (.onMachine _) fun _ => .pure _
  | poke => exact .bind (.bufferAt _) fun _ => .bind (.onMachine _) fun _ => .pure _
  | rebind place stream =>
    exact .bind (.bufferAt _) fun _ => .bind (.changeMachine _) fun _ =>
      .bind (.change (outline_bindAt place stream)) fun _ => .pure _
  | copy dst src dstOffset range =>
    refine .bind (.bufferAt _) fun target => .bind (.bufferAt _) fun source => ?_
    refine .bind (fun s => .within (.of_forall (fun _ p => ?_) fun p => ?_)) fun _ =>
      .bind (.bufferAt _) fun _ => .pure _
    · exact outline_bindAt dst p.2.stream { s with machine := p.1 }
    · exact outline_bindAt dst p.2.stream { s with machine := p.1 }
  | allocateTensor => exact htensor (.onMachine _)
  | toTensor => exact htensor (.bind (.take _) fun _ => .onMachine _)
  | toBuffer => exact hbuffer (.bind (.take _) fun _ => .pure _)

theorem keepsOutline_platform (c : PlatformCommand) : KeepsOutline c.run := by
  have hraw : ∀ (raw : String), KeepsOutline (PlatformCommand.rawNamed raw) := fun _ => .consult _
  have hkeep : ∀ (raw : String) (storage : RawStorage),
      KeepsOutline (PlatformCommand.keepRaw raw storage) := fun _ _ =>
    .bind (.change fun _ => rfl) fun _ => .pure _
  cases c with
  | describe | references => exact .get_bind fun _ => .pure _
  | synchronize => exact .bind (.changeMachine _) fun _ => .pure _
  | allocate => exact .bind (.onMachine _) fun _ => hkeep _ _
  | deallocate => exact .bind (hraw _) fun _ => .bind (.onMachine _) fun _ => .pure _
  | storageOf => exact .bind (.bufferAt _) fun _ => hkeep _ _
  | write => exact .bind (hraw _) fun _ => .bind (.changeMachine _) fun _ => .pure _
  | read => exact .bind (hraw _) fun _ => .get_bind fun _ => .pure _
  | copy =>
    exact .bind (hraw _) fun _ => .bind (hraw _) fun _ => .bind (.onMachine _) fun _ => .pure _
  | retain => exact .bind (.changeMachine _) fun _ => .get_bind fun _ => .pure _

theorem keepsOutline_side (c : SideCommand) : KeepsOutline c.run := by
  have hgather : ∀ {α : Type} (act : Action (Machine × Gather) α),
      KeepsOutline (SideCommand.onGather act) := fun act => .get_bind fun s => by
    cases s.gather with
    | none => exact .throw _
    | some gather => exact fun _ => .within (.of_forall (fun _ _ => rfl) fun _ => rfl)
  have hscatter : ∀ {α : Type} (act : Action (Machine × Scatter × List Response) α),
      KeepsOutline (SideCommand.onScatter act) := fun act => .get_bind fun s => by
    cases s.scatter with
    | none => exact .throw _
    | some scatter => exact fun _ => .within (.of_forall (fun _ _ => rfl) fun _ => rfl)
  have hdrop : ∀ s, (SideCommand.dropGather s).outline = s.outline := fun s => by
    unfold SideCommand.dropGather
    split <;> rfl
  cases c with
  | openGather => exact .bind (.change fun s => hdrop s) fun _ => .pure _
  | collect => exact .get_bind fun _ => hgather _
  | closeGather => exact .bind (.change hdrop) fun _ => .pure _
  | openScatter => exact .bind (.change fun _ => rfl) fun _ => .get_bind fun _ => .pure _
  | process =>
    exact .bind (.bufferAt _) fun _ => .get_bind fun _ => .bind (hscatter _) fun _ => .pure _
  | finishScatter => exact .bind (hscatter _) fun _ => .pure _

end Session

namespace BatchCommand

open Session

/-- The command is a call on the batch in progress, which has to be open for it. -/
def isCall : BatchCommand → Bool
  | combinedShape _ | getInput .. | getOutput .. | output .. | outputs | finalize => true
  | _ => false

/-- Another batch, or none, is in progress afterwards. -/
def endsTurn : BatchCommand → Bool
  | create .. | takeResponses | drop | setAside _ | resume _ => true
  | _ => false

/-- The command records an output or finalizes. -/
def changesOutline : BatchCommand → Bool
  | getOutput .. | finalize => true
  | _ => false

/-- How a call on a finalized batch is rejected. -/
def rejection : BatchCommand → Error
  | finalize => .doubleFinalize
  | _ => .batchFinalized

theorem keepsOutline_onBatch {α : Type} {act : Action (Machine × Local.Batch) α}
    (hact : ∀ p, act.Leaves p (fun _ q => q.2 = { p.2 with held := q.2.held })
      fun q => q.2 = { p.2 with held := q.2.held }) : KeepsOutline (onBatch act) := by
  intro s
  have hback : ∀ {b b' : Local.Batch} {m : Machine}, s.batch = some b →
      b' = { b with held := b'.held } →
      ({ s with machine := m, batch := some b' } : Session).outline = s.outline := by
    intro b b' m hb heq
    unfold outline
    rw [hb, heq]
    rfl
  refine leaves_consult_bind rfl fun b hb => ?_
  have hbatch := currentBatch_eq_ok hb
  exact .within ((hact _).mono (fun _ _ h => hback hbatch h) fun _ h => hback hbatch h)

/-- All other commands leave alone what the calls on the batch in progress are about. -/
theorem keepsOutline (c : BatchCommand) (hturn : c.endsTurn = false)
    (hc : c.changesOutline = false) : KeepsOutline c.run := by
  cases c with
  | request =>
    refine .bind (.bind (.onMachine _) fun _ => .bind (.change fun _ => rfl) fun _ => .pure _)
      fun _ => .pure _
  | describe => exact .bind (.consult _) fun _ => .pure _
  | combinedShape => exact .bind (.consult _) fun _ => .bind (.ofExcept _) fun _ => .pure _
  | getInput slot name dtype location device =>
    exact .bind (keepsOutline_onBatch (Local.Batch.leaves_getInput name dtype location device))
      fun _ => .bind (.store _ _) fun _ => .pure _
  | output name =>
    refine .bind (.consult _) fun b => ?_
    split <;> exact .pure _
  | outputs => exact .bind (.consult _) fun _ => .pure _
  | responses => exact .get_bind fun _ => .pure _
  | response index name =>
    refine .bind (.consult _) fun r => ?_
    split
    · exact .pure _
    · exact .bind (.onMachine _) fun _ => .pure _
  | create | takeResponses | drop | setAside | resume => cases hturn
  | getOutput | finalize => cases hc

end BatchCommand

namespace Command

/-- The batch in progress stays in progress. -/
def keepsTurn : Command → Bool
  | batch c => !c.endsTurn
  | _ => true

end Command

namespace Session

/-- The name of the output that a command recorded, if it did. -/
def recordedBy : Command → Except Error Reply → List String
  | .batch (.getOutput name ..), .ok _ => [name]
  | _, _ => []

/-- The names of the outputs that several commands recorded, in order. -/
def recorded (cs : List Command) (outcomes : List (Except Error Reply)) : List String :=
  (List.zipWith recordedBy cs outcomes).flatten

end Session

/-! ## A batch on its way -/

namespace Local.Batch

/-- A batch at any time of its life: the responses are those of its requests, no two outputs have
the same name, and the responses have some of the outputs in their order, but none before the batch
is finalized. -/
structure Regular (b : Local.Batch) : Prop where
  ids : b.responses.map Response.request = b.requests.map Request.id
  distinct : (b.outputs.map RecordedOutput.name).Nodup
  unfilled : b.state = .opened → ∀ r ∈ b.responses, r.outputs = []
  filled : ∀ r ∈ b.responses,
    (r.outputs.map DeliveredOutput.name).Sublist (b.outputs.map RecordedOutput.name)

/-- What a batch has become after commands with these outcomes. -/
structure Follows (b : Local.Batch) (cs : List Command) (outcomes : List (Except Error Reply))
    (b' : Local.Batch) : Prop where
  requests : b'.requests = b.requests
  state : b'.state = if .batch .finalize ∈ cs then .finalized else b.state
  record : b'.outputs.map RecordedOutput.name =
    b.outputs.map RecordedOutput.name ++ Session.recorded cs outcomes

variable {b b' b'' : Local.Batch} {c : Command} {cs : List Command} {outcome : Except Error Reply}
  {outcomes : List (Except Error Reply)}

theorem Follows.refl (b : Local.Batch) : b.Follows [] [] b :=
  ⟨rfl, rfl, (List.append_nil _).symm⟩

theorem Follows.cons (h : b.Follows [c] [outcome] b') (h' : b'.Follows cs outcomes b'') :
    b.Follows (c :: cs) (outcome :: outcomes) b'' where
  requests := h'.requests.trans h.requests
  state := by
    rw [h'.state, h.state]
    by_cases hc : c = .batch .finalize
    · subst hc
      rw [if_pos List.mem_cons_self, if_pos List.mem_cons_self, ite_self]
    · have hmem : Command.batch .finalize ∈ c :: cs ↔ Command.batch .finalize ∈ cs :=
        List.mem_cons.trans (or_iff_right (Ne.symm hc))
      rw [if_neg (mt List.mem_singleton.mp (Ne.symm hc))]
      simp only [hmem]
  record := by
    rw [h'.record, h.record, List.append_assoc]
    show _ ++ ((Session.recordedBy c outcome ++ []) ++ _) = _
    rw [List.append_nil]
    rfl

/-- With the same outline a batch is as far as it was. -/
theorem Regular.of_outline (h : b.Regular) (hout : b'.outline = b.outline)
    (hc : c ≠ .batch .finalize) (hrec : Session.recordedBy c outcome = []) :
    b'.Regular ∧ b.Follows [c] [outcome] b' := by
  obtain ⟨requests, responses, held, outputs, stream, state⟩ := b
  obtain ⟨requests', responses', held', outputs', stream', state'⟩ := b'
  obtain ⟨rfl, rfl, rfl, hnames⟩ : requests' = requests ∧ responses' = responses ∧
      state' = state ∧ outputs'.map RecordedOutput.name = outputs.map RecordedOutput.name := by
    simpa [outline] using hout
  refine ⟨⟨h.ids, hnames ▸ h.distinct, h.unfilled, fun r hr => ?_⟩, rfl, ?_, ?_⟩
  · have hsub := h.filled r hr
    dsimp only at hsub ⊢
    rw [hnames]
    exact hsub
  · rw [if_neg (mt List.mem_singleton.mp (Ne.symm hc))]
  · show _ = _ ++ (Session.recordedBy c outcome ++ [])
    rw [hrec, List.append_nil]
    exact (List.append_nil _).symm ▸ hnames

/-- One more output in the record. -/
theorem Regular.record (h : b.Regular) {name : String} {t : Tensor} {dtype : ElementType}
    {shape : Shape} {location : Location} {device : Nat} {reply : Reply}
    (hnew : name ∉ b.outputs.map RecordedOutput.name) :
    Regular { b with outputs := b.outputs ++ [⟨name, t⟩] } ∧
      b.Follows [.batch (.getOutput name dtype shape location device)] [.ok reply]
        { b with outputs := b.outputs ++ [⟨name, t⟩] } := by
  have hnames : (b.outputs ++ [RecordedOutput.mk name t]).map RecordedOutput.name =
      b.outputs.map RecordedOutput.name ++ [name] := List.map_append
  refine ⟨⟨h.ids, ?_, h.unfilled, fun r hr => ?_⟩, rfl, ?_, hnames⟩
  · dsimp only
    rw [hnames]
    exact List.nodup_append.mpr ⟨h.distinct, List.nodup_singleton _, fun x hx y hy heq =>
      hnew (List.mem_singleton.mp hy ▸ heq ▸ hx)⟩
  · dsimp only
    rw [hnames]
    exact (h.filled r hr).trans (List.sublist_append_left _ _)
  · have hother : Command.batch .finalize ∉
        [Command.batch (.getOutput name dtype shape location device)] := by simp
    exact (if_neg hother).symm

/-- An open batch is finalized. -/
theorem Regular.close (h : b.Regular) (hopen : b.state = .opened) (hclosed : b.Closed b')
    (outcome : Except Error Reply) :
    b'.Regular ∧ b.Follows [.batch .finalize] [outcome] b' := by
  obtain ⟨heq, hfilled⟩ := hclosed
  have hrequests : b'.requests = b.requests := by rw [heq]
  have houtputs : b'.outputs = b.outputs := by rw [heq]
  have hstate : b'.state = .finalized := by rw [heq]
  refine ⟨⟨?_, ?_, fun hopen' => ?_, fun r' hr' => ?_⟩, hrequests, ?_, ?_⟩
  · rw [hfilled.map_request, hrequests]
    exact h.ids
  · rw [houtputs]
    exact h.distinct
  · cases hstate.symm.trans hopen'
  · obtain ⟨i, hi⟩ := List.mem_iff_getElem?.mp hr'
    obtain ⟨r, added, hr, rfl, hsub⟩ := hfilled.2 i r' hi
    rw [h.unfilled hopen r (List.mem_of_getElem? hr), List.nil_append, houtputs]
    exact hsub
  · rw [if_pos List.mem_cons_self, hstate]
  · rw [houtputs]
    exact (List.append_nil _).symm

theorem regular_opening (requests : List Request) (settings : BatchSettings) (stream : Stream) :
    (opening requests settings stream).Regular where
  ids := by
    unfold opening
    rw [List.map_map]
    rfl
  distinct := List.nodup_nil
  unfilled _ r hr := outputs_of_mem_empty hr
  filled r hr := by
    rw [outputs_of_mem_empty hr]
    exact List.nil_sublist _

end Local.Batch

/-! ## Commands one after the other -/

namespace Session

variable {s s' : Session} {b b' : Local.Batch}

theorem eq_withBatch (hb : s.batch = some b) :
    ({ s with machine := s.machine, batch := some b } : Session) = s := by
  rw [← hb]

theorem leaves_onBatch {α : Type} {act : Action (Machine × Local.Batch) α} {P : Local.Batch → Prop}
    (hb : s.batch = some b) (hact : act.Leaves (s.machine, b) (fun _ q => P q.2) fun q => P q.2) :
    (onBatch act).Leaves s (fun _ s' => ∃ b', s'.batch = some b' ∧ P b')
      fun s' => ∃ b', s'.batch = some b' ∧ P b' := by
  unfold Action.Leaves at hact ⊢
  cases hrun : act (s.machine, b) with
  | ok a q =>
    rw [hrun] at hact
    rw [onBatch_of_ok hb hrun]
    exact ⟨q.2, rfl, hact⟩
  | error e q =>
    rw [hrun] at hact
    rw [onBatch_of_error hb hrun]
    exact ⟨q.2, rfl, hact⟩

/-- A new output is put at the end of the record, or there is none and nothing happens at all. -/
theorem perform_getOutput (hb : s.batch = some b) (name : String) (dtype : ElementType)
    (shape : Shape) (location : Location) (device : Nat) :
    (∃ e, s.perform (.batch (.getOutput name dtype shape location device)) = (.error e, s)) ∨
    ∃ t m, name ∉ b.outputs.map RecordedOutput.name ∧ b.state = .opened ∧
      s.perform (.batch (.getOutput name dtype shape location device)) =
        (.ok (.tensor t), { s with
          machine := m
          batch := some { b with outputs := b.outputs ++ [⟨name, t⟩] } }) := by
  rcases Local.Batch.getOutput_adds name dtype shape location device b s.machine with
    ⟨e, he⟩ | ⟨t, m, hnew, hopen, hrun⟩
  · refine .inl ⟨e, (Action.outcome_of_error
      (Action.bind_of_error (onBatch_of_error hb he))).trans ?_⟩
    rw [eq_withBatch hb]
  · exact .inr ⟨t, m, hnew, hopen,
      Action.outcome_of_ok (Action.bind_of_ok (onBatch_of_ok hb hrun))⟩

/-- A call on a finalized batch is rejected, and nothing happens at all. -/
theorem perform_of_finalized (hb : s.batch = some b) (hfinal : b.state = .finalized)
    {c : BatchCommand} (hc : c.isCall) : s.perform (.batch c) = (.error c.rejection, s) := by
  have hensure : b.ensureOpen = .error .batchFinalized :=
    DeviceBatch.Batch.ensureOpen_eq_error.mpr ⟨hfinal, rfl⟩
  have hshape : ∀ name, b.combinedShape exchange name = .error .batchFinalized := fun _ =>
    DeviceBatch.Batch.combinedShape_of_finalized hfinal
  have hopened : BatchCommand.openedBatch s = .error .batchFinalized := by
    unfold BatchCommand.openedBatch
    rw [currentBatch_of_some hb]
    show (b.ensureOpen.bind fun _ => Except.ok b) = _
    rw [hensure]
    rfl
  have hback : ∀ {α : Type} {act : Action (Machine × Local.Batch) α} {e : Error},
      act (s.machine, b) = .error e (s.machine, b) → onBatch act s = .error e s := fun h => by
    rw [onBatch_of_error hb h, eq_withBatch hb]
  cases c with
  | combinedShape name =>
    exact Action.outcome_of_error ((Action.bind_of_ok (consult_of_ok (currentBatch_of_some hb))).trans
      (Action.ofExcept_bind_of_error (hshape name) _ _))
  | getInput slot name dtype location device =>
    exact Action.outcome_of_error (Action.bind_of_error
      (hback (Action.ofExcept_bind_of_error (hshape name) _ _)))
  | getOutput name dtype shape location device =>
    exact Action.outcome_of_error (Action.bind_of_error
      (hback (Action.ofExcept_bind_of_error hensure _ _)))
  | output name dtype =>
    exact Action.outcome_of_error (Action.bind_of_error (consult_of_error hopened))
  | outputs => exact Action.outcome_of_error (Action.bind_of_error (consult_of_error hopened))
  | finalize =>
    refine Action.outcome_of_error (Action.bind_of_error (hback ?_))
    unfold DeviceBatch.Batch.finalize
    simp only [hfinal]
    rfl
  | _ => cases hc

/-- What one command makes of the batch in progress. -/
theorem regular_perform (hb : s.batch = some b) (hreg : b.Regular) {c : Command}
    (hc : c.keepsTurn) :
    ∃ b', (s.perform c).2.batch = some b' ∧ b'.Regular ∧ b.Follows [c] [(s.perform c).1] b' := by
  have hsame : ∀ {act : Action Session Reply}, KeepsOutline act → c ≠ .batch .finalize →
      recordedBy c (act.outcome s).1 = [] → ∃ b', (act.outcome s).2.batch = some b' ∧ b'.Regular ∧
        b.Follows [c] [(act.outcome s).1] b' := by
    intro act hact hfin hrec
    have hout : (act.outcome s).2.outline = s.outline := (hact s).outcome
    unfold outline at hout
    rw [hb, Option.map_some] at hout
    obtain ⟨b', hb', heq⟩ := Option.map_eq_some_iff.mp hout
    exact ⟨b', hb', hreg.of_outline heq hfin hrec⟩
  cases c with
  | buffer c => exact hsame (keepsOutline_buffer c) nofun rfl
  | platform c => exact hsame (keepsOutline_platform c) nofun rfl
  | side c => exact hsame (keepsOutline_side c) nofun rfl
  | batch c =>
    by_cases hchanges : c.changesOutline
    · cases c with
      | getOutput name dtype shape location device =>
        rcases perform_getOutput hb name dtype shape location device with
          ⟨e, he⟩ | ⟨t, m, hnew, -, hrun⟩
        · rw [he]
          exact ⟨b, hb, hreg.of_outline rfl nofun rfl⟩
        · rw [hrun]
          exact ⟨_, rfl, hreg.record hnew⟩
      | finalize =>
        cases hstate : b.state with
        | opened =>
          obtain ⟨b', hb', hclosed⟩ := Action.Leaves.outcome
            (Q := fun s' : Session => ∃ b', s'.batch = some b' ∧ b.Closed b')
            (.bind (leaves_onBatch hb (Local.Batch.closed_finalize hstate)) fun _ _ h => .pure h)
          exact ⟨b', hb', hreg.close hstate hclosed _⟩
        | finalized =>
          rw [perform_of_finalized hb hstate (c := .finalize) rfl]
          refine ⟨b, hb, hreg, rfl, ?_, (List.append_nil _).symm⟩
          rw [if_pos List.mem_cons_self, hstate]
      | _ => cases hchanges
    · have hturn : c.endsTurn = false := Bool.eq_false_iff.mpr fun h => by
        simp [Command.keepsTurn, h] at hc
      refine hsame (c.keepsOutline hturn (Bool.eq_false_iff.mpr hchanges)) ?_ ?_
      · rintro heq
        cases heq
        exact hchanges rfl
      · cases c with
        | getOutput => exact absurd rfl hchanges
        | _ => rfl

/-- What several commands make of it. -/
theorem regular_performAll {cs : List Command} (hb : s.batch = some b) (hreg : b.Regular)
    (hcs : ∀ c ∈ cs, c.keepsTurn) :
    ∃ b', (s.performAll cs).2.batch = some b' ∧ b'.Regular ∧
      b.Follows cs (s.performAll cs).1 b' := by
  induction cs generalizing s b with
  | nil => exact ⟨b, hb, hreg, .refl b⟩
  | cons c cs ih =>
    obtain ⟨b₁, hb₁, hreg₁, hfollows⟩ := regular_perform hb hreg (hcs c List.mem_cons_self)
    obtain ⟨b', hb', hreg', hrest⟩ := ih hb₁ hreg₁ fun c h => hcs c (List.mem_cons_of_mem _ h)
    exact ⟨b', hb', hreg', hfollows.cons hrest⟩

/-- A batch that was created has all its life before it. -/
theorem batch_of_create {count : Option Nat} {settings : BatchSettings} {stream : Stream}
    (h : (s.perform (.batch (.create count settings stream))).1.isOk) :
    (s.perform (.batch (.create count settings stream))).2.batch = some (Local.Batch.opening
      (s.requests.take (count.getD s.requests.length)) settings stream) := by
  rcases s.perform_create count settings stream with ⟨e, -, he⟩ | ⟨-, hrun⟩
  · rw [he] at h
    cases h
  · rw [hrun]

/-- The life of a batch, whatever is called on it and whatever comes of the calls. The batch is open
until it is finalized for the first time. There is a response to each request. The record holds the
outputs that were given out, in order and each name once; a call that gives out none leaves the
whole session as it is. The responses are empty until the batch is finalized and then have some of
the outputs, in order; from then on each call is rejected and leaves the whole session as it is. -/
theorem lifecycle {s₀ : Session} {count : Option Nat} {settings : BatchSettings} {stream : Stream}
    (hcreate : (s₀.perform (.batch (.create count settings stream))).1.isOk)
    {cs : List Command} (hcs : ∀ c ∈ cs, c.keepsTurn) :
    let s₁ := (s₀.perform (.batch (.create count settings stream))).2
    let outcomes := (s₁.performAll cs).1
    let s := (s₁.performAll cs).2
    ∃ b, s.batch = some b ∧
      b.requests = s₀.requests.take (count.getD s₀.requests.length) ∧
      b.state = (if .batch .finalize ∈ cs then .finalized else .opened) ∧
      b.responses.map Response.request = b.requests.map Request.id ∧
      b.outputs.map RecordedOutput.name = recorded cs outcomes ∧
      (b.outputs.map RecordedOutput.name).Nodup ∧
      (.batch .finalize ∉ cs → ∀ r ∈ b.responses, r.outputs = []) ∧
      (∀ r ∈ b.responses, (r.outputs.map DeliveredOutput.name).Nodup ∧
        (r.outputs.map DeliveredOutput.name).Sublist (b.outputs.map RecordedOutput.name)) ∧
      (∀ name dtype shape location device,
        (∃ e, s.perform (.batch (.getOutput name dtype shape location device)) = (.error e, s)) ∨
        ∃ t m, s.perform (.batch (.getOutput name dtype shape location device)) =
          (.ok (.tensor t), { s with
            machine := m
            batch := some { b with outputs := b.outputs ++ [⟨name, t⟩] } })) ∧
      (.batch .finalize ∈ cs → ∀ c : BatchCommand, c.isCall →
        s.perform (.batch c) = (.error c.rejection, s)) := by
  intro s₁ outcomes s
  obtain ⟨b, hb, hreg, hfollows⟩ := regular_performAll (batch_of_create hcreate)
    (Local.Batch.regular_opening _ settings stream) hcs
  have hstate : b.state = if .batch .finalize ∈ cs then .finalized else .opened := hfollows.state
  refine ⟨b, hb, hfollows.requests, hstate, hreg.ids, hfollows.record, hreg.distinct, fun hno => ?_,
    fun r hr => ⟨(hreg.filled r hr).nodup hreg.distinct, hreg.filled r hr⟩,
    fun name dtype shape location device => ?_, fun hfin c hc => ?_⟩
  · exact hreg.unfilled (hstate.trans (if_neg hno))
  · rcases perform_getOutput hb name dtype shape location device with h | ⟨t, m, -, -, hrun⟩
    · exact .inl h
    · exact .inr ⟨t, m, hrun⟩
  · exact perform_of_finalized hb (hstate.trans (if_pos hfin)) hc

/-- A name that was given out already, an output and an input that there is nothing for, an output
with more rows than the request, and calls on a batch that is finalized. -/
def mishaps : List Command := [
  .batch (.getOutput "y" .uint8 [1] .host 0),
  .batch (.getOutput "y" .uint8 [1] .host 0),
  .batch (.getOutput "z" .uint8 [100] .device 0),
  .batch (.getInput "in" "x" .uint8 .host 0),
  .batch (.getOutput "w" .uint8 [3] .host 0),
  .batch .finalize,
  .batch .finalize,
  .batch (.getOutput "v" .uint8 [1] .host 0)]

/-- The finalize failed at the second output. -/
theorem mishaps_lifecycle :
    let s₀ := ((start (.simulated ⟨1, 64, true⟩) 0).performAll
      [.batch (.request 7 [] [⟨"w", .host, 0⟩, ⟨"y", .device, 0⟩] [])]).2
    let s₁ := (s₀.perform (.batch (.create none {} .standard))).2
    let s := (s₁.performAll mishaps).2
    (s₀.perform (.batch (.create none {} .standard))).1.isOk ∧
      (∀ c ∈ mishaps, c.keepsTurn) ∧
      ((s₁.performAll mishaps).1.map fun x => x.isOk) =
        [true, false, false, false, true, false, false, false] ∧
      s.perform (.batch .finalize) = (.error .doubleFinalize, s) := by
  have hcreate : (((start (.simulated ⟨1, 64, true⟩) 0).performAll
      [.batch (.request 7 [] [⟨"w", .host, 0⟩, ⟨"y", .device, 0⟩] [])]).2.perform
        (.batch (.create none {} .standard))).1.isOk := by decide +kernel
  have hcs : ∀ c ∈ mishaps, c.keepsTurn := by decide
  obtain ⟨b, -, -, -, -, -, -, -, -, -, hrejected⟩ := lifecycle hcreate hcs
  exact ⟨hcreate, hcs, by decide +kernel, hrejected (by decide) .finalize rfl⟩

end Session

end DeviceBatch
