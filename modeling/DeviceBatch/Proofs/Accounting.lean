import DeviceBatch.Proofs.Endings
import DeviceBatch.Proofs.Owning

/-!
# No storage is lost

A session owns storage through what has a name on it. In every session, whatever its commands are
given and wherever they fail, the books of the machine say exactly what the session owns and what
its streams keep (`Session.Accounted`): buffers may be borrowed, copies may go astray, host storage
may be dropped under a waiting copy. Once nothing is owned and every stream has been waited for,
nothing is left (`Session.storage_accounted`).

All that is asked of a session is that names are not given twice, and that storage is not asked for
or given back past all buffers (`Command.Fresh`).
-/

namespace DeviceBatch

open Local

/-! ## What a session owns -/

def Resource.owned (r : Resource) : Multiset Allocation := r.data.owned

def RestingBatch.owned (rest : RestingBatch) : Multiset Allocation := rest.batch.owned

namespace Named

variable {α : Type} {own : α → Multiset Allocation} {things : Named α} {name : String} {a : α}

/-- What several things own. -/
def owned (own : α → Multiset Allocation) (things : Named α) : Multiset Allocation :=
  (things.map fun p => own p.2).sum

theorem owned_append (things others : Named α) :
    owned own (things ++ others) = owned own things + owned own others := by
  unfold owned
  rw [List.map_append, List.sum_append]

theorem owned_remove (h : things.lookup name = some a) (hn : (things.map Prod.fst).Nodup) :
    owned own things = own a + owned own (things.remove name) :=
  ((perm_remove h hn).map _).sum_eq

theorem owned_put (things : Named α) (name : String) (a : α) :
    owned own (things.put name a) = own a + owned own (things.remove name) := by
  unfold put
  rw [owned_append, add_comm]
  exact congrArg (· + _) (add_zero (own a))

/-- Things that own nothing do not count. -/
theorem owned_filter {q : String × α → Bool} (h : ∀ p ∈ things, q p = false → own p.2 = 0) :
    owned own (things.filter q) = owned own things := by
  induction things with
  | nil => rfl
  | cons p rest ih =>
    have hrest := ih fun p' hp' => h p' (List.mem_cons_of_mem _ hp')
    unfold owned at hrest ⊢
    cases hq : q p with
    | true => rw [List.filter_cons_of_pos hq, List.map_cons, List.map_cons, List.sum_cons,
        List.sum_cons, hrest]
    | false => rw [List.filter_cons_of_neg (by rw [hq]; exact Bool.false_ne_true), List.map_cons,
        List.sum_cons, h p List.mem_cons_self hq, zero_add, hrest]

end Named

namespace Session

variable {s s' : Session} {A B : Multiset Allocation} {m : Machine} {α : Type} {slot : String}
  {place : Place}

/-- All storage that goes with something in the session. -/
def owned (s : Session) : Multiset Allocation :=
  Named.owned Resource.owned s.slots + ((s.requests.map Request.owned).sum +
    (s.batch.elim 0 Local.Batch.owned + (Named.owned RestingBatch.owned s.aside +
      ((s.kept.map Response.owned).sum + s.gather.elim 0 Gather.owned))))

section Parts

-- What one part of a session owns, and what the session would own without that part.

variable (s)

theorem owned_eq_slots :
    s.owned = Named.owned Resource.owned s.slots + owned { s with slots := [] } := by
  unfold owned
  simp only [Named.owned, List.map_nil, List.sum_nil]
  abel

theorem owned_eq_requests :
    s.owned = (s.requests.map Request.owned).sum + owned { s with requests := [] } := by
  unfold owned
  simp only [List.map_nil, List.sum_nil]
  abel

theorem owned_eq_batch :
    s.owned = s.batch.elim 0 Local.Batch.owned + owned { s with batch := none } := by
  unfold owned
  simp only [Option.elim_none]
  abel

theorem owned_eq_kept :
    s.owned = (s.kept.map Response.owned).sum + owned { s with kept := [] } := by
  unfold owned
  simp only [List.map_nil, List.sum_nil]
  abel

theorem owned_eq_gather :
    s.owned = s.gather.elim 0 Gather.owned + owned { s with gather := none } := by
  unfold owned
  simp only [Option.elim_none]
  abel

end Parts

/-- The machine accounts for what the session owns and for `A`, which is in other hands for the
moment. -/
structure Accounted (s : Session) (A : Multiset Allocation) : Prop where
  machine : s.machine.Accounts (A + s.owned)
  names : (s.slots.map Prod.fst).Nodup
  labels : (s.aside.map Prod.fst).Nodup
  /-- Inputs of a batch own nothing. -/
  inputs : ∀ p ∈ s.slots, p.2.isInput = true → p.2.owned = 0
  resting : ∀ p ∈ s.aside, (p.2.inputs.map Prod.fst).Nodup ∧
    ∀ q ∈ p.2.inputs, q.2.isInput = true ∧ q.2.owned = 0

/-- Whatever comes of the action, the session accounts for all storage. -/
def Balances (s : Session) (act : Action Session α) : Prop :=
  act.Leaves s (fun _ s' => s'.Accounted 0) fun s' => s'.Accounted 0

theorem accounted_start (platform : Platform) (device : Nat) :
    (start platform device).Accounted 0 where
  machine := .start platform
  names := List.nodup_nil
  labels := List.nodup_nil
  inputs := fun _ hp => absurd hp List.not_mem_nil
  resting := fun _ hp => absurd hp List.not_mem_nil

/-! ## Working on parts -/

theorem leaves_consult {f : Session → Except Error α} {P : α → Session → Prop}
    {Q : Session → Prop} (hok : ∀ a, f s = .ok a → P a s) (h : Q s) :
    (consult f).Leaves s P Q := by
  unfold Action.Leaves
  cases hf : f s with
  | ok a => rw [consult_of_ok hf]; exact hok a hf
  | error e => rw [consult_of_error hf]; exact h

theorem leaves_consult_bind {β : Type} {f : Session → Except Error α} {g : α → Action Session β}
    {P : β → Session → Prop} {Q : Session → Prop} (h : Q s)
    (hok : ∀ a, f s = .ok a → (g a).Leaves s P Q) : (consult f >>= g).Leaves s P Q :=
  .bind (P := fun a s' => s' = s ∧ f s = .ok a) (leaves_consult (fun _ ha => ⟨rfl, ha⟩) h)
    fun a _ hs => hs.1 ▸ hok a hs.2

namespace Accounted

/-- The same names, but perhaps another machine and other storage. -/
theorem of_names (h : s.Accounted A) (hm : s'.machine.Accounts (B + s'.owned))
    (hslots : s'.slots = s.slots) (haside : s'.aside = s.aside) : s'.Accounted B where
  machine := hm
  names := by rw [hslots]; exact h.names
  labels := by rw [haside]; exact h.labels
  inputs := by rw [hslots]; exact h.inputs
  resting := by rw [haside]; exact h.resting

theorem withMachine (h : s.Accounted A) (hm : m.Accounts (B + s.owned)) :
    ({ s with machine := m } : Session).Accounted B := h.of_names hm rfl rfl

/-- What an action on the machine answers with is in the hands of the caller. -/
theorem onMachine {act : Action Machine α} {own : α → Multiset Allocation} (h : s.Accounted A)
    (hact : act.Leaves s.machine (fun a m => m.Accounts (own a + s.owned)) (·.Accounts s.owned)) :
    (Session.onMachine act).Leaves s (fun a s' => s'.Accounted (own a)) (·.Accounted 0) :=
  .within (hact.mono (fun _ _ hm => h.withMachine hm) fun _ hm =>
    h.withMachine ((zero_add s.owned).symm ▸ hm))

/-- The same where the caller has a slot for it. -/
theorem makes {act : Action Machine α} {own : α → Multiset Allocation} (h : s.Accounted A)
    (hact : act.Leaves s.machine (fun a m => m.Accounts (own a + s.owned)) (·.Accounts s.owned))
    (hfree : s.Free slot) :
    (Session.onMachine act).Leaves s (fun a s' => s'.Accounted (own a) ∧ s'.Free slot)
      (·.Accounted 0) :=
  .within (hact.mono (fun _ _ hm => ⟨h.withMachine hm, hfree⟩) fun _ hm =>
    h.withMachine ((zero_add s.owned).symm ▸ hm))

theorem machine_zero (h : s.Accounted 0) : s.machine.Accounts s.owned :=
  zero_add s.owned ▸ h.machine

/-- An action on the machine that answers with nothing that owns storage. -/
theorem balances_onMachine {act : Action Machine α} (h : s.Accounted A)
    (hact : act.Leaves s.machine (fun _ m => m.Accounts s.owned) (·.Accounts s.owned)) :
    s.Balances (Session.onMachine act) :=
  .within (hact.mono (fun _ _ hm => h.withMachine ((zero_add s.owned).symm ▸ hm)) fun _ hm =>
    h.withMachine ((zero_add s.owned).symm ▸ hm))

/-- Something new in a slot that is free. -/
theorem store {r : Resource} (h : s.Accounted r.owned) (hfree : s.Free slot)
    (hi : r.isInput = true → r.owned = 0) :
    ({ s with slots := s.slots.put slot r } : Session).Accounted 0 where
  machine := by
    have hm := h.machine
    rw [owned_eq_slots] at hm ⊢
    rw [Named.owned_put, Named.remove_eq_self hfree, add_assoc, zero_add]
    exact hm
  names := Named.nodup_put h.names slot r
  labels := h.labels
  inputs p hp := by
    rcases Named.mem_put hp with hp | rfl
    · exact h.inputs p hp
    · exact hi
  resting := h.resting

/-- What is taken out of a slot is in the hands of the caller. -/
theorem take (h : s.Accounted 0) (slot : String) :
    (take slot).Leaves s (fun r s' => s'.Accounted r.owned ∧ s' = BufferCommand.emptied s slot)
      (·.Accounted 0) := by
  refine leaves_consult_bind h fun r hr => .change_bind (.pure ⟨?_, rfl⟩)
  exact {
    machine := by
      have hm := h.machine
      rw [owned_eq_slots, Named.owned_remove (held_eq_ok hr) h.names, zero_add, add_assoc] at hm
      rw [owned_eq_slots]
      exact hm
    names := (List.filter_sublist.map _).nodup h.names
    labels := h.labels
    inputs := fun p hp => h.inputs p (List.mem_filter.mp hp).1
    resting := h.resting }

/-- Binding to another stream has nothing to do with storage. -/
theorem bindAt (h : s.Accounted A) (place : Place) (stream : Stream) :
    (bindAt place stream s).Accounted A := by
  cases place with
  | slot name =>
    cases hr : s.slots.lookup name with
    | none =>
      rw [bindAt_of_none hr]
      exact h
    | some r =>
      -- The stream is no part of what a resource owns, so the slot is replaced by its like.
      have hsame : (r.withStream stream).owned = r.owned ∧
          (r.withStream stream).isInput = r.isInput := by cases r <;> exact ⟨rfl, rfl⟩
      rw [bindAt_slot hr]
      exact {
        machine := by
          have hm := h.machine
          rw [owned_eq_slots] at hm ⊢
          rw [Named.owned_put, hsame.1, ← Named.owned_remove hr h.names]
          exact hm
        names := Named.nodup_put h.names name _
        labels := h.labels
        inputs := fun p hp hi => by
          rcases Named.mem_put hp with hp | rfl
          · exact h.inputs p hp hi
          · exact hsame.1.trans (h.inputs _ (Named.mem_of_lookup hr) (hsame.2 ▸ hi))
        resting := h.resting }
  | output name =>
    have hbatch : (s.batch.map fun b => b.withOutputStream name stream).elim 0 Local.Batch.owned =
        s.batch.elim 0 Local.Batch.owned := by
      cases s.batch with
      | none => rfl
      | some b => exact Local.Batch.owned_withOutputStream b name stream
    refine h.of_names ?_ rfl rfl
    have hm := h.machine
    rw [owned_eq_batch, ← hbatch] at hm
    rw [owned_eq_batch]
    exact hm

end Accounted

/-! ## Buffers and tensors -/

theorem leaves_bufferAt_bind {β : Type} {g : Buffer → Action Session β} {P : β → Session → Prop}
    {Q : Session → Prop} (h : Q s) (hok : ∀ b, (g b).Leaves s P Q) :
    (bufferAt place >>= g).Leaves s P Q := by
  rw [bufferAt_bind]
  exact leaves_consult_bind h fun r _ => hok r.data

theorem balances_keepBuffer {act : Action Session Buffer}
    (hact : act.Leaves s (fun b s' => s'.Accounted b.owned ∧ s'.Free slot) (·.Accounted 0)) :
    s.Balances (BufferCommand.keepBuffer slot act) :=
  .bind hact fun b _ h => .change_bind (.pure (h.1.store (r := .buffer b) h.2 nofun))

theorem balances_keepTensor {act : Action Session Tensor}
    (hact : act.Leaves s (fun t s' => s'.Accounted t.buffer.owned ∧ s'.Free slot) (·.Accounted 0)) :
    s.Balances (BufferCommand.keepTensor slot act) :=
  .bind hact fun t _ h => .change_bind (.pure (h.1.store (r := .tensor t) h.2 nofun))

end Session

/-! ## Names -/

/-- New things get names of their own. -/
def BufferCommand.Fresh (s : Session) : BufferCommand → Prop
  | allocate slot .. | ofList slot .. | copyTo slot .. | clone slot .. | borrow slot ..
  | allocateTensor slot .. => s.Free slot
  | moveTo slot src _ | toTensor slot src _ | toBuffer slot src => (emptied s src).Free slot
  | _ => True

/-- Storage is not asked for or given back past all buffers. -/
def PlatformCommand.SparesStorage : PlatformCommand → Prop
  | allocate .. | deallocate .. => False
  | _ => True

/-- One batch is in progress at a time, and inputs and batches set aside get names of their own. -/
def BatchCommand.Fresh (s : Session) : BatchCommand → Prop
  | create .. => s.batch = none
  | getInput slot .. => s.Free slot
  | setAside label => label ∉ s.aside.map Prod.fst
  | resume label => s.batch = none ∧
    ∀ rest, s.aside.lookup label = some rest → ∀ p ∈ rest.inputs, s.Free p.1
  | _ => True

/-- Names are not given twice, and nothing goes past all buffers. -/
def Command.Fresh (s : Session) : Command → Prop
  | buffer c => c.Fresh s
  | platform c => c.SparesStorage
  | batch c => c.Fresh s
  | side _ => True

namespace Session

variable {s s' : Session} {slot : String} {α : Type}

namespace Accounted

theorem balances_copyBetween (h : s.Accounted 0) (dst src : Place) (dstOffset : Nat)
    (range : Option (Nat × Nat)) :
    s.Balances (BufferCommand.copyBetween dst src dstOffset range) := by
  refine leaves_bufferAt_bind h fun target => leaves_bufferAt_bind h fun source => ?_
  have hcopied : ∀ {p : Machine × Buffer}, target.Kept s.owned p →
      (Session.bindAt dst p.2.stream { s with machine := p.1 }).Accounted 0 := fun hp =>
    (h.withMachine ((zero_add s.owned).symm ▸ hp.1)).bindAt dst _
  obtain ⟨i, j⟩ := range.getD (0, source.size)
  refine .bind (P := fun _ s' => s'.Accounted 0) (.within ((Buffer.kept_copyRange h.machine_zero
    source target dstOffset i j).mono (fun _ _ => hcopied) fun _ => hcopied)) fun _ _ h' => ?_
  exact leaves_bufferAt_bind h' fun _ => .pure h'

/-- Every command on buffers, whatever it is given. -/
theorem balances_buffer (h : s.Accounted 0) {c : BufferCommand} (hc : c.Fresh s) :
    s.Balances c.run := by
  have hm := h.machine_zero
  cases c with
  | allocate slot dtype size location device stream =>
    exact balances_keepBuffer (h.makes (Buffer.accounts_allocate hm ..) hc)
  | ofList slot dtype xs location device stream =>
    exact balances_keepBuffer (h.makes (Buffer.accounts_ofBytes hm ..) hc)
  | copyTo slot src location device =>
    exact balances_keepBuffer (leaves_bufferAt_bind h fun _ =>
      h.makes (Buffer.accounts_copyTo hm ..) hc)
  | clone slot src =>
    exact balances_keepBuffer (leaves_bufferAt_bind h fun _ =>
      h.makes (Buffer.accounts_copyTo hm ..) hc)
  | moveTo slot src location =>
    refine balances_keepBuffer (.bind (h.take src) fun r s' hr => ?_)
    obtain ⟨hr, rfl⟩ := hr
    exact hr.makes (Buffer.accounts_moveTo hr.machine location) hc
  | borrow slot src offset size location device stream =>
    exact balances_keepBuffer (leaves_bufferAt_bind h fun _ => .pure ⟨h, hc⟩)
  | release slot =>
    exact .bind (h.take slot) fun r s' hr =>
      .bind (hr.1.balances_onMachine (.change (Buffer.accounts_release hr.1.machine))) fun _ _ h' =>
        .pure h'
  | describe place => exact leaves_consult_bind h fun _ _ => .pure h
  | text place =>
    exact leaves_consult_bind h fun _ _ => .get_bind (.pure h)
  | sameData a b =>
    exact leaves_bufferAt_bind h fun _ => leaves_bufferAt_bind h fun _ => .pure h
  | peek place =>
    exact leaves_bufferAt_bind h fun b =>
      .bind (h.balances_onMachine (.ofExcept_bind (fun _ _ => .get_bind (.pure hm)) hm))
        fun _ _ h' => .pure h'
  | toList place =>
    exact leaves_bufferAt_bind h fun b =>
      .bind (h.balances_onMachine (.bind (Buffer.accounts_fetchBytes hm b) fun _ _ h' =>
        .pure h')) fun _ _ h' => .pure h'
  | poke place index xs =>
    refine leaves_bufferAt_bind h fun b => ?_
    refine .bind (h.balances_onMachine (.ofExcept_bind (fun _ _ => ?_) hm)) fun _ _ h' => .pure h'
    split
    · exact .change (hm.write ..)
    · exact .pure hm
  | rebind place stream =>
    exact leaves_bufferAt_bind h fun b =>
      .bind (h.balances_onMachine (.change (Buffer.accounts_rebind hm b stream)))
        fun _ _ h' => .change_bind (.pure (h'.bindAt place stream))
  | copy dst src dstOffset range => exact h.balances_copyBetween dst src dstOffset range
  | allocateTensor slot dtype shape location device stream =>
    exact balances_keepTensor (h.makes (Tensor.accounts_allocate hm ..) hc)
  | toTensor slot src shape =>
    refine balances_keepTensor (.bind (h.take src) fun r s' hr => ?_)
    obtain ⟨hr, rfl⟩ := hr
    exact hr.makes (Tensor.accounts_adopt hr.machine shape) hc
  | toBuffer slot src =>
    refine balances_keepBuffer (.bind (h.take src) fun r s' hr => .pure ?_)
    obtain ⟨hr, rfl⟩ := hr
    exact ⟨hr, hc⟩

/-! ## The platform -/

/-- A command on the platform that neither asks for storage nor gives any back. -/
theorem balances_platform (h : s.Accounted 0) {c : PlatformCommand} (hc : c.SparesStorage) :
    s.Balances c.run := by
  have hm := h.machine_zero
  cases c with
  | describe => exact .get_bind (.pure h)
  | synchronize stream =>
    exact .bind (h.balances_onMachine (.change (hm.synchronize stream))) fun _ _ h' => .pure h'
  | allocate raw bytes location device => exact hc.elim
  | deallocate raw location => exact hc.elim
  | storageOf raw place =>
    exact leaves_bufferAt_bind h fun _ => .change_bind (.pure (h.of_names h.machine rfl rfl))
  | write raw index bytes =>
    exact leaves_consult_bind h fun _ _ =>
      .bind (h.balances_onMachine (.change (hm.write ..))) fun _ _ h' => .pure h'
  | read raw =>
    exact leaves_consult_bind h fun _ _ => .get_bind (.pure h)
  | copy dst dstIndex src srcIndex kind bytes stream =>
    exact leaves_consult_bind h fun _ _ => leaves_consult_bind h fun _ _ =>
      .bind (h.balances_onMachine (.step (fun _ hcopy => hm.copy hcopy) hm)) fun _ _ h' =>
        .pure h'
  | retain guard stream =>
    have hkept := Machine.Accounts.retain (g := .token guard) ((zero_add s.owned).symm ▸ hm) stream
    exact .bind (h.balances_onMachine (.change hkept)) fun _ _ h' => .get_bind (.pure h')
  | references guard => exact .get_bind (.pure h)

/-! ## Batches -/

/-- An action on the batch in progress, which answers with something like `P`. -/
theorem onBatch {act : Action (Machine × Local.Batch) α} {P : α → Prop} (h : s.Accounted 0)
    (hact : ∀ {X p}, Local.Batch.Owns X p →
      act.Leaves p (fun a q => Local.Batch.Owns X q ∧ P a) (Local.Batch.Owns X)) :
    (Session.onBatch act).Leaves s (fun a s' => s'.Accounted 0 ∧ s'.slots = s.slots ∧ P a)
      (·.Accounted 0) := by
  refine leaves_consult_bind h fun b hb => ?_
  have hback : ∀ {p : Machine × Local.Batch},
      Local.Batch.Owns (Session.owned { s with batch := none }) p →
        ({ s with machine := p.1, batch := some p.2 } : Session).Accounted 0 := by
    intro p hp
    refine h.of_names ?_ rfl rfl
    rw [zero_add, owned_eq_batch]
    exact hp
  refine .within ((hact ?_).mono (fun a _ hq => ⟨hback hq.1, rfl, hq.2⟩) fun _ => hback)
  have hm := h.machine_zero
  rw [owned_eq_batch, currentBatch_eq_ok hb] at hm
  exact hm

theorem balances_request (h : s.Accounted 0) (id : Nat) (inputs : List InputSpec)
    (outputs : List WantedOutput) (asked : List String) :
    s.Balances (BatchCommand.run (.request id inputs outputs asked)) := by
  have hwanted : ∀ (outputs : List WantedOutput) (r : Request),
      (outputs.foldl (fun r o => r.addOutput o.name o.location o.device) r).owned = r.owned := by
    intro outputs
    induction outputs with
    | nil => exact fun r => rfl
    | cons o rest ih => exact fun r => ih (r.addOutput o.name o.location o.device)
  refine .bind (.bind (h.onMachine (BatchCommand.accounts_storeInputs inputs (r := { id })
    ((zero_add s.owned).symm ▸ h.machine_zero))) fun stored s' h' => .change_bind (.pure ?_))
    fun _ _ h' => .pure h'
  refine h'.of_names ?_ rfl rfl
  have hm := h'.machine
  rw [owned_eq_requests] at hm ⊢
  rw [zero_add, List.map_append, List.sum_append, List.map_singleton, List.sum_singleton, hwanted,
    add_comm (List.sum _), add_assoc]
  exact hm

theorem balances_create (h : s.Accounted 0) (hb : s.batch = none) (count : Option Nat)
    (settings : BatchSettings) (stream : Stream) :
    s.Balances (BatchCommand.run (.create count settings stream)) := by
  refine .bind (.get_bind (.bind (P := fun b s' => s'.Accounted (Local.Batch.owned b) ∧
    s'.batch = none) (.within ((Local.Batch.accounts_create h.machine_zero ..).mono
      (fun _ _ hm => ⟨h.withMachine hm, hb⟩)
      fun _ hm => h.withMachine ((zero_add s.owned).symm ▸ hm))) fun b s' h' =>
    .change_bind (.pure ?_))) fun _ _ h' => .pure h'
  refine h'.1.of_names ?_ rfl rfl
  have hm := h'.1.machine
  rw [owned_eq_batch, h'.2, Option.elim_none, zero_add] at hm
  rw [owned_eq_batch, zero_add]
  exact hm

/-- The slots that are left when a batch is no longer in progress. -/
theorem withoutInputs (h : s.Accounted A) (hm : s'.machine.Accounts (B + s'.owned))
    (hslots : s'.slots = s.slots.filter fun p => !p.2.isInput) (haside : s'.aside = s.aside) :
    s'.Accounted B where
  machine := hm
  names := by rw [hslots]; exact (List.filter_sublist.map _).nodup h.names
  labels := by rw [haside]; exact h.labels
  inputs := by
    rw [hslots]
    exact fun p hp => h.inputs p (List.mem_filter.mp hp).1
  resting := by rw [haside]; exact h.resting

theorem owned_withoutInputs (h : s.Accounted A) :
    Named.owned Resource.owned (s.slots.filter fun p => !p.2.isInput) =
      Named.owned Resource.owned s.slots :=
  Named.owned_filter fun p hp hi => h.inputs p hp (by simpa using hi)

/-- The batch ends, and what it gives back is in the hands of the caller until `closing` has given
it back. -/
theorem leaves_endBatch (h : s.Accounted 0) {closing : Local.Batch → Machine → Machine}
    {left : Local.Batch → Multiset Allocation}
    (hclosing : ∀ {X b m}, m.Accounts (Local.Batch.owned b + X) →
      (closing b m).Accounts (left b + X)) :
    (BatchCommand.endBatch closing).Leaves s (fun b s' => s'.Accounted (left b))
      (·.Accounted 0) := by
  unfold Action.Leaves
  cases hb : s.batch with
  | none =>
    rw [endBatch_of_none hb]
    exact h
  | some b =>
    rw [endBatch_of_some hb]
    refine h.withoutInputs (hclosing ?_) rfl rfl
    have hm := h.machine
    have hslots : Named.owned Resource.owned (s.withoutBatch (closing b s.machine) s.kept).slots =
        Named.owned Resource.owned s.slots := h.owned_withoutInputs
    unfold owned at hm ⊢
    rw [hb] at hm
    rw [hslots]
    convert hm using 1
    simp only [Option.elim_some, withoutBatch, Option.elim_none]
    abel

theorem balances_takeResponses (h : s.Accounted 0) :
    s.Balances (BatchCommand.run .takeResponses) := by
  refine .bind (P := fun b s' => s'.Accounted (b.responses.map Response.owned).sum)
    (h.leaves_endBatch fun {X b m} hm => Local.Batch.accounts_releaseRest ?_)
    fun b s' h' => .change_bind (.pure ?_)
  · unfold Local.Batch.owned at hm
    convert hm using 1
    abel
  · refine h'.of_names (Machine.Accounts.foldl Response.accounts_release ?_) rfl rfl
    have hm := h'.machine
    unfold owned at hm ⊢
    convert hm using 1
    abel

theorem balances_drop (h : s.Accounted 0) : s.Balances (BatchCommand.run .drop) :=
  .bind (P := fun _ s' => s'.Accounted 0) (h.leaves_endBatch fun {X _ _} hm =>
    Local.Batch.accounts_release ((zero_add X).symm ▸ hm)) fun _ _ h' => .pure h'

theorem balances_setAside (h : s.Accounted 0) {label : String}
    (hlabel : label ∉ s.aside.map Prod.fst) : s.Balances (BatchCommand.run (.setAside label)) := by
  refine .bind (P := fun _ s' => s'.Accounted 0) ?_ fun _ _ h' => .pure h'
  unfold Action.Leaves
  cases hb : s.batch with
  | none =>
    rw [setBatchAside_of_none hb]
    exact h
  | some b =>
    rw [setBatchAside_of_some hb]
    have hslots : Named.owned Resource.owned (s.withAside label b).slots =
        Named.owned Resource.owned s.slots := h.owned_withoutInputs
    exact {
      machine := by
        show s.machine.Accounts _
        have hm := h.machine
        unfold owned at hm ⊢
        rw [hb] at hm
        rw [hslots, show (s.withAside label b).aside = s.aside.put label (s.resting b) from rfl,
          Named.owned_put, Named.remove_eq_self hlabel,
          show (s.resting b).owned = Local.Batch.owned b from rfl]
        convert hm using 1
        simp only [Option.elim_some, withAside, Option.elim_none]
        abel
      names := (List.filter_sublist.map _).nodup h.names
      labels := Named.nodup_put h.labels label _
      inputs := fun p hp => h.inputs p (List.mem_filter.mp hp).1
      resting := fun p hp => by
        rcases Named.mem_put hp with hp | rfl
        · exact h.resting p hp
        · refine ⟨(List.filter_sublist.map _).nodup h.names, fun q hq => ?_⟩
          obtain ⟨hq, hi⟩ := List.mem_filter.mp hq
          exact ⟨hi, h.inputs q hq hi⟩ }

theorem balances_resume (h : s.Accounted 0) {label : String} (hb : s.batch = none)
    (hfree : ∀ rest, s.aside.lookup label = some rest → ∀ p ∈ rest.inputs, s.Free p.1) :
    s.Balances (BatchCommand.run (.resume label)) := by
  refine .bind (P := fun _ s' => s'.Accounted 0) ?_ fun _ _ h' => .pure h'
  unfold Action.Leaves
  cases hrest : s.aside.lookup label with
  | none =>
    rw [resumeBatch_of_none hrest]
    exact h
  | some rest =>
    rw [resumeBatch_of_some hrest]
    obtain ⟨hnames, hinputs⟩ := h.resting _ (Named.mem_of_lookup hrest)
    -- The inputs that come back into slots are views, so they bring nothing with them.
    have hnothing : Named.owned Resource.owned rest.inputs = 0 :=
      List.sum_eq_zero fun x hx => by
        obtain ⟨q, hq, rfl⟩ := List.mem_map.mp hx
        exact (hinputs q hq).2
    exact {
      machine := by
        show s.machine.Accounts _
        have hm := h.machine
        unfold owned at hm ⊢
        rw [hb, Named.owned_remove hrest h.labels] at hm
        rw [show (s.withResumed label rest).slots = s.slots ++ rest.inputs from rfl,
          Named.owned_append, hnothing]
        convert hm using 1
        simp only [Option.elim_some, withResumed, Option.elim_none, RestingBatch.owned]
        abel
      names := by
        show ((s.slots ++ rest.inputs).map Prod.fst).Nodup
        rw [List.map_append, List.nodup_append]
        refine ⟨h.names, hnames, fun x hx y hy hxy => ?_⟩
        obtain ⟨q, hq, rfl⟩ := List.mem_map.mp hy
        exact hfree rest hrest q hq (hxy ▸ hx)
      labels := (List.filter_sublist.map _).nodup h.labels
      inputs := fun p hp hi => by
        rcases List.mem_append.mp hp with hp | hp
        · exact h.inputs p hp hi
        · exact (hinputs p hp).2
      resting := fun p hp => h.resting p (List.mem_filter.mp hp).1 }

/-- Every command on requests, batches and responses. -/
theorem balances_batch (h : s.Accounted 0) {c : BatchCommand} (hc : c.Fresh s) :
    s.Balances c.run := by
  cases c with
  | request id inputs outputs asked => exact h.balances_request id inputs outputs asked
  | create count settings stream => exact h.balances_create hc count settings stream
  | describe => exact leaves_consult_bind h fun _ _ => .pure h
  | combinedShape name =>
    exact leaves_consult_bind h fun _ _ => .ofExcept_bind (fun _ _ => .pure h) h
  | getInput slot name dtype location device =>
    refine .bind (h.onBatch fun hp => Local.Batch.owns_getInput hp name dtype location device)
      fun t s' h' => .change_bind (.pure ?_)
    obtain ⟨h', hslots, ht⟩ := h'
    refine store (r := .input t) ?_ ?_ fun _ => ht
    · rw [show Resource.owned (.input t) = 0 from ht]
      exact h'
    · unfold Free
      rw [hslots]
      exact hc
  | getOutput name dtype shape location device =>
    exact .bind (h.onBatch (P := fun _ => True) fun hp =>
      (Local.Batch.owns_getOutput hp name dtype shape location device).mono
        (fun _ _ hq => ⟨hq, trivial⟩) fun _ hq => hq) fun _ _ h' => .pure h'.1
  | output name dtype =>
    refine leaves_consult_bind h fun b _ => ?_
    split
    · exact .pure h
    · exact .pure h
  | outputs => exact leaves_consult_bind h fun _ _ => .pure h
  | finalize =>
    exact .bind (h.onBatch (P := fun _ => True) fun hp =>
      (Local.Batch.owns_finalize hp).mono (fun _ _ hq => ⟨hq, trivial⟩) fun _ hq => hq)
        fun _ _ h' => .pure h'.1
  | takeResponses => exact h.balances_takeResponses
  | drop => exact h.balances_drop
  | setAside label => exact h.balances_setAside hc
  | resume label => exact h.balances_resume hc.1 hc.2
  | responses => exact .get_bind (.pure h)
  | response index name dtype =>
    refine leaves_consult_bind h fun r _ => ?_
    split
    · exact .pure h
    · exact .bind (h.balances_onMachine (Response.accounts_toList h.machine_zero _ dtype))
        fun _ _ h' => .pure h'

/-! ## The sides of the exchange -/

theorem accounted_dropGather (h : s.Accounted 0) :
    (SideCommand.dropGather s).Accounted 0 ∧ (SideCommand.dropGather s).gather = none := by
  unfold SideCommand.dropGather
  cases hg : s.gather with
  | none => exact ⟨h, hg⟩
  | some gather =>
    refine ⟨h.of_names (Gather.accounts_close ?_) rfl rfl, rfl⟩
    have hm := h.machine_zero
    rw [owned_eq_gather, hg] at hm
    rw [zero_add]
    exact hm

/-- An action on the gathering side. -/
theorem balances_onGather {act : Action (Machine × Gather) α} (h : s.Accounted 0)
    (hact : ∀ {X p}, Gather.Owns X p → act.Leaves p (fun _ => Gather.Owns X) (Gather.Owns X)) :
    s.Balances (SideCommand.onGather act) := by
  refine .get_bind ?_
  cases hg : s.gather with
  | none => exact .throw h
  | some gather =>
    have hback : ∀ {p : Machine × Gather},
        Gather.Owns (Session.owned { s with gather := none }) p →
          ({ s with machine := p.1, gather := some p.2 } : Session).Accounted 0 := by
      intro p hp
      refine h.of_names ?_ rfl rfl
      rw [zero_add, owned_eq_gather]
      exact hp
    refine .within ((hact ?_).mono (fun _ _ => hback) fun _ => hback)
    have hm := h.machine_zero
    rw [owned_eq_gather, hg] at hm
    exact hm

/-- An action on the scattering side and the kept responses. -/
theorem balances_onScatter {act : Action (Machine × Scatter × List Response) α}
    (h : s.Accounted 0) (hact : ∀ {X n p}, Scatter.Owns X n p →
      act.Leaves p (fun _ => Scatter.Owns X n) (Scatter.Owns X n)) :
    s.Balances (SideCommand.onScatter act) := by
  refine .get_bind ?_
  cases hs : s.scatter with
  | none => exact .throw h
  | some scatter =>
    have hback : ∀ {p : Machine × Scatter × List Response},
        Scatter.Owns (Session.owned { s with kept := [] }) s.kept.length p →
          ({ s with
            machine := p.1
            scatter := some p.2.1
            kept := p.2.2 } : Session).Accounted 0 := by
      intro p hp
      refine h.of_names ?_ rfl rfl
      rw [zero_add, owned_eq_kept]
      exact hp.1
    refine .within ((hact ⟨?_, rfl⟩).mono (fun _ _ => hback) fun _ => hback)
    have hm := h.machine_zero
    rw [owned_eq_kept] at hm
    exact hm

/-- Every command on the sides of the exchange. -/
theorem balances_side (h : s.Accounted 0) (c : SideCommand) : s.Balances c.run := by
  cases c with
  | openGather pinned stream =>
    obtain ⟨hdropped, hnone⟩ := h.accounted_dropGather
    refine .change_bind (.pure (hdropped.of_names ?_ rfl rfl))
    have hm := hdropped.machine
    rw [owned_eq_gather, hnone] at hm
    rw [owned_eq_gather]
    exact hm
  | collect query =>
    refine .get_bind (h.balances_onGather fun {X p} hp => ?_)
    exact (Gather.owns_collect hp s.requests query).outcome
  | closeGather => exact .change_bind (.pure h.accounted_dropGather.1)
  | openScatter pinned maximum stream =>
    refine .change_bind (.get_bind (.pure (h.of_names
      (Machine.Accounts.foldl Response.accounts_release ?_) rfl rfl)))
    have hm := h.machine_zero
    rw [owned_eq_kept] at hm
    rw [zero_add, owned_eq_kept, Response.sum_owned_empty, zero_add]
    exact hm
  | process place name shape elementSize withoutData =>
    exact leaves_bufferAt_bind h fun _ => .get_bind (.bind (h.balances_onScatter fun hp =>
      Scatter.owns_process hp s.requests _) fun _ _ h' => .pure h')
  | finishScatter =>
    exact .bind (h.balances_onScatter fun hp => Scatter.owns_finish hp) fun _ _ h' => .pure h'

/-! ## All commands -/

/-- Whatever a command is given and wherever it fails, the session accounts for all storage. -/
theorem perform (h : s.Accounted 0) {c : Command} (hc : c.Fresh s) :
    (s.perform c).2.Accounted 0 := by
  refine Action.Leaves.outcome (Q := fun s' : Session => s'.Accounted 0) ?_
  cases c with
  | buffer c => exact h.balances_buffer hc
  | platform c => exact h.balances_platform hc
  | batch c => exact h.balances_batch hc
  | side c => exact h.balances_side c

end Accounted

/-! ## Every session -/

/-- What happens in a session: a command is performed, or a request or a response that was kept is
dropped, which no command does. -/
inductive Step where
  | perform (c : Command)
  | dropRequest (index : Nat)
  | dropResponse (index : Nat)
  deriving DecidableEq, Repr

/-- The session after a step. -/
def after (s : Session) : Step → Session
  | .perform c => (s.perform c).2
  | .dropRequest index =>
    match s.requests[index]? with
    | none => s
    | some r => { s with machine := r.release s.machine, requests := s.requests.eraseIdx index }
  | .dropResponse index =>
    match s.kept[index]? with
    | none => s
    | some r => { s with machine := r.release s.machine, kept := s.kept.eraseIdx index }

/-- A command gives names that are free. -/
def Step.Fresh (s : Session) : Step → Prop
  | .perform c => c.Fresh s
  | _ => True

/-- The names that commands give are free when it is their turn. -/
def Allows (s : Session) : List Step → Prop
  | [] => True
  | step :: steps => step.Fresh s ∧ (s.after step).Allows steps

/-- What the rest of several things own, and the one that is taken out of them. -/
theorem sum_eraseIdx {β : Type} {own : β → Multiset Allocation} {things : List β} {index : Nat}
    {b : β} (h : things[index]? = some b) :
    (things.map own).sum = own b + ((things.eraseIdx index).map own).sum := by
  obtain ⟨hi, rfl⟩ := List.getElem?_eq_some_iff.mp h
  exact ((List.getElem_cons_eraseIdx_perm hi).symm.map own).sum_eq

/-- Every step leaves a session that accounts for all storage. -/
theorem Accounted.after (h : s.Accounted 0) {step : Step} (hstep : step.Fresh s) :
    (s.after step).Accounted 0 := by
  cases step with
  | perform c => exact h.perform hstep
  | dropRequest index =>
    simp only [Session.after]
    cases hr : s.requests[index]? with
    | none => exact h
    | some r =>
      refine h.of_names (Request.accounts_release (r := r) ?_) rfl rfl
      have hm := h.machine_zero
      rw [owned_eq_requests, sum_eraseIdx hr, add_assoc] at hm
      rw [zero_add, owned_eq_requests]
      exact hm
  | dropResponse index =>
    simp only [Session.after]
    cases hr : s.kept[index]? with
    | none => exact h
    | some r =>
      refine h.of_names (Response.accounts_release (r := r) ?_) rfl rfl
      have hm := h.machine_zero
      rw [owned_eq_kept, sum_eraseIdx hr, add_assoc] at hm
      rw [zero_add, owned_eq_kept]
      exact hm

/-- So does every sequence of steps. -/
theorem Accounted.foldl_after (h : s.Accounted 0) {steps : List Step} (hsteps : s.Allows steps) :
    (steps.foldl Session.after s).Accounted 0 := by
  induction steps generalizing s with
  | nil => exact h
  | cons step steps ih => exact ih (h.after hsteps.1) hsteps.2

/-- At every moment of every session the books of the machine say exactly what is owned by something
in the session and what its streams keep: no release was ever refused, and each took a block of its
own out of memory. Once nothing is owned and every stream has been waited for, nothing is left. -/
theorem storage_accounted {platform : Platform} {device : Nat} {steps : List Step}
    (h : (start platform device).Allows steps) :
    let s := steps.foldl Session.after (start platform device)
    let held := s.owned + s.machine.queues.owned
    s.machine.Balanced held ∧
      s.machine.stats.deallocations ≤ s.machine.stats.allocations ∧
      s.machine.stats.liveAllocations = held.card ∧
      (∀ d, s.machine.bytesInUse d = Allocation.usage held d) ∧
      s.machine.memory.blocks.countP Option.isNone = s.machine.stats.deallocations + 1 ∧
      (s.owned = 0 → ∀ streams : List Stream, (∀ p ∈ s.machine.queues, p.1 ∈ streams) →
        let m := streams.foldl Machine.synchronize s.machine
        m.stats.liveAllocations = 0 ∧ m.stats.liveBytes = 0 ∧ m.live = [] ∧
          ∀ d, m.bytesInUse d = 0) := by
  intro s held
  have haccounts := ((accounted_start platform device).foldl_after h).machine_zero
  have hb := haccounts.balanced
  refine ⟨hb, hb.liveAllocations.1, hb.liveAllocations.2, hb.bytesInUse, hb.released,
    fun hnothing streams hstreams => ?_⟩
  have hzero : s.machine.Accounts 0 := by
    rw [← hnothing]
    exact haccounts
  exact hzero.empties hstreams

/-- A session in which an allocation fails, requests and responses are dropped, and a buffer that
was moved to the host is dropped before the copy is performed. -/
def scuffle : List Step := [
  .perform (.buffer (.ofList "a" .uint8 [1, 2, 3] .device 0 ⟨1⟩)),
  .perform (.buffer (.borrow "view" (.slot "a") 0 2 none 0 ⟨1⟩)),
  .perform (.buffer (.ofList "big" .uint64 [1, 2, 3, 4, 5, 6, 7, 8, 9] .device 0 ⟨1⟩)),
  .perform (.batch (.request 1 [⟨"x", .uint16, [1, 2], [1, 2], .host, 0⟩] [] [])),
  .perform (.batch (.request 2 [⟨"x", .uint16, [1, 2], [3, 4], .device, 1⟩] [] [])),
  .perform (.batch (.create none {} ⟨3⟩)),
  .perform (.batch (.getInput "in" "x" .uint16 .device 1)),
  .perform (.batch (.getOutput "y" .uint8 [2] .device 0)),
  .perform (.batch .finalize),
  .perform (.batch .takeResponses),
  .dropResponse 0,
  .dropResponse 0,
  .dropRequest 1,
  .dropRequest 0,
  .perform (.buffer (.release "view")),
  .perform (.buffer (.moveTo "b" "a" .host)),
  .perform (.buffer (.release "b"))]

/-- The names given are free when it is their turn. -/
theorem allows_scuffle : (start (.simulated ⟨2, 64, true⟩) 0).Allows scuffle := by
  refine ⟨List.not_mem_nil, ?_, ?_, trivial, trivial, ?_, ?_, trivial, trivial, trivial, trivial,
    trivial, trivial, trivial, trivial, ?_, trivial, trivial⟩
  · show "view" ∉ _
    decide +kernel
  · show "big" ∉ _
    decide +kernel
  · exact Option.isNone_iff_eq_none.mp (by decide +kernel)
  · show "in" ∉ _
    decide +kernel
  · show "b" ∉ _
    decide +kernel

/-- Only the storage that the copy reads is left, until the stream is waited for. -/
theorem scuffle_accounted :
    let s := scuffle.foldl after (start (.simulated ⟨2, 64, true⟩) 0)
    (start (.simulated ⟨2, 64, true⟩) 0).Allows scuffle ∧
      s.owned = 0 ∧ s.machine.stats.liveAllocations = 1 ∧ s.machine.live.length = 1 ∧
      let m := s.machine.synchronize ⟨1⟩
      m.stats.liveAllocations = 0 ∧ m.stats.liveBytes = 0 ∧ m.live = [] ∧
        ∀ d, m.bytesInUse d = 0 := by
  obtain ⟨-, -, -, -, -, hempty⟩ := storage_accounted allows_scuffle
  have hnothing : (scuffle.foldl after (start (.simulated ⟨2, 64, true⟩) 0)).owned = 0 := by
    decide +kernel
  have hleft : (scuffle.foldl after (start (.simulated ⟨2, 64, true⟩) 0)).machine.live.length = 1 ∧
      (scuffle.foldl after
        (start (.simulated ⟨2, 64, true⟩) 0)).machine.stats.liveAllocations = 1 ∧
      ∀ p ∈ (scuffle.foldl after (start (.simulated ⟨2, 64, true⟩) 0)).machine.queues,
        p.1 ∈ [Stream.mk 1] := by
    decide +kernel
  generalize scuffle.foldl after (start (.simulated ⟨2, 64, true⟩) 0) = s at hempty hnothing hleft ⊢
  exact ⟨allows_scuffle, hnothing, hleft.2.1, hleft.1, hempty hnothing _ hleft.2.2⟩

end Session

end DeviceBatch
