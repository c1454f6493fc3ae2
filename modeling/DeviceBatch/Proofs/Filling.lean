import DeviceBatch.Proofs.Finalizing

/-!
# What calls make of a batch

Getting an input changes only what the gathering side holds; getting an output records it or does
nothing; finalizing fills the responses from the record (`Local.Filled`), as far as that goes. This
holds whatever the machine is like and whatever comes of the call.
-/

namespace DeviceBatch

open Local

/-- A tensor that cannot be made leaves no trace. -/
theorem Tensor.eq_of_allocate_error {dtype : ElementType} {shape : Shape} {location : Location}
    {device : Nat} {stream : Stream} {m m' : Machine} {e : Error}
    (h : Tensor.allocate dtype shape location device stream m = .error e m') : m = m' := by
  unfold Tensor.allocate at h
  cases hcount : shape.product? with
  | none =>
    rw [hcount] at h
    cases h
    rfl
  | some count =>
    rw [hcount] at h
    cases ha : Buffer.allocate dtype count location device stream m with
    | error e' m₁ =>
      cases (Action.bind_of_error ha).symm.trans h
      unfold Buffer.allocate at ha
      cases hacq : Machine.acquire (count * dtype.width) location device m with
      | error e'' =>
        cases (Action.bind_of_error (Action.attempt_of_error hacq)).symm.trans ha
        rfl
      | ok p => cases (Action.bind_of_ok (Action.attempt_of_ok hacq)).symm.trans ha
    | ok b m₁ =>
      -- The storage has the size that the shape asks for, so it is always adopted.
      have h := (Action.bind_of_ok ha).symm.trans h
      obtain ⟨⟨a, -, rfl⟩, -, -⟩ := Buffer.eq_of_allocate ha
      have hof : ∃ t, Tensor.ofBuffer shape ⟨.owned a, dtype, count, device, stream⟩ = .ok t := by
        unfold Tensor.ofBuffer
        split
        · next hnone => cases hcount.symm.trans hnone
        · next n hn =>
          cases hcount.symm.trans hn
          exact ⟨_, dif_pos rfl⟩
      obtain ⟨t, ht⟩ := hof
      unfold Tensor.adopt at h
      rw [ht] at h
      cases h

/-! ## Responses -/

namespace Local

/-- Each response has what it had before and then some of the outputs that are meant for it, in
their order. -/
def Filled (names : Nat → List String) (before after : List Response) : Prop :=
  after.length = before.length ∧ ∀ i r', after[i]? = some r' →
    ∃ (r : Response) (added : List DeliveredOutput), before[i]? = some r ∧
      r' = { r with outputs := r.outputs ++ added } ∧
      (added.map DeliveredOutput.name).Sublist (names i)

namespace Filled

variable {names names' : Nat → List String} {before between after : List Response}

theorem refl (names : Nat → List String) (before : List Response) : Filled names before before :=
  ⟨rfl, fun _ r hr => ⟨r, [], hr, by rw [List.append_nil], List.nil_sublist _⟩⟩

theorem trans (h : Filled names before between) (h' : Filled names' between after) :
    Filled (fun i => names i ++ names' i) before after := by
  refine ⟨h'.1.trans h.1, fun i r'' hr'' => ?_⟩
  obtain ⟨r', added', hr', rfl, hsub'⟩ := h'.2 i r'' hr''
  obtain ⟨r, added, hr, rfl, hsub⟩ := h.2 i r' hr'
  refine ⟨r, added ++ added', hr, by rw [List.append_assoc], ?_⟩
  rw [List.map_append]
  exact hsub.append hsub'

theorem mono (h : Filled names before after) (hsub : ∀ i, (names i).Sublist (names' i)) :
    Filled names' before after := by
  refine ⟨h.1, fun i r' hr' => ?_⟩
  obtain ⟨r, added, hr, heq, hadded⟩ := h.2 i r' hr'
  exact ⟨r, added, hr, heq, hadded.trans (hsub i)⟩

/-- One more output in the response with that number. -/
theorem modify (index : Nat) (d : DeliveredOutput) (before : List Response) :
    Filled (fun i => if i = index then [d.name] else []) before
      (before.modify index fun r => { r with outputs := r.outputs ++ [d] }) := by
  refine ⟨List.length_modify .., fun i r' hr' => ?_⟩
  obtain ⟨r, hr, rfl⟩ := Scatter.response_of_modify hr'
  dsimp only
  by_cases hi : index = i
  · rw [if_pos hi, if_pos hi.symm]
    exact ⟨r, [d], hr, rfl, List.Sublist.refl _⟩
  · rw [if_neg hi]
    exact ⟨r, [], hr, by rw [List.append_nil], List.nil_sublist _⟩

/-- A response stays that of its request. -/
theorem map_request (h : Filled names before after) :
    after.map Response.request = before.map Response.request := by
  refine List.ext_getElem? fun i => ?_
  rw [List.getElem?_map, List.getElem?_map]
  cases hr' : after[i]? with
  | none =>
    rw [List.getElem?_eq_none (h.1 ▸ List.getElem?_eq_none_iff.mp hr')]
  | some r' =>
    obtain ⟨r, added, hr, rfl, -⟩ := h.2 i r' hr'
    rw [hr]
    rfl

end Filled

/-! ## Filling them -/

namespace Scatter

variable {p : Machine × Scatter × List Response}

theorem filled_deliver (output : OutputView) (source : Buffer) (index : Nat) (request : Request)
    (slice : Slice) :
    (deliver output source index request slice).Leaves p
      (fun _ q => Filled (fun i => if i = index then [output.name] else []) p.2.2 q.2.2)
      fun q => Filled (fun i => if i = index then [output.name] else []) p.2.2 q.2.2 := by
  obtain ⟨m, scatter, responses⟩ := p
  unfold deliver
  cases request.wants output.name with
  | none => exact .pure (.refl _ _)
  | some place =>
    refine .bind (P := fun _ q => q.2.2 = responses)
      (.onFirst (.of_forall (fun _ _ => rfl) fun _ => .refl _ _)) fun data q hq => .change ?_
    rw [← hq]
    exact .modify index _ _

theorem filled_deliverFrom (output : OutputView) (source : Buffer) (index : Nat)
    (pairs : List (Request × Slice)) :
    (deliverFrom output source index pairs).Leaves p
      (fun _ q => Filled (fun i => if index ≤ i then [output.name] else []) p.2.2 q.2.2)
      fun q => Filled (fun i => if index ≤ i then [output.name] else []) p.2.2 q.2.2 := by
  induction pairs generalizing index p with
  | nil => exact .pure (.refl _ _)
  | cons pair rest ih =>
    have hfirst : ∀ i, (if i = index then [output.name] else []).Sublist
        (if index ≤ i then [output.name] else []) := by
      intro i
      by_cases hi : i = index
      · rw [if_pos hi, if_pos (Nat.le_of_eq hi.symm)]
      · rw [if_neg hi]
        exact List.nil_sublist _
    -- The first response has got the output, and those behind it get it.
    have hall : ∀ i, ((if i = index then [output.name] else []) ++
        if index + 1 ≤ i then [output.name] else []).Sublist
          (if index ≤ i then [output.name] else []) := by
      intro i
      by_cases hi : i = index
      · rw [if_pos hi, if_neg (by omega), if_pos (by omega)]
        exact List.Sublist.refl _
      · rw [if_neg hi, List.nil_append]
        by_cases hlt : index + 1 ≤ i
        · rw [if_pos hlt, if_pos (by omega)]
        · rw [if_neg hlt]
          exact List.nil_sublist _
    refine .bind ((filled_deliver output source index pair.1 pair.2).mono (fun _ _ h => h)
      fun _ h => h.mono hfirst) fun _ q hq => ?_
    exact (ih (index + 1)).mono (fun _ _ h => (hq.trans h).mono hall)
      fun _ h => (hq.trans h).mono hall

/-- A response gets an output at most once. -/
theorem filled_process (requests : List Request) (output : OutputView) :
    (process requests output).Leaves p
      (fun _ q => Filled (fun _ => [output.name]) p.2.2 q.2.2)
      fun q => Filled (fun _ => [output.name]) p.2.2 q.2.2 := by
  have hall : ∀ i, (if 0 ≤ i then [output.name] else []).Sublist [output.name] := fun i => by
    rw [if_pos (Nat.zero_le i)]
  unfold process
  cases output.data with
  | none => exact .throw (.refl _ _)
  | some data =>
    refine .get_bind (.ofExcept_bind (fun slices _ => ?_) (.refl _ _))
    exact .bind ((filled_deliverFrom output _ 0 _).mono (fun _ _ h => h.mono hall)
      fun _ h => h.mono hall) fun _ _ h => .change h

theorem filled_finish (names : Nat → List String) :
    finish.Leaves p (fun _ q => Filled names p.2.2 q.2.2) fun q => Filled names p.2.2 q.2.2 := by
  obtain ⟨m, scatter, responses⟩ := p
  exact .get_bind (.change_bind (.pure (.refl _ _)))

end Scatter

theorem Sides.filled_onOutputs {α : Type} {act : Action (Machine × Scatter × List Response) α}
    {names : Nat → List String} {p : Machine × Sides × List Response}
    (hact : ∀ {q}, act.Leaves q (fun _ q' => Filled names q.2.2 q'.2.2)
      fun q' => Filled names q.2.2 q'.2.2) :
    (onOutputs act).Leaves p (fun _ q => Filled names p.2.2 q.2.2)
      fun q => Filled names p.2.2 q.2.2 :=
  .within (hact.mono (fun _ _ h => h) fun _ h => h)

namespace Batch

/-- The responses get outputs in the order of the record. -/
theorem filled_scatterAll (requests : List Request) (outputs : List RecordedOutput)
    {p : Machine × Sides × List Response} :
    (DeviceBatch.Batch.scatterAll exchange requests outputs).Leaves p
      (fun _ q => Filled (fun _ => outputs.map RecordedOutput.name) p.2.2 q.2.2)
      fun q => Filled (fun _ => outputs.map RecordedOutput.name) p.2.2 q.2.2 := by
  induction outputs generalizing p with
  | nil => exact Sides.filled_onOutputs (Scatter.filled_finish _)
  | cons o rest ih =>
    have hfirst : (exchange.scatter requests (.ofTensor o.name o.tensor)).Leaves p
        (fun _ q => Filled (fun _ => [o.name]) p.2.2 q.2.2)
        fun q => Filled (fun _ => [o.name]) p.2.2 q.2.2 :=
      Sides.filled_onOutputs (Scatter.filled_process requests _)
    refine .bind (hfirst.mono (fun _ _ h => h) fun _ h => h.mono fun _ => ?_)
      fun _ q hq => ih.mono (fun _ _ h => hq.trans h) fun _ h => hq.trans h
    exact List.singleton_sublist.mpr List.mem_cons_self

/-- The batch was finalized, with its responses filled from the record as far as that went. -/
def Closed (b b' : Batch) : Prop :=
  b' = { b with held := b'.held, responses := b'.responses, state := .finalized } ∧
    Filled (fun _ => b.outputs.map RecordedOutput.name) b.responses b'.responses

theorem closed_flush {b : Batch} {m : Machine} (hb : b.state = .finalized) :
    (DeviceBatch.Batch.flush exchange).Leaves (m, b) (fun _ q => b.Closed q.2)
      fun q => b.Closed q.2 :=
  leaves_flush (.within ((filled_scatterAll b.requests b.outputs).mono
    (fun _ _ h => ⟨by rw [← hb], h⟩) fun _ h => ⟨by rw [← hb], h⟩))

/-- Finalizing an open batch closes it, whatever comes of it. -/
theorem closed_finalize {b : Batch} {m : Machine} (hb : b.state = .opened) :
    (DeviceBatch.Batch.finalize exchange).Leaves (m, b) (fun _ q => b.Closed q.2)
      fun q => b.Closed q.2 :=
  leaves_finalize hb ((closed_flush rfl).mono (fun _ _ h => h) fun _ h _ => h)

/-! ## Inputs and outputs -/

theorem leaves_onInputs {α : Type} (act : Action (Machine × Sides) α) (p : Machine × Batch) :
    (DeviceBatch.Batch.onInputs act).Leaves p (fun _ q => q.2 = { p.2 with held := q.2.held })
      fun q => q.2 = { p.2 with held := q.2.held } :=
  .within (.of_forall (fun _ _ => rfl) fun _ => rfl)

/-- Getting an input changes nothing of a batch but what its gathering side holds. -/
theorem leaves_getInput (name : String) (dtype : ElementType) (location : Location) (device : Nat)
    (p : Machine × Batch) :
    (DeviceBatch.Batch.getInput exchange name dtype location device).Leaves p
      (fun _ q => q.2 = { p.2 with held := q.2.held })
      fun q => q.2 = { p.2 with held := q.2.held } := by
  refine .get_bind (.ofExcept_bind (fun shape _ => .ofExcept_bind (fun bytes _ => ?_) rfl) rfl)
  refine .bind (leaves_onInputs _ p) fun c q hq => ?_
  exact .ofExcept_bind (fun buffer _ => .change_bind (.ofExcept (fun _ _ => hq) hq)) hq

section GetOutput

variable (name : String) (dtype : ElementType) (shape : Shape) (location : Location) (device : Nat)
  (b : Batch)

/-- An output is refused without regard to the machine, or it can be had if its tensor can. -/
theorem getOutput_reduces :
    (∃ e, ¬ e.RefusesCopy ∧ ∀ m,
      DeviceBatch.Batch.getOutput name dtype shape location device (m, b) = .error e (m, b)) ∨
    b.state = .opened ∧ ¬ b.outputs.any (fun o => o.name == name) ∧
      (∀ m e m', Tensor.allocate dtype shape location device b.stream m = .error e m' →
        DeviceBatch.Batch.getOutput name dtype shape location device (m, b) = .error e (m', b)) ∧
      ∀ m t m', Tensor.allocate dtype shape location device b.stream m = .ok t m' →
        DeviceBatch.Batch.getOutput name dtype shape location device (m, b) =
          .ok t (m'.emit (.allocatedOutput name shape location),
            { b with outputs := b.outputs ++ [⟨name, t⟩] }) := by
  cases hensure : b.ensureOpen with
  | error e =>
    exact .inl ⟨e, b.ensureOpen_unrefused e hensure, fun m =>
      Action.ofExcept_bind_of_error hensure _ _⟩
  | ok _ =>
    have hopened := Action.ofExcept_bind_of_ok (σ := Machine × Batch) (β := Tensor) hensure
    cases hany : b.outputs.any (fun o => o.name == name) with
    | true =>
      refine .inl ⟨.duplicateOutput name, nofun, fun m => (hopened _ _).trans ?_⟩
      rw [hany]
      rfl
    | false =>
      refine .inr ⟨DeviceBatch.Batch.ensureOpen_eq_ok.mp hensure, Bool.false_ne_true,
        fun m e m' ha => ?_, fun m t m' ha => ?_⟩
      · refine (hopened _ _).trans ?_
        rw [hany]
        exact Action.bind_of_error (Action.onFirst_of_error ha b)
      · refine (hopened _ _).trans ?_
        rw [hany]
        exact Action.bind_of_ok (Action.onFirst_of_ok ha b)

/-- An output is recorded under a new name, or there is none and nothing happens. -/
theorem getOutput_adds (m : Machine) :
    (∃ e, DeviceBatch.Batch.getOutput name dtype shape location device (m, b) = .error e (m, b)) ∨
    ∃ t m', name ∉ b.outputs.map RecordedOutput.name ∧ b.state = .opened ∧
      DeviceBatch.Batch.getOutput name dtype shape location device (m, b) =
        .ok t (m', { b with outputs := b.outputs ++ [⟨name, t⟩] }) := by
  rcases getOutput_reduces name dtype shape location device b with
    ⟨e, -, he⟩ | ⟨hopen, hnew, herror, hok⟩
  · exact .inl ⟨e, he m⟩
  · cases ha : Tensor.allocate dtype shape location device b.stream m with
    | error e m' =>
      obtain rfl := Tensor.eq_of_allocate_error ha
      exact .inl ⟨e, herror m e m ha⟩
    | ok t m' =>
      refine .inr ⟨t, _, fun hmem => hnew ?_, hopen, hok m t m' ha⟩
      obtain ⟨o, ho, rfl⟩ := List.mem_map.mp hmem
      exact List.any_eq_true.mpr ⟨o, ho, beq_self_eq_true _⟩

end GetOutput

end Batch

end Local

end DeviceBatch
