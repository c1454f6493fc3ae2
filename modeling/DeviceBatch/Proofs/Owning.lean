import DeviceBatch.Proofs.Books
import DeviceBatch.Proofs.Sessions

/-!
# Who owns storage

Storage is owned by buffers, and through them by tensors, requests, staging, outputs and responses.
Whatever is done to one of these, and whether it succeeds or fails half way, the machine accounts
for what they own afterwards if it did before: what an action answers with is owned besides, and
what it was given and lost on the way has been given back.

Everything here holds in any frame: `A` is what others own.
-/

namespace DeviceBatch

open Local

variable {m m' : Machine} {A : Multiset Allocation} {location : Location} {device : Nat}
  {stream : Stream}

/-! ## Buffers -/

namespace Buffer

variable {b src dst : Buffer} {dtype : ElementType}

/-- The storage that goes with a buffer. -/
def owned (b : Buffer) : Multiset Allocation :=
  match b.storage with
  | .borrowed .. => 0
  | .owned a => a.owned

theorem accounts_release (h : m.Accounts (b.owned + A)) : (b.release m).Accounts A := by
  unfold owned at h
  unfold release
  cases hb : b.storage with
  | borrowed location data =>
    rw [hb] at h
    exact (zero_add A) ▸ h
  | owned a =>
    rw [hb] at h
    exact h.release

theorem accounts_allocate (h : m.Accounts A) (dtype : ElementType) (size : Nat)
    (location : Location) (device : Nat) (stream : Stream) :
    (allocate dtype size location device stream).Leaves m
      (fun b m' => m'.Accounts (b.owned + A)) (·.Accounts A) :=
  .bind (.attempt (fun _ _ ha => h.acquire ha) h) fun _ _ h' => .change_bind (.pure (h'.emit id))

theorem accounts_transfer (h : m.Accounts A) (dst : Location) (dstData : Pointer) (src : Location)
    (srcData : Pointer) (bytes : Nat) (stream : Stream) :
    (transfer dst dstData src srcData bytes stream).Leaves m (fun _ m' => m'.Accounts A)
      (·.Accounts A) := by
  have hsaid := h.emit (e := .bufferCopy (.between dst src) bytes stream) id
  unfold transfer
  split
  · exact .pure h
  · exact .change_bind (.step (fun _ hc => hsaid.copy hc) hsaid)

theorem accounts_copyTo (h : m.Accounts A) (b : Buffer) (location : Location) (device : Nat) :
    (b.copyTo location device).Leaves m (fun c m' => m'.Accounts (c.owned + A)) (·.Accounts A) :=
  .bind (accounts_allocate h ..) fun _ _ hc =>
    .bind (.orElseTidy (accounts_transfer hc ..) fun _ hc => accounts_release hc) fun _ _ hc =>
      .pure hc

/-- The source of a copy is given back, or its stream keeps it. -/
theorem accounts_retire (h : m.Accounts (b.owned + A)) (kind : CopyKind) :
    (b.retire kind m).Accounts A := by
  unfold retire
  split
  · unfold owned at h
    cases hb : b.storage with
    | borrowed location data =>
      rw [hb] at h
      exact (zero_add A) ▸ h
    | owned a =>
      rw [hb] at h
      exact Machine.Accounts.retain (g := .storage a) h b.stream
  · exact accounts_release h

theorem accounts_moveTo (h : m.Accounts (b.owned + A)) (location : Location) :
    (b.moveTo location).Leaves m (fun c m' => m'.Accounts (c.owned + A)) (·.Accounts A) := by
  unfold moveTo
  split
  · exact .pure h
  · refine .bind (.orElseTidy (accounts_copyTo h ..) fun _ h' => accounts_release h')
      fun c m' h' => ?_
    rw [add_left_comm] at h'
    exact .change_bind (.pure (accounts_retire h' _))

theorem accounts_ofBytes (h : m.Accounts A) (dtype : ElementType) (size : Nat) (bytes : List UInt8)
    (location : Location) (device : Nat) (stream : Stream) :
    (ofBytes dtype size bytes location device stream).Leaves m
      (fun b m' => m'.Accounts (b.owned + A)) (·.Accounts A) :=
  .bind (accounts_allocate h ..) fun _ _ h' =>
    .change_bind (accounts_moveTo (h'.write ..) location)

theorem accounts_fetchBytes (h : m.Accounts A) (b : Buffer) :
    b.fetchBytes.Leaves m (fun _ m' => m'.Accounts A) (·.Accounts A) := by
  unfold fetchBytes
  split
  · exact .change_bind (.get_bind (.pure (h.synchronize _)))
  · exact .bind (accounts_copyTo h ..) fun host _ h' =>
      .change_bind (.get_bind (.change_bind (.pure (accounts_release (h'.synchronize _)))))

theorem accounts_rebind (h : m.Accounts A) (b : Buffer) (stream : Stream) :
    (b.rebind stream m).2.Accounts A :=
  (h.emit (e := .reboundStream b.stream stream) id).synchronize _

/-- The machine accounts for `A`, and the other part is the buffer, perhaps bound to another
stream. -/
def Kept (b : Buffer) (A : Multiset Allocation) (p : Machine × Buffer) : Prop :=
  p.1.Accounts A ∧ p.2.owned = b.owned

/-- A copy into a buffer may bind it to another stream, and nothing else comes of it. -/
theorem kept_copyRange (h : m.Accounts A) (src dst : Buffer) (i j k : Nat) :
    (src.copyRange i j k).Leaves (m, dst) (fun _ => dst.Kept A) (dst.Kept A) := by
  have hissued : ∀ {m : Machine} {d : Buffer}, m.Accounts A → d.owned = dst.owned →
      Action.Leaves (Action.onFirst (transfer d.location (d.position i) src.location
        (src.position j) ((k - j) * src.dtype.width) d.stream)) (m, d)
        (fun _ => dst.Kept A) (dst.Kept A) := fun hm hd =>
    .onFirst ((accounts_transfer hm ..).mono (fun _ _ h => ⟨h, hd⟩) fun _ h => ⟨h, hd⟩)
  unfold Action.Leaves copyRange
  dsimp only
  cases inRange dst src i j k with
  | false => exact ⟨h, rfl⟩
  | true =>
    by_cases hs : dst.stream = src.stream
    · simp only [Bool.not_true, Bool.false_eq_true, if_false, if_pos hs]
      exact hissued h rfl
    · simp only [Bool.not_true, Bool.false_eq_true, if_false, if_neg hs]
      exact hissued (d := (dst.rebind src.stream m).1) (accounts_rebind h dst src.stream) rfl

end Buffer

/-! ## Tensors -/

namespace Tensor

theorem accounts_adopt {b : Buffer} (h : m.Accounts (b.owned + A)) (shape : Shape) :
    (adopt shape b).Leaves m (fun t m' => m'.Accounts (t.buffer.owned + A)) (·.Accounts A) :=
  .orElseTidy (.ofExcept (fun _ ht => by rwa [buffer_of_ofBuffer ht]) h) fun _ h' =>
    Buffer.accounts_release h'

theorem accounts_allocate (h : m.Accounts A) (dtype : ElementType) (shape : Shape)
    (location : Location) (device : Nat) (stream : Stream) :
    (allocate dtype shape location device stream).Leaves m
      (fun t m' => m'.Accounts (t.buffer.owned + A)) (·.Accounts A) := by
  unfold allocate
  cases shape.product? with
  | none => exact .throw h
  | some count =>
    exact .bind (Buffer.accounts_allocate h ..) fun _ _ h' => accounts_adopt h' shape

end Tensor

/-! ## Requests and responses -/

namespace Local.Request

variable {r : Request}

def owned (r : Request) : Multiset Allocation := (r.inputs.map fun i => i.data.owned).sum

theorem owned_addInput (r : Request) (i : StoredInput) :
    ({ r with inputs := r.inputs ++ [i] } : Request).owned = i.data.owned + r.owned := by
  unfold owned
  rw [List.map_append, List.sum_append, List.map_singleton, List.sum_singleton, add_comm]

theorem accounts_release (h : m.Accounts (r.owned + A)) : (r.release m).Accounts A :=
  h.foldl Buffer.accounts_release

theorem accounts_addInput (h : m.Accounts (r.owned + A)) (name : String) (dtype : ElementType)
    (shape : Shape) (xs : List dtype.Value) (location : Location) (device : Nat) :
    (r.addInput name dtype shape xs location device).Leaves m
      (fun r' m' => m'.Accounts (r'.owned + A)) (·.Accounts A) := by
  refine .orElseTidy ?_ fun m' (h' : m'.Accounts (r.owned + A)) => accounts_release h'
  split
  · exact .throw h
  · refine .bind (Buffer.accounts_ofBytes h ..) fun data m' h' => .change_bind (.pure ?_)
    rw [owned_addInput, add_assoc]
    exact h'.synchronize _

end Local.Request

/-- A request is made with all its inputs, or nothing of it is left. -/
theorem BatchCommand.accounts_storeInputs (specs : List InputSpec) {r : Request}
    (h : m.Accounts (r.owned + A)) :
    (storeInputs r specs).Leaves m (fun r' m' => m'.Accounts (r'.owned + A)) (·.Accounts A) := by
  induction specs generalizing r m with
  | nil => exact .pure h
  | cons i rest ih =>
    exact .bind (Request.accounts_addInput h ..) fun _ _ h' => ih h'

namespace Local.Response

def owned (r : Response) : Multiset Allocation := (r.outputs.map fun o => o.data.owned).sum

/-- Responses to which nothing was delivered own nothing. -/
theorem sum_owned_empty (rs : List Request) : ((rs.map empty).map owned).sum = 0 := by
  rw [List.map_map]
  exact List.sum_eq_zero fun x hx => by
    obtain ⟨r, -, rfl⟩ := List.mem_map.mp hx
    rfl

theorem accounts_release {r : Response} (h : m.Accounts (r.owned + A)) :
    (r.release m).Accounts A := h.foldl Buffer.accounts_release

/-- The elements of an output are only read. -/
theorem accounts_toList (h : m.Accounts A) (o : DeliveredOutput) (dtype : ElementType) :
    (o.toList dtype).Leaves m (fun _ m' => m'.Accounts A) (·.Accounts A) := by
  unfold DeliveredOutput.toList
  split
  · exact .throw h
  · exact .bind (Buffer.accounts_fetchBytes h o.data) fun _ _ h' => .pure h'

/-- What a response is given is added to what the responses own. -/
theorem sum_owned_modify {rs : List Response} {index : Nat} (hi : index < rs.length)
    (o : DeliveredOutput) :
    ((rs.modify index fun r => { r with outputs := r.outputs ++ [o] }).map owned).sum =
      o.data.owned + (rs.map owned).sum := by
  induction rs generalizing index with
  | nil => exact absurd hi (Nat.not_lt_zero index)
  | cons r rs ih =>
    cases index with
    | zero =>
      rw [List.modify_zero_cons, List.map_cons, List.map_cons, List.sum_cons, List.sum_cons]
      unfold owned
      rw [List.map_append, List.sum_append, List.map_singleton, List.sum_singleton]
      abel
    | succ index =>
      rw [List.modify_succ_cons, List.map_cons, List.map_cons, List.sum_cons, List.sum_cons,
        ih (Nat.lt_of_succ_lt_succ hi), add_left_comm]

end Local.Response

/-! ## Gathering -/

namespace Local.Gather

variable {g : Gather}

def owned (g : Gather) : Multiset Allocation := (g.staging.map Buffer.owned).sum

theorem kept_fillFrom (parts : List StoredInput) {b : Buffer} {p : Machine × Buffer} {offset : Nat}
    (h : b.Kept A p) :
    (fillFrom stream offset parts).Leaves p (fun _ => b.Kept A) (b.Kept A) := by
  induction parts generalizing p offset with
  | nil => exact .pure h
  | cons part rest ih =>
    refine .bind (P := fun _ => b.Kept A) ?_ fun _ _ hp => ih hp
    exact (Buffer.kept_copyRange h.1 { part.data with
      storage := .borrowed part.data.location part.data.data, stream } p.2 offset 0
      part.data.size).mono (fun _ _ hp => ⟨hp.1, hp.2.trans h.2⟩) fun _ hp => ⟨hp.1, hp.2.trans h.2⟩

theorem accounts_concatenate (h : m.Accounts A) (parts : List StoredInput) (location : Location)
    (device : Nat) (stream : Stream) :
    (concatenate parts location device stream).Leaves m
      (fun b m' => m'.Accounts (b.owned + A)) (·.Accounts A) := by
  refine .bind (Buffer.accounts_allocate h ..) fun b m' h' => ?_
  have hfill : (fillFrom stream 0 parts).Leaves (m', b) (fun _ => b.Kept (b.owned + A))
      (b.Kept (b.owned + A)) := kept_fillFrom parts ⟨h', rfl⟩
  unfold Action.Leaves at hfill ⊢
  dsimp only
  cases hrun : fillFrom stream 0 parts (m', b) with
  | ok u p =>
    rw [hrun] at hfill
    show p.1.Accounts (p.2.owned + A)
    rw [hfill.2]
    exact hfill.1
  | error e p =>
    rw [hrun] at hfill
    refine Buffer.accounts_release (b := p.2) ?_
    rw [hfill.2]
    exact hfill.1

/-- The machine accounts for what the gathering side owns. -/
def Owns (A : Multiset Allocation) (p : Machine × Gather) : Prop := p.1.Accounts (p.2.owned + A)

theorem owns_collect {p : Machine × Gather} (h : Owns A p) (requests : List Request)
    (query : InputQuery) : (collect requests query).Leaves p (fun _ => Owns A) (Owns A) := by
  obtain ⟨m, g⟩ := p
  have haim : (aimed m query).Accounts (g.owned + A) := by
    unfold aimed
    split
    · exact Machine.Accounts.emit h id
    · exact h
  unfold Action.Leaves
  cases hparts : requests.mapM (fun r => r.input query.name) with
  | error e =>
    rw [collect_of_missing hparts]
    exact h
  | ok parts =>
    cases hin : inPlace? parts (target m query).1 (target m query).2 with
    | some single =>
      rw [collect_of_inPlace hparts hin]
      exact haim.emit id
    | none =>
      have hnew := accounts_concatenate haim parts (target m query).1 (target m query).2
        query.stream
      cases hg : concatenate parts (target m query).1 (target m query).2 query.stream
          (aimed m query) with
      | ok staging m' =>
        have hmade := hnew.of_ok hg
        rw [collect_of_ok hparts hin hg]
        refine Machine.Accounts.emit
          (A := owned { g with staging := g.staging ++ [staging] } + A) ?_ id
        unfold owned at hmade ⊢
        rw [List.map_append, List.sum_append, List.map_singleton, List.sum_singleton, add_assoc,
          add_left_comm]
        exact hmade
      | error e m' =>
        rw [collect_of_error hparts hin hg]
        exact hnew.of_error hg

/-- The staging buffers are given back. -/
theorem accounts_close (h : m.Accounts (g.owned + A)) : (g.close m).Accounts A := by
  unfold owned at h
  unfold close
  cases hg : g.staging with
  | nil =>
    rw [hg] at h
    exact (zero_add A) ▸ h
  | cons b bs =>
    rw [hg] at h
    exact (h.synchronize g.stream).foldl Buffer.accounts_release

end Local.Gather

/-! ## Scattering -/

namespace Local.Scatter

variable {scatter : Scatter} {rs : List Response}

theorem accounts_copySlice (h : m.Accounts A) (source : Buffer) (slice : Slice)
    (location : Location) (device : Nat) :
    (copySlice source slice location device).Leaves m
      (fun b m' => m'.Accounts (b.owned + A)) (·.Accounts A) := by
  refine .bind (Buffer.accounts_allocate h ..) fun b m' h' => ?_
  have hcopy := Buffer.kept_copyRange h' source b 0 slice.start (slice.start + slice.length)
  unfold Action.Leaves at hcopy ⊢
  dsimp only
  cases hrun : source.copyRange 0 slice.start (slice.start + slice.length) (m', b) with
  | ok u p =>
    rw [hrun] at hcopy
    show p.1.Accounts (p.2.owned + A)
    rw [hcopy.2]
    exact hcopy.1
  | error e p =>
    rw [hrun] at hcopy
    refine Buffer.accounts_release (b := p.2) ?_
    rw [hcopy.2]
    exact hcopy.1

/-- The machine accounts for what the responses own, of which there are `n`. -/
def Owns (A : Multiset Allocation) (n : Nat) (p : Machine × Scatter × List Response) : Prop :=
  p.1.Accounts ((p.2.2.map Response.owned).sum + A) ∧ p.2.2.length = n

theorem owns_deliver {p : Machine × Scatter × List Response} {n index : Nat} (h : Owns A n p)
    (hi : index < n) (output : OutputView) (source : Buffer) (request : Request) (slice : Slice) :
    (deliver output source index request slice).Leaves p (fun _ => Owns A n) (Owns A n) := by
  obtain ⟨m, scatter, rs⟩ := p
  unfold deliver
  cases request.wants output.name with
  | none => exact .pure h
  | some place =>
    refine .bind (P := fun b q => q.1.Accounts (b.owned + ((q.2.2.map Response.owned).sum + A)) ∧
      q.2.2.length = n) (.onFirst ((accounts_copySlice h.1 source slice _ _).mono
        (fun _ _ h' => ⟨h', h.2⟩) fun _ h' => ⟨h', h.2⟩)) fun b q hq => .change ⟨?_, ?_⟩
    · show q.1.Accounts (((q.2.2.modify index _).map Response.owned).sum + A)
      rw [Response.sum_owned_modify (hq.2.symm ▸ hi), add_assoc]
      exact hq.1
    · exact (List.length_modify ..).trans hq.2

theorem owns_deliverFrom (output : OutputView) (source : Buffer) (pairs : List (Request × Slice))
    {p : Machine × Scatter × List Response} {n index : Nat} (h : Owns A n p)
    (hi : index + pairs.length ≤ n) :
    (deliverFrom output source index pairs).Leaves p (fun _ => Owns A n) (Owns A n) := by
  induction pairs generalizing p index with
  | nil => exact .pure h
  | cons pair rest ih =>
    rw [List.length_cons] at hi
    exact .bind (owns_deliver h (by omega) ..) fun _ _ h' => ih h' (by omega)

/-- What is scattered is owned by the responses. -/
theorem owns_process {p : Machine × Scatter × List Response} {n : Nat} (h : Owns A n p)
    (requests : List Request) (output : OutputView) :
    (process requests output).Leaves p (fun _ => Owns A n) (Owns A n) := by
  unfold process
  cases output.data with
  | none => exact .throw h
  | some data =>
    refine .get_bind (.ofExcept_bind (fun slices _ => ?_) h)
    refine .bind (owns_deliverFrom output _ _ h ?_) fun _ q h' => .change ⟨h'.1.emit id, h'.2⟩
    rw [Nat.zero_add]
    exact (List.length_take_le ..).trans (le_of_eq h.2)

theorem owns_finish {p : Machine × Scatter × List Response} {n : Nat} (h : Owns A n p) :
    finish.Leaves p (fun _ => Owns A n) (Owns A n) :=
  .get_bind (.change_bind (.pure h))

end Local.Scatter

namespace Local.Sides

/-- The machine accounts for what the responses own, and the gathering side is as it was. -/
def Owns (A : Multiset Allocation) (n : Nat) (inputs : Gather)
    (p : Machine × Sides × List Response) : Prop :=
  Scatter.Owns A n (p.1, p.2.1.outputs, p.2.2) ∧ p.2.1.inputs = inputs

theorem owns_onOutputs {α : Type} {act : Action (Machine × Scatter × List Response) α} {n : Nat}
    {inputs : Gather} {p : Machine × Sides × List Response}
    (hact : ∀ {q}, Scatter.Owns A n q → act.Leaves q (fun _ => Scatter.Owns A n) (Scatter.Owns A n))
    (h : Owns A n inputs p) :
    (onOutputs act).Leaves p (fun _ => Owns A n inputs) (Owns A n inputs) :=
  .within ((hact h.1).mono (fun _ _ hq => ⟨hq, h.2⟩) fun _ hq => ⟨hq, h.2⟩)

end Local.Sides

/-! ## Batches -/

namespace Local.Batch

variable {b : Batch}

/-- The storage that goes with a batch: its responses, its staging buffers and its outputs. -/
def owned (b : Batch) : Multiset Allocation :=
  (b.responses.map Response.owned).sum +
    (b.held.inputs.owned + (b.outputs.map fun o => o.tensor.buffer.owned).sum)

/-- The machine accounts for what the batch owns. -/
def Owns (A : Multiset Allocation) (p : Machine × Batch) : Prop := p.1.Accounts (p.2.owned + A)

theorem owned_opening (requests : List Request) (settings : BatchSettings) (stream : Stream) :
    (opening requests settings stream).owned = 0 := by
  unfold owned opening
  rw [Response.sum_owned_empty]
  rfl

theorem accounts_create (h : m.Accounts A) (requests : List Request) (settings : BatchSettings)
    (stream : Stream) :
    (DeviceBatch.Batch.create exchange requests settings stream).Leaves (m, {})
      (fun (b : Local.Batch) p => p.1.Accounts (b.owned + A)) (·.1.Accounts A) := by
  unfold Action.Leaves
  rcases create_cases requests settings stream with ⟨e, -, he⟩ | ⟨-, hrun⟩
  · rw [he]
    exact h
  · rw [hrun]
    show Machine.Accounts _ ((opening requests settings stream).owned + A)
    rw [owned_opening, zero_add]
    exact (h.emit id).emit id

/-! Inputs. -/

theorem owns_onInputs {α : Type} {act : Action (Machine × Gather) α} {p : Machine × Batch}
    (hact : ∀ {B q}, Gather.Owns B q → act.Leaves q (fun _ => Gather.Owns B) (Gather.Owns B))
    (h : Owns A p) :
    (DeviceBatch.Batch.onInputs (Sides.onInputs act)).Leaves p (fun _ => Owns A) (Owns A) := by
  have hsplit : ∀ {m : Machine} {g : Gather}, m.Accounts ((p.2.responses.map Response.owned).sum +
      (g.owned + (p.2.outputs.map fun o => o.tensor.buffer.owned).sum) + A) ↔
      Gather.Owns ((p.2.responses.map Response.owned).sum +
        (p.2.outputs.map fun o => o.tensor.buffer.owned).sum + A) (m, g) := by
    intro m g
    unfold Gather.Owns
    rw [add_left_comm (a := (p.2.responses.map Response.owned).sum), add_assoc]
  exact .within (.within ((hact (hsplit.mp h)).mono (fun _ _ => hsplit.mpr) fun _ => hsplit.mpr))

theorem owned_of_toBuffer {c : CollectedInput} {dtype : ElementType} {query : InputQuery}
    {b : Buffer} (h : c.toBuffer dtype query = .ok b) : b.owned = 0 := by
  unfold CollectedInput.toBuffer at h
  split at h
  · cases h
  · split at h
    · cases h
      rfl
    · split at h
      · cases h
      · split at h
        · cases h
        · split at h
          · cases h
          · cases h
            rfl

/-- An input of a batch owns nothing: it lies in what the batch or one of its requests owns. -/
theorem owns_getInput {p : Machine × Batch} (h : Owns A p) (name : String) (dtype : ElementType)
    (location : Location) (device : Nat) :
    (DeviceBatch.Batch.getInput exchange name dtype location device).Leaves p
      (fun t q => Owns A q ∧ t.buffer.owned = 0) (Owns A) := by
  refine .get_bind (.ofExcept_bind (fun shape _ => .ofExcept_bind (fun bytes _ => ?_) h) h)
  refine .bind (owns_onInputs (fun hq => Gather.owns_collect hq p.2.requests _) h) fun c q hq => ?_
  refine .ofExcept_bind (fun buffer hb => .change_bind ?_) hq
  have hsaid : Owns A (q.1.emit (.collectedInput name shape c.byteSize location), q.2) :=
    Machine.Accounts.emit hq id
  refine .ofExcept (fun t ht => ⟨hsaid, ?_⟩) hsaid
  rw [Tensor.buffer_of_ofBuffer ht]
  exact owned_of_toBuffer hb

/-! Outputs. -/

theorem owns_getOutput {p : Machine × Batch} (h : Owns A p) (name : String) (dtype : ElementType)
    (shape : Shape) (location : Location) (device : Nat) :
    (DeviceBatch.Batch.getOutput name dtype shape location device).Leaves p (fun _ => Owns A)
      (Owns A) := by
  obtain ⟨m, b⟩ := p
  refine .get_bind (.ofExcept_bind (fun _ _ => ?_) h)
  split
  · exact .throw h
  · refine .bind (P := fun t q => q.1.Accounts (t.buffer.owned + (owned q.2 + A)))
      (.onFirst (Tensor.accounts_allocate h ..)) fun t q hq => .change_bind (.pure ?_)
    refine Machine.Accounts.emit (A := owned { q.2 with outputs := q.2.outputs ++ [⟨name, t⟩] } + A)
      ?_ id
    unfold owned at hq ⊢
    rw [List.map_append, List.sum_append, List.map_singleton, List.sum_singleton]
    convert hq using 1
    abel

/-- Binding an output to another stream changes nothing of what is owned. -/
theorem owned_withOutputStream (b : Batch) (name : String) (stream : Stream) :
    owned (b.withOutputStream name stream) = b.owned := by
  unfold owned DeviceBatch.Batch.withOutputStream
  rw [List.map_map]
  congr 4
  funext o
  show (if o.name = name then _ else o : RecordedOutput).tensor.buffer.owned = _
  split <;> rfl

theorem owns_scatterAll (requests : List Request) (outputs : List RecordedOutput) {n : Nat}
    {inputs : Gather} {p : Machine × Sides × List Response} (h : Sides.Owns A n inputs p) :
    (DeviceBatch.Batch.scatterAll exchange requests outputs).Leaves p
      (fun _ => Sides.Owns A n inputs) (Sides.Owns A n inputs) := by
  induction outputs generalizing p with
  | nil => exact Sides.owns_onOutputs (fun hq => Scatter.owns_finish hq) h
  | cons o rest ih =>
    exact .bind (Sides.owns_onOutputs (fun hq => Scatter.owns_process hq requests _) h)
      fun _ _ hq => ih hq

/-- Outputs become parts of responses, whether all of them get there or not. -/
theorem owns_flush {p : Machine × Batch} (h : Owns A p) :
    (DeviceBatch.Batch.flush exchange).Leaves p (fun _ => Owns A) (Owns A) := by
  obtain ⟨m, b⟩ := p
  have hback : ∀ {q : Machine × Sides × List Response}, Sides.Owns (b.held.inputs.owned +
      (b.outputs.map fun o => o.tensor.buffer.owned).sum + A) b.responses.length b.held.inputs q →
      Owns A (q.1, { b with held := q.2.1, responses := q.2.2 }) := by
    intro q hq
    unfold Owns owned
    rw [add_assoc, hq.2]
    exact hq.1.1
  have hscatter : (DeviceBatch.Batch.onOutputs (DeviceBatch.Batch.scatterAll exchange b.requests
      b.outputs)).Leaves (m, b) (fun _ => Owns A) (Owns A) := by
    refine .within ((owns_scatterAll b.requests b.outputs ⟨⟨?_, rfl⟩, rfl⟩).mono
      (fun _ _ => hback) fun _ => hback)
    rw [← add_assoc]
    exact h
  refine leaves_flush (hscatter.mono (fun waiting q hq => ?_) fun q hq =>
    Machine.Accounts.synchronize hq q.2.stream)
  cases waiting with
  | false => exact hq
  | true => exact Machine.Accounts.synchronize hq q.2.stream

theorem owns_finalize {p : Machine × Batch} (h : Owns A p) :
    (DeviceBatch.Batch.finalize exchange).Leaves p (fun _ => Owns A) (Owns A) := by
  obtain ⟨m, b⟩ := p
  cases hstate : b.state with
  | finalized =>
    unfold Action.Leaves DeviceBatch.Batch.finalize
    dsimp only
    rw [hstate]
    exact h
  | opened =>
    have hflush := owns_flush (p := (m, { b with state := .finalized })) h
    exact leaves_finalize hstate (hflush.mono
      (fun _ _ hq => (((Machine.Accounts.emit hq id).emit id).withMetrics _).emit id)
      fun _ hq _ => (((Machine.Accounts.emit hq id).emit id).withMetrics _).emit id)

/-! The end. -/

theorem accounts_releaseRest
    (h : m.Accounts (b.held.inputs.owned +
      ((b.outputs.map fun o => o.tensor.buffer.owned).sum + A))) :
    (b.releaseRest exchange m).Accounts A :=
  (Gather.accounts_close h).foldl Buffer.accounts_release

theorem accounts_release (h : m.Accounts (b.owned + A)) : (b.release exchange m).Accounts A := by
  unfold owned at h
  rw [add_assoc, add_assoc] at h
  exact accounts_releaseRest (h.foldl Response.accounts_release)

end Local.Batch

end DeviceBatch
