import Mathlib.Order.Defs.Unbundled
import DeviceBatch.Proofs.Lifecycle
import DeviceBatch.Proofs.Postings

/-!
# Every operation is made of steps

Whatever an operation of any layer is given and wherever it stops, the machine that it leaves is
some steps further on, and none of them reports a batch (`Machine.Proceeds`). There is one lemma for
each operation, and nothing is assumed of the machine or of what the operation works on. Only
finalizing an open batch reports one, as its last step (`Local.Batch.finalize_reports`).
-/

namespace DeviceBatch

open Local

namespace Machine

variable {m m' m'' : Machine}

/-- `m'` is some steps further on than `m`, and no batch has been reported. -/
def Proceeds (m m' : Machine) : Prop :=
  ∃ postings, m.Works postings m' ∧ ∀ d ∈ postings, d.isReport = false

namespace Proceeds

@[refl] theorem refl (m : Machine) : m.Proceeds m := ⟨[], .nothing m, nofun⟩

theorem trans (h : m.Proceeds m') (h' : m'.Proceeds m'') : m.Proceeds m'' := by
  obtain ⟨postings, hworks, hpostings⟩ := h
  obtain ⟨more, hworks', hmore⟩ := h'
  exact ⟨postings ++ more, hworks.trans hworks', List.forall_mem_append.mpr ⟨hpostings, hmore⟩⟩

instance : IsPreorder Machine Proceeds where
  refl := refl
  trans _ _ _ := trans

theorem of_does {postings : List Posting} (hd : m.Does postings m')
    (h : ∀ d ∈ postings, d.isReport = false) : m.Proceeds m' := ⟨postings, (Works.nothing m).step hd, h⟩

theorem foldl {β : Type} {f : Machine → β → Machine} (hf : ∀ (m : Machine) b, m.Proceeds (f m b))
    (bs : List β) (m : Machine) : m.Proceeds (bs.foldl f m) := by
  induction bs generalizing m with
  | nil => exact refl m
  | cons b bs ih => exact (hf m b).trans (ih (f m b))

/-! ## Machines -/

theorem emit (m : Machine) (event : Event) : m.Proceeds (m.emit event) :=
  of_does (.emits m event) nofun

theorem write (m : Machine) (p : Pointer) (bytes : List UInt8) :
    m.Proceeds { m with memory := m.memory.write p bytes } := of_does (.writes m p bytes) nofun

theorem takes (m : Machine) {queues : Queues} (h : queues ⊆ m.queues) :
    m.Proceeds { m with queues } := of_does (.takes m h) nofun

theorem runCopies (m : Machine) (copies : List PendingCopy) : m.Proceeds (m.runCopies copies) :=
  of_does (.performs m copies) nofun

theorem allocate {bytes device block : Nat} {location : Location}
    (h : m.allocate bytes location device = .ok (block, m')) : m.Proceeds m' :=
  of_does (.allocates h) fun _ hd => by
    rw [List.mem_singleton.mp hd]
    rfl

theorem reclaim {a : Allocation} (h : m.reclaim a = .ok m') : m.Proceeds m' :=
  of_does (.releases h) fun _ hd => by
    rw [List.mem_singleton.mp hd]
    rfl

theorem copy {kind : CopyKind} {dst src : Pointer} {bytes : Nat} {stream : Stream}
    (h : Machine.copy kind dst src bytes stream m = .ok m') : m.Proceeds m' := by
  by_cases hne : m' = m
  · exact hne ▸ refl m
  · refine of_does (.copies h hne) fun _ hd => ?_
    rw [List.mem_singleton.mp hd]
    rfl

theorem acquire {bytes device : Nat} {location : Location} {a : Allocation}
    (h : Machine.acquire bytes location device m = .ok (a, m')) : m.Proceeds m' := by
  unfold Machine.acquire at h
  split at h
  · cases h
  split at h
  · cases h
  split at h
  · cases h
    exact refl m
  split at h
  · cases h
  · next hgiven =>
    cases h
    exact allocate hgiven

theorem releaseIdle (m : Machine) (a : Allocation) : m.Proceeds (m.releaseIdle a) := by
  unfold Machine.releaseIdle
  split
  · exact refl m
  · cases hr : m.reclaim a with
    | ok m' => exact reclaim hr
    | error e => exact emit m _

theorem dropGuardIdle (m : Machine) (g : Guard) : m.Proceeds (m.dropGuardIdle g) := by
  cases g with
  | storage a => exact releaseIdle m a
  | token name => exact refl m

theorem drainIdle (m : Machine) (q : StreamQueue) : m.Proceeds (m.drainIdle q) :=
  (runCopies m q.copies).trans (foldl dropGuardIdle q.guards _)

theorem drainAll (m : Machine) : m.Proceeds m.drainAll :=
  (takes m (List.nil_subset _)).trans (foldl drainIdle _ _)

theorem settleFor (m : Machine) (location : Location) : m.Proceeds (m.settleFor location) := by
  cases location with
  | host => exact refl m
  | device => exact drainAll m

theorem release (m : Machine) (a : Allocation) : m.Proceeds (m.release a) := by
  unfold Machine.release
  split
  · exact refl m
  · exact (settleFor m a.location).trans (releaseIdle _ a)

theorem dropGuard (m : Machine) (g : Guard) : m.Proceeds (m.dropGuard g) := by
  cases g with
  | storage a => exact release m a
  | token name => exact refl m

theorem drain (m : Machine) (s : Stream) : m.Proceeds (m.drain s) := by
  unfold Machine.drain
  split
  · exact refl m
  · next q _ =>
    have htaken : m.Proceeds { m.emit (.drainedStream s q.copies.length) with
        queues := m.queues.remove s } :=
      (emit m _).trans (takes _ (List.filter_subset_self _))
    exact (htaken.trans (runCopies _ q.copies)).trans (foldl dropGuard q.guards _)

theorem synchronize (m : Machine) (s : Stream) : m.Proceeds (m.synchronize s) :=
  (drain m s).trans (of_does (.synchronizes _) fun _ hd => by
    rw [List.mem_singleton.mp hd]
    rfl)

theorem retain (m : Machine) (s : Stream) (g : Guard) : m.Proceeds (m.retain s g) := by
  unfold Machine.retain
  split
  · exact dropGuard m g
  · exact of_does (.keeps m s g) nofun

end Proceeds

/-- `m'` is some steps further on than `m`, and so many batches have been reported, those that were
delivered with the given numbers of requests. -/
def Reports (m : Machine) (count : Nat) (samples : List Nat) (m' : Machine) : Prop :=
  ∃ postings, m.Works postings m' ∧ postings.countP Posting.isReport = count ∧
    postings.filterMap Posting.sample? = samples

theorem Reports.trans {count count' : Nat} {samples samples' : List Nat}
    (h : m.Reports count samples m') (h' : m'.Reports count' samples' m'') :
    m.Reports (count + count') (samples ++ samples') m'' := by
  obtain ⟨postings, hworks, rfl, rfl⟩ := h
  obtain ⟨more, hworks', rfl, rfl⟩ := h'
  exact ⟨postings ++ more, hworks.trans hworks', List.countP_append, List.filterMap_append⟩

theorem Proceeds.reports (h : m.Proceeds m') : m.Reports 0 [] m' := by
  obtain ⟨postings, hworks, hpostings⟩ := h
  refine ⟨postings, hworks, ?_, ?_⟩
  · rw [List.countP_eq_zero]
    exact fun d hd => by rw [hpostings d hd]; exact Bool.false_ne_true
  · rw [List.filterMap_eq_nil_iff]
    intro d hd
    have hreport := hpostings d hd
    cases d with
    | delivered => cases hreport
    | _ => rfl

theorem reports_of_does {d : Posting} (hd : m.Does [d] m') (h : d.isReport = true) :
    m.Reports 1 d.sample?.toList m' := by
  refine ⟨[d], (Works.nothing m).step hd, ?_, ?_⟩
  · rw [List.countP_singleton, if_pos h]
  · cases hs : d.sample? <;> simp [hs]

theorem Proceeds.reports_of_success (h : m.Proceeds m') {requests : Nat} (outputs : Nat)
    (waited : Bool) : m.Reports 1 [requests] (Batch.reportSuccess requests outputs waited m') :=
  ((h.trans (.emit m' _)).trans (.emit _ _)).reports.trans
    ((reports_of_does (.delivers _ requests waited) rfl).trans (Proceeds.emit _ _).reports)

theorem Proceeds.reports_of_failure (h : m.Proceeds m') (e : Error) :
    m.Reports 1 [] (Batch.reportFailure e m') :=
  ((h.trans (.emit m' _)).trans (.emit _ _)).reports.trans
    ((reports_of_does (.fails _) rfl).trans (Proceeds.emit _ _).reports)

end Machine

/-! ## Actions -/

/-- Whatever comes of the action, `R` relates the state that it finds to the one that it leaves. -/
def Action.Keeps {σ α : Type} (R : σ → σ → Prop) (act : Action σ α) : Prop :=
  ∀ s, act.Leaves s (fun _ => R s) (R s)

namespace Action.Keeps

variable {σ τ α β : Type} {R : σ → σ → Prop} {R' : τ → τ → Prop} {act : Action σ α}
  {f : α → Action σ β}

theorem step {f : σ → Except Error σ} [Std.Refl R] (hf : ∀ s s', f s = .ok s' → R s s') :
    Action.Keeps R (Action.step f) := fun s => .step (hf s) (refl s)

theorem attempt {f : σ → Except Error (α × σ)} [Std.Refl R]
    (hf : ∀ s a s', f s = .ok (a, s') → R s s') : Action.Keeps R (Action.attempt f) := fun s =>
  .attempt (hf s) (refl s)

theorem change {f : σ → σ} (hf : ∀ s, R s (f s)) : Action.Keeps R (Action.change f) := fun s =>
  .change (hf s)

theorem pure [Std.Refl R] (a : α) : Action.Keeps R (Pure.pure a : Action σ α) := fun s =>
  .pure (refl s)

theorem throw [Std.Refl R] (e : Error) :
    Action.Keeps R (MonadExcept.throw e : Action σ α) := fun s => .throw (refl s)

theorem ofExcept [Std.Refl R] (x : Except Error α) :
    Action.Keeps R (Action.ofExcept x : Action σ α) := fun s =>
  .ofExcept (fun _ _ => refl s) (refl s)

theorem get_bind {f : σ → Action σ β} (hf : ∀ s, (f s).Keeps R) :
    Action.Keeps R (get >>= f) := fun s => .get_bind (hf s s)

theorem bind [IsTrans σ R] (h : act.Keeps R) (hf : ∀ a, (f a).Keeps R) :
    Action.Keeps R (act >>= f) := fun s =>
  .bind (h s) fun a s' hs' =>
    (hf a s').mono (fun _ _ => trans_of R hs') fun _ => trans_of R hs'

theorem orElseTidy {tidy : σ → σ} [IsTrans σ R] (h : act.Keeps R) (ht : ∀ s, R s (tidy s)) :
    Action.Keeps R (act.orElseTidy tidy) := fun s =>
  .orElseTidy (h s) fun s' hs' => trans_of R hs' (ht s')

/-- An action on a part of the state. -/
theorem within {act : Action τ α} (h : act.Keeps R') {get : σ → τ} {put : τ → σ → σ}
    (hput : ∀ s t, R' (get s) t → R s (put t s)) : Action.Keeps R (act.within get put) := fun s =>
  .within ((h (get s)).mono (fun _ t => hput s t) fun t => hput s t)

end Action.Keeps

/-- The machine in a pair is some steps further on. -/
def Machine.ProceedsFirst {τ : Type} (p q : Machine × τ) : Prop := p.1.Proceeds q.1

instance {τ : Type} : IsPreorder (Machine × τ) Machine.ProceedsFirst where
  refl p := .refl p.1
  trans _ _ _ := Machine.Proceeds.trans

open Machine (Proceeds ProceedsFirst)

theorem Action.Keeps.onFirst {α τ : Type} {act : Action Machine α} (h : act.Keeps Proceeds) :
    Action.Keeps (σ := Machine × τ) ProceedsFirst act.onFirst := h.within fun _ _ ht => ht

theorem Machine.keeps_deallocate {a : Allocation} : (deallocate a).Keeps Proceeds := fun m => by
  unfold Action.Leaves deallocate
  dsimp only
  cases hr : (m.settleFor a.location).reclaim a with
  | ok m' => exact (Proceeds.settleFor m a.location).trans (.reclaim hr)
  | error e => exact .settleFor m a.location

/-! ## Buffers and tensors -/

namespace Buffer

variable {dtype : ElementType} {size : Nat} {bytes : List UInt8} {location : Location}
  {device : Nat} {stream : Stream}

theorem proceeds_release (b : Buffer) (m : Machine) : m.Proceeds (b.release m) := by
  unfold release
  split
  · exact .refl m
  · exact .release m _

theorem keeps_allocate : (allocate dtype size location device stream).Keeps Proceeds :=
  .bind (.attempt fun _ _ _ => .acquire) fun _ =>
    .bind (.change fun m => .emit m _) fun _ => .pure _

theorem keeps_peek (b : Buffer) : b.peek.Keeps Proceeds :=
  .bind (.ofExcept _) fun _ => .get_bind fun _ => .pure _

theorem keeps_poke (b : Buffer) {index : Nat} {xs : List b.dtype.Value} :
    (b.poke index xs).Keeps Proceeds := by
  refine .bind (.ofExcept _) fun _ => ?_
  split
  · exact .change fun m => .write m _ _
  · exact .pure _

theorem proceeds_rebind (b : Buffer) (stream : Stream) (m : Machine) :
    m.Proceeds (b.rebind stream m).2 := (Machine.Proceeds.emit m _).trans (.synchronize _ _)

theorem keeps_transfer {dst src : Location} {dstData srcData : Pointer} {bytes : Nat} :
    (transfer dst dstData src srcData bytes stream).Keeps Proceeds := by
  unfold transfer
  split
  · exact .pure _
  · exact .bind (.change fun m => .emit m _) fun _ => .step fun _ _ => .copy

theorem keeps_copyTo (b : Buffer) : (b.copyTo location device).Keeps Proceeds :=
  .bind keeps_allocate fun result =>
    .bind (.orElseTidy keeps_transfer result.proceeds_release) fun _ => .pure _

theorem proceeds_retire (b : Buffer) (kind : CopyKind) (m : Machine) :
    m.Proceeds (b.retire kind m) := by
  unfold retire
  split
  · split
    · exact .refl m
    · exact .retain m _ _
  · exact b.proceeds_release m

theorem keeps_moveTo (b : Buffer) : (b.moveTo location).Keeps Proceeds := by
  unfold moveTo
  split
  · exact .pure _
  · exact .bind (.orElseTidy b.keeps_copyTo b.proceeds_release) fun _ =>
      .bind (.change (b.proceeds_retire _)) fun _ => .pure _

theorem keeps_ofBytes : (ofBytes dtype size bytes location device stream).Keeps Proceeds :=
  .bind keeps_allocate fun staged =>
    .bind (.change fun m => .write m _ _) fun _ => staged.keeps_moveTo

theorem keeps_fetchBytes (b : Buffer) : b.fetchBytes.Keeps Proceeds := by
  unfold fetchBytes
  split
  · exact .bind (.change fun m => .synchronize m _) fun _ => .get_bind fun _ => .pure _
  · exact .bind b.keeps_copyTo fun host =>
      .bind (.change fun m => .synchronize m _) fun _ =>
        .get_bind fun _ => .bind (.change host.proceeds_release) fun _ => .pure _

theorem keeps_toList (b : Buffer) : b.toList.Keeps Proceeds :=
  .bind b.keeps_fetchBytes fun _ => .pure _

theorem keeps_copyRange {src : Buffer} {i j k : Nat} :
    (src.copyRange i j k).Keeps ProceedsFirst := by
  rintro ⟨m, dst⟩
  -- The copy itself is the last thing done, whether the destination had to be rebound or not.
  have hissued : ∀ {m' : Machine} {d : Buffer}, m.Proceeds m' →
      Action.Leaves (Action.onFirst (transfer d.location (d.position i) src.location
        (src.position j) ((k - j) * src.dtype.width) d.stream)) (m', d)
        (fun _ => ProceedsFirst (m, dst)) (ProceedsFirst (m, dst)) := fun hm =>
    (keeps_transfer.onFirst _).mono (fun _ _ => hm.trans) fun _ => hm.trans
  unfold Action.Leaves copyRange
  dsimp only
  cases inRange dst src i j k with
  | false => exact .refl m
  | true =>
    by_cases hs : dst.stream = src.stream
    · simp only [Bool.not_true, Bool.false_eq_true, if_false, if_pos hs]
      exact hissued (.refl m)
    · simp only [Bool.not_true, Bool.false_eq_true, if_false, if_neg hs]
      exact hissued (d := (dst.rebind src.stream m).1) (dst.proceeds_rebind src.stream m)

end Buffer

namespace Tensor

variable {dtype : ElementType} {shape : Shape} {location : Location} {device : Nat}
  {stream : Stream}

theorem keeps_adopt (b : Buffer) : (adopt shape b).Keeps Proceeds :=
  .orElseTidy (.ofExcept _) b.proceeds_release

theorem keeps_allocate : (allocate dtype shape location device stream).Keeps Proceeds := by
  unfold allocate
  split
  · exact .throw _
  · exact .bind Buffer.keeps_allocate keeps_adopt

end Tensor

/-! ## Requests and responses -/

namespace Local

theorem Request.proceeds_release (r : Request) (m : Machine) : m.Proceeds (r.release m) :=
  .foldl (fun m input => input.data.proceeds_release m) r.inputs m

theorem Request.keeps_addInput (r : Request) {name : String} {dtype : ElementType} {shape : Shape}
    {xs : List dtype.Value} {location : Location} {device : Nat} :
    (r.addInput name dtype shape xs location device).Keeps Proceeds := by
  refine .orElseTidy ?_ r.proceeds_release
  split
  · exact .throw _
  · exact .bind Buffer.keeps_ofBytes fun _ =>
      .bind (.change fun m => .synchronize m _) fun _ => .pure _

theorem Response.proceeds_release (r : Response) (m : Machine) : m.Proceeds (r.release m) :=
  .foldl (fun m o => o.data.proceeds_release m) r.outputs m

theorem DeliveredOutput.keeps_toList (o : DeliveredOutput) (dtype : ElementType) :
    (o.toList dtype).Keeps Proceeds := by
  unfold toList
  split
  · exact .bind (.throw _) fun _ => .bind o.data.keeps_fetchBytes fun _ => .pure _
  · exact .bind o.data.keeps_fetchBytes fun _ => .pure _

/-! ## Gathering and scattering -/

namespace Gather

variable {requests : List Request} {query : InputQuery} {parts : List StoredInput}
  {location : Location} {device : Nat} {stream : Stream}

theorem keeps_fillFrom {offset : Nat} : (fillFrom stream offset parts).Keeps ProceedsFirst := by
  induction parts generalizing offset with
  | nil => exact .pure _
  | cons part rest ih => exact .bind Buffer.keeps_copyRange fun _ => ih

theorem keeps_concatenate : (concatenate parts location device stream).Keeps Proceeds := by
  refine .bind Buffer.keeps_allocate fun staging m => ?_
  have hfilled : (fillFrom stream 0 parts).Leaves (m, staging) _ _ := keeps_fillFrom (m, staging)
  unfold Action.Leaves
  dsimp only
  cases hrun : fillFrom stream 0 parts (m, staging) with
  | ok _ p => exact hfilled.of_ok hrun
  | error e p => exact (hfilled.of_error hrun).trans (p.2.proceeds_release p.1)

theorem keeps_collect : (collect requests query).Keeps ProceedsFirst := by
  rintro ⟨m, g⟩
  have haim : m.Proceeds (aimed m query) := by
    unfold aimed
    split
    · exact .emit m _
    · exact .refl m
  unfold Action.Leaves
  cases hparts : requests.mapM (fun r => r.input query.name) with
  | error e =>
    rw [collect_of_missing hparts]
    exact .refl m
  | ok parts =>
    cases hin : inPlace? parts (target m query).1 (target m query).2 with
    | some single =>
      rw [collect_of_inPlace hparts hin]
      exact haim.trans (.emit _ _)
    | none =>
      have hnew : (concatenate parts (target m query).1 (target m query).2 query.stream).Keeps
          Proceeds := keeps_concatenate
      replace hnew := hnew (aimed m query)
      cases hg : concatenate parts (target m query).1 (target m query).2 query.stream
          (aimed m query) with
      | ok staging m' =>
        rw [collect_of_ok hparts hin hg]
        exact (haim.trans (hnew.of_ok hg)).trans (.emit _ _)
      | error e m' =>
        rw [collect_of_error hparts hin hg]
        exact haim.trans (hnew.of_error hg)

theorem proceeds_close (gather : Gather) (m : Machine) : m.Proceeds (gather.close m) := by
  unfold close
  split
  · exact .refl m
  · exact (Machine.Proceeds.synchronize m _).trans
      (.foldl (fun m b => b.proceeds_release m) _ _)

end Gather

namespace Scatter

variable {requests : List Request} {output : OutputView} {source : Buffer} {slice : Slice}
  {location : Location} {device index : Nat}

theorem keeps_copySlice : (copySlice source slice location device).Keeps Proceeds := by
  refine .bind Buffer.keeps_allocate fun target m => ?_
  have hcopied : (source.copyRange 0 slice.start (slice.start + slice.length)).Leaves
    (m, target) _ _ := Buffer.keeps_copyRange (m, target)
  unfold Action.Leaves
  dsimp only
  cases hrun : source.copyRange 0 slice.start (slice.start + slice.length) (m, target) with
  | ok _ p => exact hcopied.of_ok hrun
  | error e p => exact (hcopied.of_error hrun).trans (p.2.proceeds_release p.1)

theorem keeps_deliver {request : Request} :
    (deliver output source index request slice).Keeps ProceedsFirst := by
  unfold deliver
  split
  · exact .pure _
  · exact .bind keeps_copySlice.onFirst fun _ => .change fun p => .refl p.1

theorem keeps_deliverFrom {parts : List (Request × Slice)} :
    (deliverFrom output source index parts).Keeps ProceedsFirst := by
  induction parts generalizing index with
  | nil => exact .pure _
  | cons part rest ih => exact .bind keeps_deliver fun _ => ih

theorem keeps_process : (process requests output).Keeps ProceedsFirst := by
  unfold process
  split
  · exact .throw _
  · exact .get_bind fun _ => .bind (.ofExcept _) fun _ => .bind keeps_deliverFrom fun _ =>
      .change fun p => .emit p.1 _

theorem keeps_finish : finish.Keeps ProceedsFirst :=
  .get_bind fun _ => .bind (.change fun p => .refl p.1) fun _ => .pure _

end Scatter

namespace Sides

variable {α : Type}

theorem keeps_onInputs {act : Action (Machine × Gather) α} (h : act.Keeps ProceedsFirst) :
    (onInputs act).Keeps ProceedsFirst := by
  unfold onInputs
  exact h.within fun _ _ ht => ht

theorem keeps_onOutputs {act : Action (Machine × Scatter × List Response) α}
    (h : act.Keeps ProceedsFirst) : (onOutputs act).Keeps ProceedsFirst := by
  unfold onOutputs
  exact h.within fun _ _ ht => ht

end Sides

/-! ## Batches -/

namespace Batch

open DeviceBatch.Batch

variable {α : Type} {name : String} {dtype : ElementType} {shape : Shape} {location : Location}
  {device : Nat}

/-- The machine is some steps further on, and the batch has the same requests and is in the same
state. -/
structure GoesOn (p q : Machine × Batch) : Prop where
  proceeds : p.1.Proceeds q.1
  requests : q.2.requests = p.2.requests
  state : q.2.state = p.2.state

instance : IsPreorder (Machine × Batch) GoesOn where
  refl p := ⟨.refl p.1, rfl, rfl⟩
  trans _ _ _ h h' := ⟨h.proceeds.trans h'.proceeds, h'.requests.trans h.requests,
    h'.state.trans h.state⟩

theorem keeps_onInputs {act : Action (Machine × Sides) α} (h : act.Keeps ProceedsFirst) :
    (onInputs act : Action (Machine × Batch) α).Keeps GoesOn := by
  unfold onInputs
  exact h.within fun _ _ ht => ⟨ht, rfl, rfl⟩

theorem keeps_onOutputs {act : Action (Machine × Sides × List Response) α}
    (h : act.Keeps ProceedsFirst) : (onOutputs act : Action (Machine × Batch) α).Keeps GoesOn := by
  unfold onOutputs
  exact h.within fun _ _ ht => ⟨ht, rfl, rfl⟩

theorem keeps_getInput : (getInput exchange name dtype location device).Keeps GoesOn :=
  .get_bind fun _ => .bind (.ofExcept _) fun _ => .bind (.ofExcept _) fun _ =>
    .bind (keeps_onInputs (Sides.keeps_onInputs Gather.keeps_collect)) fun _ =>
      .bind (.ofExcept _) fun _ => .bind (.change fun q => ⟨.emit q.1 _, rfl, rfl⟩) fun _ =>
        .ofExcept _

theorem keeps_getOutput : (getOutput name dtype shape location device :
    Action (Machine × Batch) Tensor).Keeps GoesOn := by
  have hmade : ∀ {stream}, ((Tensor.allocate dtype shape location device stream).onFirst :
      Action (Machine × Batch) Tensor).Keeps GoesOn :=
    Tensor.keeps_allocate.within fun _ _ h => ⟨h, rfl, rfl⟩
  refine .get_bind fun p => .bind (.ofExcept _) fun _ => ?_
  split
  · exact .bind (.throw _) fun _ => .bind hmade fun _ =>
      .bind (.change fun q => ⟨.emit q.1 _, rfl, rfl⟩) fun _ => .pure _
  · exact .bind hmade fun _ => .bind (.change fun q => ⟨.emit q.1 _, rfl, rfl⟩) fun _ => .pure _

theorem keeps_scatterAll {requests : List Request} {outputs : List RecordedOutput} :
    (scatterAll exchange requests outputs).Keeps ProceedsFirst := by
  induction outputs with
  | nil => exact Sides.keeps_onOutputs Scatter.keeps_finish
  | cons o rest ih => exact .bind (Sides.keeps_onOutputs Scatter.keeps_process) fun _ => ih

theorem keeps_flush : (flush exchange).Keeps GoesOn := by
  rintro ⟨m, b⟩
  have hscattered : (onOutputs (scatterAll exchange b.requests b.outputs)).Leaves (m, b)
      (fun _ => GoesOn (m, b)) (GoesOn (m, b)) := keeps_onOutputs keeps_scatterAll (m, b)
  -- After a failure the stream is waited for in any case, because copies may have been issued.
  have hwaited : ∀ {q : Machine × Batch}, GoesOn (m, b) q →
      GoesOn (m, b) (q.1.synchronize q.2.stream, q.2) := fun h =>
    ⟨h.proceeds.trans (.synchronize _ _), h.requests, h.state⟩
  unfold Action.Leaves flush
  dsimp only
  cases hrun : onOutputs (scatterAll exchange b.requests b.outputs) (m, b) with
  | ok waits q =>
    cases waits with
    | false => exact hscattered.of_ok hrun
    | true => exact hwaited (hscattered.of_ok hrun)
  | error e q => exact hwaited (hscattered.of_error hrun)

theorem proceeds_releaseRest (b : Batch) (m : Machine) :
    m.Proceeds (b.releaseRest exchange m) :=
  (b.held.inputs.proceeds_close m).trans
    (.foldl (fun m o => o.tensor.buffer.proceeds_release m) b.outputs _)

theorem proceeds_release (b : Batch) (m : Machine) : m.Proceeds (b.release exchange m) :=
  (Machine.Proceeds.foldl (fun m r => r.proceeds_release m) b.responses m).trans
    (b.proceeds_releaseRest _)

/-- Finalizing an open batch reports it, once and after everything else. -/
theorem finalize_reports {b : Batch} (hopen : b.state = .opened) (m : Machine) :
    (finalize exchange).Leaves (m, b)
      (fun _ q => q.2.state = .finalized ∧ m.Reports 1 [b.requests.length] q.1)
      fun q => q.2.state = .finalized ∧ m.Reports 1 [] q.1 := by
  unfold Action.Leaves finalize
  simp only [hopen]
  cases hrun : flush exchange (m, { b with state := .finalized }) with
  | ok waited q =>
    have hflushed := (keeps_flush (m, { b with state := .finalized })).of_ok hrun
    refine ⟨hflushed.state, ?_⟩
    rw [← show q.2.requests = b.requests from hflushed.requests]
    exact hflushed.proceeds.reports_of_success q.2.outputs.length waited
  | error e q =>
    have hflushed := (keeps_flush (m, { b with state := .finalized })).of_error hrun
    exact ⟨hflushed.state, hflushed.proceeds.reports_of_failure e⟩

end Batch

end Local

/-! ## Sessions -/

namespace Session

variable {α : Type} {name : String} {place : Place}

/-- The machine is some steps further on, and all batches are in the same state. -/
structure Continues (s s' : Session) : Prop where
  proceeds : s.machine.Proceeds s'.machine
  batch : s'.batch.map Batch.state = s.batch.map Batch.state
  aside : s'.aside = s.aside

instance : IsPreorder Session Continues where
  refl s := ⟨.refl s.machine, rfl, rfl⟩
  trans _ _ _ h h' := ⟨h.proceeds.trans h'.proceeds, h'.batch.trans h.batch, h'.aside.trans h.aside⟩

theorem keeps_consult {f : Session → Except Error α} : (consult f).Keeps Continues := fun s =>
  leaves_consult (fun _ _ => refl s) (refl s)

theorem keeps_onMachine {act : Action Machine α} (h : act.Keeps Proceeds) :
    (onMachine act).Keeps Continues := by
  unfold onMachine
  exact h.within fun _ _ hm => ⟨hm, rfl, rfl⟩

theorem keeps_changeMachine {f : Machine → Machine} (h : ∀ m : Machine, m.Proceeds (f m)) :
    (changeMachine f).Keeps Continues := keeps_onMachine (.change h)

theorem keeps_store {r : Resource} : (store name r).Keeps Continues :=
  .change fun s => ⟨.refl s.machine, rfl, rfl⟩

theorem keeps_take : (take name).Keeps Continues :=
  .bind keeps_consult fun _ => .bind (.change fun s => ⟨.refl s.machine, rfl, rfl⟩) fun _ => .pure _

theorem keeps_bufferAt : (bufferAt place).Keeps Continues := .bind keeps_consult fun _ => .pure _

/-- A buffer that is bound to another stream is the only difference. -/
theorem continues_bindAt (place : Place) (stream : Stream) (s : Session) :
    s.Continues (bindAt place stream s) := by
  cases place with
  | slot name =>
    unfold bindAt
    dsimp only
    split
    · exact ⟨.refl s.machine, rfl, rfl⟩
    · exact refl s
  | output name =>
    refine ⟨.refl s.machine, ?_, rfl⟩
    unfold bindAt
    cases s.batch <;> rfl

theorem keeps_onBatch {act : Action (Machine × Local.Batch) α} (h : act.Keeps Local.Batch.GoesOn) :
    (onBatch act).Keeps Continues := fun s => by
  refine leaves_consult_bind (refl s) fun b hb => ?_
  have hback : ∀ q : Machine × Local.Batch, Local.Batch.GoesOn (s.machine, b) q →
      s.Continues { s with machine := q.1, batch := some q.2 } := fun q hq => by
    refine ⟨hq.proceeds, ?_, rfl⟩
    rw [currentBatch_eq_ok hb]
    exact congrArg some hq.state
  exact .within ((h (s.machine, b)).mono (fun _ => hback) hback)

theorem keeps_onGather {act : Action (Machine × Gather) α} (h : act.Keeps ProceedsFirst) :
    (SideCommand.onGather act).Keeps Continues := .get_bind fun s => by
  cases s.gather with
  | none => exact .throw _
  | some gather => exact h.within fun _ _ hm => ⟨hm, rfl, rfl⟩

theorem keeps_onScatter {act : Action (Machine × Scatter × List Response) α}
    (h : act.Keeps ProceedsFirst) : (SideCommand.onScatter act).Keeps Continues :=
  .get_bind fun s => by
    cases s.scatter with
    | none => exact .throw _
    | some scatter => exact h.within fun _ _ hm => ⟨hm, rfl, rfl⟩

theorem keeps_keepBuffer {act : Action Session Buffer} (h : act.Keeps Continues) :
    (BufferCommand.keepBuffer name act).Keeps Continues :=
  .bind h fun _ => .bind keeps_store fun _ => .pure _

theorem keeps_keepTensor {act : Action Session Tensor} (h : act.Keeps Continues) :
    (BufferCommand.keepTensor name act).Keeps Continues :=
  .bind h fun _ => .bind keeps_store fun _ => .pure _

theorem keeps_copyBetween {dst src : Place} {dstOffset : Nat} {range : Option (Nat × Nat)} :
    (BufferCommand.copyBetween dst src dstOffset range).Keeps Continues := by
  refine .bind keeps_bufferAt fun target => .bind keeps_bufferAt fun source => ?_
  refine .bind (Buffer.keeps_copyRange.within fun s p hp => ?_) fun _ =>
    .bind keeps_bufferAt fun _ => .pure _
  have hcopied : s.Continues { s with machine := p.1 } := ⟨hp, rfl, rfl⟩
  exact trans_of Continues hcopied (continues_bindAt dst _ _)

/-! ## Commands -/

theorem keeps_buffer (c : BufferCommand) : c.run.Keeps Continues := by
  cases c with
  | allocate => exact keeps_keepBuffer (keeps_onMachine Buffer.keeps_allocate)
  | ofList => exact keeps_keepBuffer (keeps_onMachine Buffer.keeps_ofBytes)
  | copyTo | clone =>
    exact keeps_keepBuffer (.bind keeps_bufferAt fun b => keeps_onMachine b.keeps_copyTo)
  | moveTo =>
    exact keeps_keepBuffer (.bind keeps_take fun r => keeps_onMachine r.data.keeps_moveTo)
  | borrow => exact keeps_keepBuffer (.bind keeps_bufferAt fun _ => .pure _)
  | release =>
    exact .bind keeps_take fun r =>
      .bind (keeps_changeMachine r.data.proceeds_release) fun _ => .pure _
  | describe => exact .bind keeps_consult fun _ => .pure _
  | text => exact .bind keeps_consult fun _ => .get_bind fun _ => .pure _
  | sameData => exact .bind keeps_bufferAt fun _ => .bind keeps_bufferAt fun _ => .pure _
  | peek =>
    exact .bind keeps_bufferAt fun b => .bind (keeps_onMachine b.keeps_peek) fun _ => .pure _
  | toList =>
    exact .bind keeps_bufferAt fun b => .bind (keeps_onMachine b.keeps_toList) fun _ => .pure _
  | poke place index xs =>
    exact .bind keeps_bufferAt fun b => .bind (keeps_onMachine b.keeps_poke) fun _ => .pure _
  | rebind place stream =>
    exact .bind keeps_bufferAt fun b =>
      .bind (keeps_changeMachine (b.proceeds_rebind stream)) fun _ =>
        .bind (.change (continues_bindAt place stream)) fun _ => .pure _
  | copy => exact keeps_copyBetween
  | allocateTensor => exact keeps_keepTensor (keeps_onMachine Tensor.keeps_allocate)
  | toTensor =>
    exact keeps_keepTensor (.bind keeps_take fun r => keeps_onMachine (Tensor.keeps_adopt r.data))
  | toBuffer => exact keeps_keepBuffer (.bind keeps_take fun _ => .pure _)

theorem keeps_platform (c : PlatformCommand) : c.run.Keeps Continues := by
  have hnamed : ∀ raw, (PlatformCommand.rawNamed raw).Keeps Continues := fun _ => keeps_consult
  have hkeep : ∀ raw storage, (PlatformCommand.keepRaw raw storage).Keeps Continues := fun _ _ =>
    .bind (.change fun s => ⟨.refl s.machine, rfl, rfl⟩) fun _ => .pure _
  cases c with
  | describe | references => exact .get_bind fun _ => .pure _
  | synchronize =>
    exact .bind (keeps_changeMachine fun m => .synchronize m _) fun _ => .pure _
  | allocate =>
    exact .bind (keeps_onMachine (.attempt fun _ _ _ => .allocate)) fun _ => hkeep _ _
  | deallocate =>
    exact .bind (hnamed _) fun _ =>
      .bind (keeps_onMachine Machine.keeps_deallocate) fun _ => .pure _
  | storageOf => exact .bind keeps_bufferAt fun _ => hkeep _ _
  | write =>
    exact .bind (hnamed _) fun _ =>
      .bind (keeps_changeMachine fun m => .write m _ _) fun _ => .pure _
  | read => exact .bind (hnamed _) fun _ => .get_bind fun _ => .pure _
  | copy =>
    exact .bind (hnamed _) fun _ => .bind (hnamed _) fun _ =>
      .bind (keeps_onMachine (.step fun _ _ => .copy)) fun _ => .pure _
  | retain =>
    exact .bind (keeps_changeMachine fun m => .retain m _ _) fun _ => .get_bind fun _ => .pure _

theorem continues_dropGather (s : Session) : s.Continues (SideCommand.dropGather s) := by
  unfold SideCommand.dropGather
  split
  · exact refl s
  · exact ⟨Gather.proceeds_close _ s.machine, rfl, rfl⟩

theorem keeps_side (c : SideCommand) : c.run.Keeps Continues := by
  cases c with
  | openGather =>
    refine .bind (.change fun s => ?_) fun _ => .pure _
    have hdropped := continues_dropGather s
    exact ⟨hdropped.proceeds, hdropped.batch, hdropped.aside⟩
  | collect query =>
    refine .get_bind fun s => keeps_onGather fun p => ?_
    have hcollected : (Gather.collect s.requests query).Keeps ProceedsFirst := Gather.keeps_collect
    exact (hcollected p).outcome
  | closeGather => exact .bind (.change continues_dropGather) fun _ => .pure _
  | openScatter =>
    exact .bind (.change fun s =>
      ⟨.foldl (fun m r => Response.proceeds_release r m) s.kept s.machine, rfl, rfl⟩) fun _ =>
        .get_bind fun _ => .pure _
  | process =>
    exact .bind keeps_bufferAt fun _ => .get_bind fun _ =>
      .bind (keeps_onScatter Scatter.keeps_process) fun _ => .pure _
  | finishScatter => exact .bind (keeps_onScatter Scatter.keeps_finish) fun _ => .pure _

theorem keeps_storeInputs {r : Request} {inputs : List InputSpec} :
    (BatchCommand.storeInputs r inputs).Keeps Proceeds := by
  induction inputs generalizing r with
  | nil => exact .pure _
  | cons i rest ih => exact .bind r.keeps_addInput fun _ => ih

/-- A command that neither changes which batch is in progress nor finalizes it. -/
theorem keeps_batch (c : BatchCommand) (hturn : c.endsTurn = false) (hc : c ≠ .finalize) :
    c.run.Keeps Continues := by
  cases c with
  | request =>
    refine .bind (.bind (keeps_onMachine keeps_storeInputs) fun _ =>
      .bind (.change fun s => ⟨.refl s.machine, rfl, rfl⟩) fun _ => .pure _) fun _ => .pure _
  | describe => exact .bind keeps_consult fun _ => .pure _
  | combinedShape => exact .bind keeps_consult fun _ => .bind (.ofExcept _) fun _ => .pure _
  | getInput =>
    exact .bind (keeps_onBatch Local.Batch.keeps_getInput) fun _ =>
      .bind keeps_store fun _ => .pure _
  | getOutput => exact .bind (keeps_onBatch Local.Batch.keeps_getOutput) fun _ => .pure _
  | output =>
    refine .bind keeps_consult fun b => ?_
    split <;> exact .pure _
  | outputs => exact .bind keeps_consult fun _ => .pure _
  | finalize => exact absurd rfl hc
  | responses => exact .get_bind fun _ => .pure _
  | response =>
    refine .bind keeps_consult fun r => ?_
    split
    · exact .pure _
    · next o _ => exact .bind (keeps_onMachine (o.keeps_toList _)) fun _ => .pure _
  | create | takeResponses | drop | setAside | resume => cases hturn

end Session

end DeviceBatch
