import DeviceBatch.Proofs.Readiness
import DeviceBatch.Proofs.Reachable

/-!
# What a failed finalize delivers

Handing out the outputs stops at the first one that cannot be cut, or at the first slice for which
there is no storage. What was handed out before stays in the responses, and it is there: after a
failure the stream of the batch is always waited for (`Session.finalize_stops`).
-/

namespace DeviceBatch

open Local

/-! ## The metrics while work is done -/

namespace Machine

variable {m m' : Machine}

theorem metrics_releaseIdle (m : Machine) (a : Allocation) :
    (m.releaseIdle a).metrics = m.metrics := by
  unfold releaseIdle
  split
  · rfl
  · cases hr : m.reclaim a with
    | ok m' => exact (reclaim_eq_ok hr).metrics
    | error e => rfl

theorem metrics_drainIdle (m : Machine) (q : StreamQueue) :
    (m.drainIdle q).metrics = m.metrics := by
  have hcopies : (m.runCopies q.copies).metrics = m.metrics := rfl
  refine List.foldlRecOn (motive := fun m' => m'.metrics = m.metrics) q.guards dropGuardIdle hcopies
    fun m' h g _ => Eq.trans ?_ h
  cases g with
  | storage a => exact metrics_releaseIdle m' a
  | token name => rfl

theorem metrics_drainAll (m : Machine) : m.drainAll.metrics = m.metrics := by
  have hempty : { m with queues := [] }.metrics = m.metrics := rfl
  exact List.foldlRecOn (motive := fun m' => m'.metrics = m.metrics) _ drainIdle hempty
    fun m' h q _ => (metrics_drainIdle m' q).trans h

theorem metrics_dropGuard (m : Machine) (g : Guard) : (m.dropGuard g).metrics = m.metrics := by
  cases g with
  | token name => rfl
  | storage a =>
    show (m.release a).metrics = m.metrics
    unfold release settleFor
    split
    · rfl
    · rw [metrics_releaseIdle]
      cases a.location with
      | host => rfl
      | device => exact metrics_drainAll m

/-- Work that is done when it was waited for was counted when it was queued. -/
theorem metrics_drain (m : Machine) (s : Stream) : (m.drain s).metrics = m.metrics := by
  unfold drain
  cases m.queues.lookup s with
  | none => rfl
  | some q =>
    have hcopies : ({ m.emit (.drainedStream s q.copies.length) with
        queues := m.queues.remove s }.runCopies q.copies).metrics = m.metrics := rfl
    exact List.foldlRecOn (motive := fun m' => m'.metrics = m.metrics) q.guards dropGuard hcopies
      fun m' h g _ => (metrics_dropGuard m' g).trans h

theorem sameBatches_synchronize (m : Machine) (s : Stream) :
    m.metrics.SameBatches (m.synchronize s).metrics := by
  have hdrain : m.metrics.SameBatches (m.drain s).metrics := by
    rw [metrics_drain]
    exact .refl _
  exact hdrain.trans (.increment _ rfl 1)

end Machine

/-! ## Complete entries -/

namespace Local.Batch

/-- An entry of the response with number `i` is complete: its buffer, where the request wants it,
already has the bytes that the output had when the batch was finalized, in the rows of the
request. -/
structure Complete (m : Machine) (b : Batch) (m' : Machine) (i : Nat) (o : RecordedOutput)
    (d : DeliveredOutput) : Prop where
  name : d.name = o.name
  shape : d.shape =
    (Scatter.sliceOf b.held.outputs.maximum (b.requests.map Request.rows) o.tensor i).shape
  dtype : d.dtype = o.tensor.buffer.dtype
  placed : Scatter.wanted b.requests i o.name = some (d.data.location, d.data.device)
  bytes : d.data.bytes m' = Scatter.cut
    (Scatter.sliceOf b.held.outputs.maximum (b.requests.map Request.rows) o.tensor i)
    (o.tensor.buffer.bytes m)

/-- What a response has of an output that nothing else waited for is complete, however it was
copied. -/
theorem Obtained.complete {m m' : Machine} {b : Batch} {i : Nat} {o : RecordedOutput}
    {d : DeliveredOutput} {T : List Holding} (h : Obtained m b m' i o d) (hk : m.Keeps T)
    (hy : o.tensor.buffer.Readable T) (hidle : o.tensor.buffer.IsIdle m)
    (hstream : o.tensor.buffer.stream = b.stream) : Complete m b m' i o d where
  name := h.name
  shape := h.shape
  dtype := h.dtype
  placed := h.placed
  bytes := by
    have hsame : o.tensor.buffer.bytes m = o.tensor.buffer.outlookBytes m.outlook :=
      hy.bytes_of_unwritten hk fun hn t c hc heq => hidle hn t c hc (.inl heq)
    rw [h.present hstream, h.bytes, Scatter.part, ← hsame, ite_self]

end Local.Batch

/-! ## Where finalizing stops -/

namespace Session

/-- Finalizing stopped at the output with number `k`, when the requests before the one with number
`j` had got what they want of it. -/
structure StopsAt (s : Session) (b : Local.Batch) (e : Error) (s' : Session) (k j : Nat) :
    Prop where
  /-- The outputs before this one were handed out. The error is that of cutting this one, or of
  asking for storage for the next slice of it. -/
  cause : ∃ o q p, b.outputs[k]? = some o ∧
    Local.Batch.Reaches b.requests (b.outputs.take k) (s.machine, b.held, b.responses) q ∧
    Scatter.Stops b.requests q j o e p
  /-- The batch is finalized. Its responses have what was handed out, and nothing else. -/
  delivered : ∃ b', s'.batch = some b' ∧ b'.state = .finalized ∧ b'.requests = b.requests ∧
    b'.outputs = b.outputs ∧ b'.responses.length = b.requests.length ∧
    ∀ i r, b'.responses[i]? = some r → List.Forall₂ (b.Complete s.machine s'.machine i)
      ((b.outputs.take (if i < j then k + 1 else k)).filter fun o =>
        (Scatter.wanted b.requests i o.name).isSome) r.outputs
  settled : ∀ c, ¬ s'.machine.Pending b.stream c
  /-- All storage in use belongs to the session or is kept by a stream. -/
  keeps : s'.machine.Keeps s'.holdings
  failures : s'.machine.metrics.value .failures = s.machine.metrics.value .failures + 1
  finalized : ∀ synchronized, s'.machine.metrics.value (.finalized synchronized) =
    s.machine.metrics.value (.finalized synchronized)
  batchSizes : s'.machine.metrics.batchSizes = s.machine.metrics.batchSizes

variable {platform : Platform} {device : Nat} {s s' : Session} {b : Local.Batch}

/-- If finalizing an open batch fails, and its outputs are on its stream and nothing else waits for
them, then it stopped somewhere. The responses have complete entries of all outputs before that,
those of earlier requests also of the output at which it stopped, and nothing is lost or left to be
waited for. -/
theorem finalize_stops (h : Reachable platform device s) (hb : s.batch = some b)
    (hopen : b.state = .opened) (hstreams : ∀ o ∈ b.outputs, o.tensor.buffer.stream = b.stream)
    (hidle : ∀ o ∈ b.outputs, o.tensor.buffer.IsIdle s.machine) {e : Error}
    (he : s.perform (.batch .finalize) = (.error e, s')) : ∃ k j, s.StopsAt b e s' k j := by
  have hs := h.sound
  have hsound := hs.batch b hb
  have hkeeps : s'.machine.Keeps s'.holdings := by
    have hleads := hs.leads (c := .batch .finalize) trivial
    rw [he] at hleads
    exact hleads.sound.keeps
  obtain ⟨m, scatter, responses, -, -, -, -, hrun⟩ :=
    Local.Batch.finalize_cases (S := (· = b.stream)) hs.keeps hopen (hsound.opened hopen)
      hsound.single (fun o ho => hs.readable_output hb ho) hstreams
  rcases hrun with ⟨e', -, hrun, k, j, o, q, p, hfailed⟩ | ⟨hrun, -⟩
  · have hstopped : s.perform (.batch .finalize) =
        (.error e', { s with machine := m, batch := some (b.handed scatter responses) }) :=
      Action.outcome_of_error (Action.bind_of_error (onBatch_of_error hb hrun))
    obtain ⟨he', rfl⟩ := Prod.mk.inj (he.symm.trans hstopped)
    cases he'
    have hbatches := hfailed.batches.trans (Machine.sameBatches_synchronize p.1 b.stream)
    refine ⟨k, j, {
      cause := ⟨o, q, p, hfailed.output, hfailed.reached, hfailed.stops⟩
      delivered := ⟨b.handed scatter responses, rfl, rfl, rfl, rfl, hfailed.hands.1,
        fun i r hr => ?_⟩
      settled := hfailed.settled
      keeps := hkeeps
      failures := ?_
      finalized := fun synchronized => ?_
      batchSizes := ?_ }⟩
    · have htaken : b.outputs.take (if i < j then k + 1 else k) =
          b.outputs.take k ++ if i < j then [o] else [] := by
        split
        · rw [List.take_add_one, hfailed.output]
          rfl
        · rw [List.append_nil]
      rw [htaken]
      refine forall₂_imp_of_mem (hfailed.hands.2 i r hr) fun o' ho' d _ hgot => ?_
      have hmem : o' ∈ b.outputs :=
        List.mem_of_mem_take (htaken ▸ (List.mem_filter.mp ho').1)
      exact hgot.complete hs.keeps (hs.readable_output hb hmem) (hidle o' hmem) (hstreams o' hmem)
    · show m.metrics.value .failures = _
      rw [hfailed.machine]
      exact (Metrics.value_increment ..).trans (congrArg (· + 1) (hbatches.1 .failures rfl))
    · show m.metrics.value (.finalized synchronized) = _
      rw [hfailed.machine]
      exact (Metrics.value_increment ..).trans (hbatches.1 (.finalized synchronized) rfl)
    · show m.metrics.batchSizes = _
      rw [hfailed.machine]
      exact hbatches.2
  · have hdone : s.perform (.batch .finalize) =
        (.ok .done, { s with machine := m, batch := some (b.handed scatter responses) }) :=
      Action.outcome_of_ok (Action.bind_of_ok (onBatch_of_ok hb hrun))
    cases (Prod.mk.inj (he.symm.trans hdone)).1

/-- Two requests want both outputs on a device that has too little memory for the last slice. -/
def overdrawn : List Command := [
  .batch (.request 1 [⟨"x", .uint8, [1], [7], .host, 0⟩] [⟨"y", .device, 0⟩, ⟨"z", .device, 0⟩] []),
  .batch (.request 2 [⟨"x", .uint8, [1], [8], .host, 0⟩] [⟨"y", .device, 0⟩, ⟨"z", .device, 0⟩] []),
  .batch (.create (some 2) {} ⟨3⟩),
  .batch (.getOutput "y" .uint8 [2] .host 0),
  .batch (.getOutput "z" .uint8 [2] .device 0),
  .buffer (.poke (.output "y") 0 [5, 6])]

/-- The first request has its slices of both outputs, the second one has its slice of the first. -/
theorem overdrawn_stops :
    let s := ((start (.simulated ⟨1, 5, true⟩) 0).performAll overdrawn).2
    let s' := (s.perform (.batch .finalize)).2
    Reachable (.simulated ⟨1, 5, true⟩) 0 s ∧ ∃ b e, s.batch = some b ∧ b.state = .opened ∧
      (∀ o ∈ b.outputs, o.tensor.buffer.stream = b.stream) ∧
      (∀ o ∈ b.outputs, o.tensor.buffer.IsIdle s.machine) ∧
      (s.perform (.batch .finalize)).1 = .error e ∧ (∃ k j, s.StopsAt b e s' k j) ∧
      s'.batch.map (fun b => b.responses.map fun r => r.outputs.map DeliveredOutput.name) =
        some [["y", "z"], ["y"]] := by
  intro s s'
  have hreachable : Reachable (.simulated ⟨1, 5, true⟩) 0 s := by
    refine Reachable.start.performAll ⟨trivial, trivial, rfl, trivial, trivial, ⟨trivial, ?_⟩,
      trivial⟩
    intro r hr
    obtain ⟨-, t, -, -, -, rfl⟩ := resourceAt_output hr
    rfl
  have hfacts : (s.batch.any fun b => decide (b.state = .opened) &&
      b.outputs.all fun o => o.tensor.buffer.stream == b.stream) = true := by decide +kernel
  have hidle : s.machine.queues = [] := by decide +kernel
  obtain ⟨b, hb, h⟩ := Option.any_eq_true _ _ |>.mp hfacts
  rw [Bool.and_eq_true, decide_eq_true_iff, List.all_eq_true] at h
  have hstreams : ∀ o ∈ b.outputs, o.tensor.buffer.stream = b.stream :=
    fun o ho => beq_iff_eq.mp (h.2 o ho)
  have hnone : ∀ o ∈ b.outputs, o.tensor.buffer.IsIdle s.machine := by
    rintro o - hn stream c ⟨q, hq, -⟩
    rw [hidle] at hq
    cases hq
  have hfails : (s.perform (.batch .finalize)).1.isOk = false := by decide +kernel
  have hnames : s'.batch.map (fun b => b.responses.map fun r =>
      r.outputs.map DeliveredOutput.name) = some [["y", "z"], ["y"]] := by decide +kernel
  have hs' : (s.perform (.batch .finalize)).2 = s' := rfl
  clear_value s' s
  cases he : (s.perform (.batch .finalize)).1 with
  | ok reply =>
    rw [he] at hfails
    cases hfails
  | error e =>
    exact ⟨hreachable, b, e, hb, h.1, hstreams, hnone, rfl,
      finalize_stops hreachable hb h.1 hstreams hnone (Prod.ext he hs'), hnames⟩

end Session

end DeviceBatch
