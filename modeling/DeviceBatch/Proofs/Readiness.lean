import DeviceBatch.Proofs.Delivery

/-!
# What still waits when a batch was finalized

Copies to responses are queued on the streams of the outputs, and finalizing waits for the stream of
the batch. If all outputs are on it, no copy that waits afterwards touches a response, and one that
touches an output was there before and would not have been waited for: finalizing put nothing off
(`Session.finalize_settles`). An output that was bound to another stream is not waited for
(`Session.strayOutput_waits`).
-/

namespace DeviceBatch

open Local

/-- No copy that waits reads or writes the buffer. -/
def Buffer.IsIdle (b : Buffer) (m : Machine) : Prop := b.byteSize ≠ 0 → m.Untouched b.data.block

namespace Buffer

variable {m : Machine} {T : List Holding} {b : Buffer} {s : Stream}

/-- A buffer is idle when nothing waits on its stream. -/
theorem isIdle_of_not_pending (hk : m.Keeps T) (hb : b.Proper) (hT : b.holdings (.bound s) ⊆ T)
    (hnone : ∀ c, ¬ m.Pending s c) : b.IsIdle m := by
  intro hn
  obtain ⟨t, ht, -, -, -, hdata⟩ := hb.holding (List.Subset.refl (b.holdings (.bound s))) hn
  rw [hdata]
  exact untouched_of_idle hk hT hnone ht

end Buffer

/-- A copy from one buffer to another that waits. -/
theorem Machine.exists_pending {m : Machine} {x y : Buffer}
    (h : m.queues.any fun p => p.2.copies.any fun c =>
      c.src.block == x.data.block && c.dst.block == y.data.block)
    (hx : x.byteSize ≠ 0) (hy : y.byteSize ≠ 0) : ¬ x.IsIdle m ∧ ¬ y.IsIdle m := by
  obtain ⟨⟨s, q⟩, hq, h⟩ := List.any_eq_true.mp h
  obtain ⟨c, hc, h⟩ := List.any_eq_true.mp h
  rw [Bool.and_eq_true, beq_iff_eq, beq_iff_eq] at h
  exact ⟨fun hidle => hidle hx s c ⟨q, hq, hc⟩ (.inr h.1),
    fun hidle => hidle hy s c ⟨q, hq, hc⟩ (.inl h.2)⟩

namespace Session

variable {s : Session} {b : Local.Batch}

/-- If all outputs are on the stream of the batch, then no copy to or from a response waits after
finalizing, whether it succeeded or not. Copies from or to outputs wait only if they did before, and
nothing was put off that would have to be waited for. -/
theorem finalize_settles {platform : Platform} {device : Nat} {cs : List Command}
    (hcs : (start platform device).Permits cs)
    (hb : ((start platform device).performAll cs).2.batch = some b) (hopen : b.state = .opened)
    (hstreams : ∀ o ∈ b.outputs, o.tensor.buffer.stream = b.stream) :
    let s := ((start platform device).performAll cs).2
    let s' := (s.perform (.batch .finalize)).2
    (∀ r ∈ BatchCommand.visibleResponses s', ∀ d ∈ r.outputs, d.data.IsIdle s'.machine) ∧
      ((∀ o ∈ b.outputs, o.tensor.buffer.IsIdle s'.machine) ∨
        (s.perform (.batch .finalize)).1.isOk ∧ s'.machine.queues = s.machine.queues) := by
  intro s s'
  have hs : s.Sound := ((start_sound platform device).leads_performAll hcs).sound
  have hsound := hs.batch b hb
  obtain ⟨m, scatter, responses, hext, hfilled, honstream, -, hrun⟩ :=
    Local.Batch.finalize_cases (S := (· = b.stream)) hs.keeps hopen (hsound.opened hopen)
      hsound.single (fun o ho => hs.readable_output hb ho) hstreams
  have hheld : ∀ r ∈ responses, ∀ d ∈ r.outputs,
      d.data.holdings (.bound d.data.stream) ⊆ responses.flatMap Response.holdings :=
    fun r hr d hd t ht => List.mem_flatMap.mpr ⟨r, hr, List.mem_flatMap.mpr ⟨d, hd, ht⟩⟩
  -- Nothing is left on the stream of the batch, on which all this storage is.
  have hwaited : (∀ c, ¬ m.Pending b.stream c) →
      (∀ r ∈ responses, ∀ d ∈ r.outputs, d.data.IsIdle m) ∧
        ∀ o ∈ b.outputs, o.tensor.buffer.IsIdle m := by
    intro hnone
    refine ⟨fun r hr d hd => ?_, fun o ho => ?_⟩
    · refine Buffer.isIdle_of_not_pending hext.keeps (hfilled r hr d hd).1 ?_ hnone
      rw [← honstream r hr d hd]
      exact List.subset_append_of_subset_left _ (hheld r hr d hd)
    · have hmem : (Place.output o.name, Resource.buffer o.tensor.buffer) ∈ s.sites :=
        List.mem_append_right _ (by rw [hb]; exact List.mem_map.mpr ⟨o, ho, rfl⟩)
      refine Buffer.isIdle_of_not_pending hext.keeps (hs.owned _ hmem rfl) ?_ hnone
      rw [← hstreams o ho]
      exact fun t ht => List.mem_append_right _ (List.mem_append_left _
        (List.mem_flatMap.mpr ⟨_, hmem, ht⟩))
  rcases hrun with ⟨e, -, he, k, n, o, q, p, hfailed⟩ | ⟨hrun, hqueues, -⟩
  · have hs' : s' = { s with machine := m, batch := some (b.handed scatter responses) } :=
      congrArg Prod.snd (Action.outcome_of_error (Action.bind_of_error (onBatch_of_error hb he)))
    rw [hs']
    exact ⟨(hwaited hfailed.settled).1, .inl (hwaited hfailed.settled).2⟩
  · have hperform : s.perform (.batch .finalize) =
        (.ok .done, { s with machine := m, batch := some (b.handed scatter responses) }) :=
      Action.outcome_of_ok (Action.bind_of_ok (onBatch_of_ok hb hrun))
    have hs' : s' = { s with machine := m, batch := some (b.handed scatter responses) } :=
      congrArg Prod.snd hperform
    rw [hs', hperform]
    rcases hqueues with hnone | hqueues
    · exact ⟨(hwaited hnone).1, .inl (hwaited hnone).2⟩
    · refine ⟨fun r hr d hd hn t c hc htouch => ?_, .inr ⟨rfl, hqueues⟩⟩
      -- A copy that waited before stays within the storage that was in use before.
      obtain ⟨u, hu, v, hv, huspan, hvspan, -⟩ := hs.keeps.served t c (by
        unfold Machine.Pending at hc ⊢
        rw [← hqueues]
        exact hc)
      -- What was delivered lies in storage that was not in use before.
      obtain ⟨x, hx, -, -, -, hdata⟩ := (hfilled r hr d hd).1.holding (hheld r hr d hd) hn
      have hne : ∀ y ∈ s.holdings ++ s.machine.queues.kept, x.block ≠ y.block := by
        have hdistinct := hext.keeps.distinct
        rw [hqueues, List.append_assoc, List.map_append, List.nodup_append] at hdistinct
        exact fun y hy => hdistinct.2.2 _ (List.mem_map_of_mem hx) _ (List.mem_map_of_mem hy)
      rw [hdata] at htouch
      rcases htouch with htouch | htouch
      · exact hne u hu (htouch.symm.trans huspan.1.symm)
      · exact hne v hv (htouch.symm.trans hvspan.1.symm)

/-- On the device, the output that a copy is waited for is idle, and the response has it. -/
theorem lateCopy_device_settles :
    let s := ((start (.simulated ⟨1, 64, true⟩) 0).performAll (lateCopy .device)).2
    let s' := (s.perform (.batch .finalize)).2
    (start (.simulated ⟨1, 64, true⟩) 0).Permits (lateCopy .device) ∧
      ∃ b, s.batch = some b ∧ b.state = .opened ∧
        (∀ o ∈ b.outputs, o.tensor.buffer.stream = b.stream) ∧
        (∀ r ∈ BatchCommand.visibleResponses s', ∀ d ∈ r.outputs, d.data.IsIdle s'.machine) ∧
        ∀ o ∈ b.outputs, o.tensor.buffer.IsIdle s'.machine := by
  have hbatch : (((start (.simulated ⟨1, 64, true⟩) 0).performAll
      (lateCopy .device)).2.batch.any fun b => decide (b.state = .opened) &&
        b.outputs.all fun o => o.tensor.buffer.stream == b.stream) = true := by decide +kernel
  have hchanged : (((start (.simulated ⟨1, 64, true⟩) 0).performAll
      (lateCopy .device)).2.perform (.batch .finalize)).2.machine.queues ≠
        ((start (.simulated ⟨1, 64, true⟩) 0).performAll (lateCopy .device)).2.machine.queues := by
    decide +kernel
  obtain ⟨b, hb, h⟩ := Option.any_eq_true _ _ |>.mp hbatch
  rw [Bool.and_eq_true, decide_eq_true_iff, List.all_eq_true] at h
  have hstreams : ∀ o ∈ b.outputs, o.tensor.buffer.stream = b.stream :=
    fun o ho => beq_iff_eq.mp (h.2 o ho)
  obtain ⟨hresponses, hidle | ⟨-, hsame⟩⟩ :=
    finalize_settles (permits_lateCopy .device) hb h.1 hstreams
  · exact ⟨permits_lateCopy .device, b, hb, h.1, hstreams, hresponses, hidle⟩
  · exact absurd hsame hchanged

/-- An output that was computed on another stream, from which it was copied. -/
def strayOutput : List Command := [
  .batch (.request 1 [⟨"x", .uint8, [1], [7], .host, 0⟩] [] []),
  .batch (.create none {} ⟨3⟩),
  .batch (.getOutput "y" .uint8 [1] .device 0),
  .buffer (.ofList "far" .uint8 [7] .device 0 ⟨5⟩),
  .buffer (.copy (.output "y") (.slot "far") 0 none)]

/-- Its copy to the response still waits when finalizing is done, and the response does not hold
what it will hold. -/
theorem strayOutput_waits :
    let s := ((start (.simulated ⟨1, 64, true⟩) 0).performAll strayOutput).2
    let s' := (s.perform (.batch .finalize)).2
    (start (.simulated ⟨1, 64, true⟩) 0).Permits strayOutput ∧
      (s.perform (.batch .finalize)).1.isOk ∧
      ∃ b, s.batch = some b ∧ ∃ o ∈ b.outputs, ∃ d ∈ s'.delivered 0 o.name,
        ¬ o.tensor.buffer.IsIdle s'.machine ∧ ¬ d.data.IsIdle s'.machine ∧
          d.data.bytes s'.machine = [0] ∧
          d.data.bytes (s'.machine.synchronize o.tensor.buffer.stream) = [7] := by
  intro s s'
  have hpermits : (start (.simulated ⟨1, 64, true⟩) 0).Permits strayOutput := by
    refine ⟨trivial, rfl, trivial, ⟨?_, trivial⟩, permitted_copy nofun (by decide +kernel), trivial⟩
    show "far" ∉ _
    decide +kernel
  have hfacts : (s.batch.any fun b => b.outputs.any fun o => (s'.delivered 0 o.name).any fun d =>
      (s'.machine.queues.any fun p => p.2.copies.any fun c =>
        c.src.block == o.tensor.buffer.data.block && c.dst.block == d.data.data.block) &&
      decide (o.tensor.buffer.byteSize ≠ 0 ∧ d.data.byteSize ≠ 0 ∧
        d.data.bytes s'.machine = [0] ∧
        d.data.bytes (s'.machine.synchronize o.tensor.buffer.stream) = [7])) = true := by
    decide +kernel
  obtain ⟨b, hb, h⟩ := Option.any_eq_true _ _ |>.mp hfacts
  obtain ⟨o, ho, h⟩ := List.any_eq_true.mp h
  obtain ⟨d, hd, h⟩ := Option.any_eq_true _ _ |>.mp h
  rw [Bool.and_eq_true, decide_eq_true_iff] at h
  obtain ⟨hwaits, hy, hn, hbytes⟩ := h
  obtain ⟨hbusy, hbusy'⟩ := Machine.exists_pending hwaits hy hn
  exact ⟨hpermits, by decide +kernel, b, hb, o, ho, d, hd, hbusy, hbusy', hbytes⟩

end Session

end DeviceBatch
