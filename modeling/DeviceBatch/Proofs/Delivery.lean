import DeviceBatch.Proofs.Endings

/-!
# What finalizing delivers

A response gets its rows of an output as they will be once the copies that wait are done, if its own
copy waits as well. Otherwise it gets them as they were when the batch was finalized, which makes a
difference if a copy that waits changes these rows (`Session.delivered_iff`).
-/

namespace DeviceBatch

open Local

namespace Session

/-- What the response with that number has of an output. -/
def delivered (s : Session) (i : Nat) (name : String) : Option DeliveredOutput :=
  (BatchCommand.visibleResponses s)[i]?.bind fun r => r.output? name

variable {s : Session} {b : Local.Batch} {o : RecordedOutput}

/-- The first output of a name is the only one. -/
theorem find?_of_forall₂ {R : RecordedOutput → DeliveredOutput → Prop}
    (hname : ∀ o d, R o d → d.name = o.name) {outputs : List RecordedOutput}
    {ds : List DeliveredOutput} (h : List.Forall₂ R outputs ds)
    (hn : (outputs.map RecordedOutput.name).Nodup) (ho : o ∈ outputs) :
    ∃ d, ds.find? (fun d => d.name == o.name) = some d ∧ R o d := by
  induction h with
  | nil => cases ho
  | @cons o' d outputs ds hd hrest ih =>
    rw [List.map_cons, List.nodup_cons] at hn
    rcases List.mem_cons.mp ho with rfl | ho
    · refine ⟨d, ?_, hd⟩
      rw [List.find?_cons_of_pos]
      rw [hname o d hd]
      exact beq_self_eq_true _
    · obtain ⟨d', hd', hr⟩ := ih hn.2 ho
      refine ⟨d', ?_, hr⟩
      rw [List.find?_cons_of_neg]
      · exact hd'
      · rw [hname o' d hd, beq_iff_eq]
        exact fun heq => hn.1 (heq ▸ List.mem_map_of_mem ho)

/-- What a response has of an output can be read, unless it is too large to be copied to the
host. -/
theorem Sound.reads_delivered (hs : s.Sound) {i : Nat} {name : String} {d : DeliveredOutput}
    (hd : s.delivered i name = some d) (hlimit : d.data.byteSize < Machine.hostBlockLimit) :
    (s.perform (.batch (.response i name d.dtype))).1 =
      .ok (.elements d.dtype (d.dtype.decode (d.data.outlookBytes s.machine.outlook))) := by
  obtain ⟨r, hr, hd⟩ := Option.bind_eq_some_iff.mp hd
  rcases Buffer.fetchBytes_cases hs.keeps (hs.readable_delivered (List.mem_of_getElem? hr) hd) with
    ⟨e, -, hlarge, -⟩ | ⟨m, hfetch, -⟩
  · omega
  · exact congrArg Prod.fst (Action.outcome_of_ok ((run_response hr hd d.dtype).trans
      (Action.bind_of_ok (onMachine_of_ok (toList_of_ok hfetch)))))

/-- If finalizing succeeds, every request that wants an output has its part of it. -/
theorem Sound.delivers (hs : s.Sound) (hb : s.batch = some b) (ho : o ∈ b.outputs)
    (hok : (s.perform (.batch .finalize)).1.isOk) {i : Nat} {place : Location × Nat}
    (hw : Scatter.wanted b.requests i o.name = some place) :
    ∃ d, (s.perform (.batch .finalize)).2.delivered i o.name = some d ∧
      Local.Batch.Obtained s.machine b (s.perform (.batch .finalize)).2.machine i o d := by
  rcases hs.retains_finalize with ⟨e, s', -, hrun, -⟩ |
    ⟨b₀, m, scatter, responses, hb₀, hrun, -, hlength, hobtained⟩
  · rw [hrun] at hok
    cases hok
  · rw [hb] at hb₀
    cases hb₀
    have hlt : i < responses.length := by
      rw [hlength]
      by_contra hge
      unfold Scatter.wanted at hw
      rw [List.getElem?_eq_none (Nat.le_of_not_lt hge)] at hw
      cases hw
    have hr : responses[i]? = some responses[i] := List.getElem?_eq_getElem hlt
    obtain ⟨d, hd, hgot⟩ := find?_of_forall₂ (fun o d h => h.name) (hobtained i _ hr)
      ((List.filter_sublist.map _).nodup (hs.names_nodup hb))
      (List.mem_filter.mpr ⟨ho, by rw [hw]; rfl⟩)
    rw [hrun]
    refine ⟨d, ?_, hgot⟩
    unfold delivered
    show responses[i]?.bind _ = _
    rw [hr]
    exact hd

/-- If finalizing succeeds, every request that wants an output has a part of the right shape, of an
output that is on the stream of the batch. The part holds what the output holds once its stream has
been waited for, exactly if its copy was put off or no copy that waits makes a difference to it. -/
theorem delivered_iff {platform : Platform} {device : Nat} {cs : List Command}
    (hcs : (start platform device).Permits cs)
    (hb : ((start platform device).performAll cs).2.batch = some b) (ho : o ∈ b.outputs)
    (hstream : o.tensor.buffer.stream = b.stream)
    (hok : (((start platform device).performAll cs).2.perform (.batch .finalize)).1.isOk)
    {i : Nat} {location : Location} {target : Nat}
    (hw : Scatter.wanted b.requests i o.name = some (location, target)) :
    let s := ((start platform device).performAll cs).2
    let s' := (s.perform (.batch .finalize)).2
    let slice := Scatter.sliceOf b.held.outputs.maximum (b.requests.map Request.rows) o.tensor i
    let y := o.tensor.buffer
    ∃ d, s'.delivered i o.name = some d ∧ d.shape = slice.shape ∧ d.dtype = y.dtype ∧
      (d.data.bytes s'.machine = Scatter.cut slice (y.bytes (s.machine.synchronize b.stream)) ↔
        s.machine.platform.defers (.between location y.location) = true ∨
        Scatter.cut slice (y.bytes s.machine) =
          Scatter.cut slice (y.bytes (s.machine.synchronize b.stream))) := by
  intro s s' slice y
  have hs : s.Sound := ((start_sound platform device).leads_performAll hcs).sound
  obtain ⟨d, hd, hgot⟩ := hs.delivers hb ho hok hw
  refine ⟨d, hd, hgot.shape, hgot.dtype, ?_⟩
  have hlocation : d.data.location = location :=
    congrArg Prod.fst (Option.some.inj (hgot.placed.symm.trans hw))
  -- Waiting for the stream of the batch shows what the output will hold.
  have hsettled : y.bytes (s.machine.synchronize b.stream) = y.outlookBytes s.machine.outlook := by
    rw [← hstream]
    exact (hs.readable_output hb ho).bytes_synchronize hs.keeps
  rw [hsettled, hgot.present hstream, hgot.bytes, hlocation]
  unfold Scatter.part
  cases hdefers : s.machine.platform.defers (.between location y.location) with
  | true =>
    rw [if_pos rfl]
    exact ⟨fun _ => .inl rfl, fun _ => rfl⟩
  | false =>
    rw [if_neg Bool.false_ne_true]
    exact ⟨fun h => .inr h, fun h => h.resolve_left Bool.false_ne_true⟩

/-- An output into which a copy waits when the batch is finalized. -/
def lateCopy (location : Location) : List Command := [
  .batch (.request 1 [⟨"x", .uint8, [1], [7], .host, 0⟩] [] []),
  .batch (.create none {} ⟨0⟩),
  .batch (.getOutput "y" .uint8 [1] location 0),
  .buffer (.ofList "far" .uint8 [7] .device 0 ⟨0⟩),
  .buffer (.copy (.output "y") (.slot "far") 0 none)]

theorem permits_lateCopy (location : Location) :
    (start (.simulated ⟨1, 64, true⟩) 0).Permits (lateCopy location) := by
  refine ⟨trivial, rfl, trivial, ⟨?_, trivial⟩, permitted_copy nofun ?_, trivial⟩
  · show "far" ∉ _
    cases location <;> decide +kernel
  · cases location <;> decide +kernel

/-- An output on the stream of the batch that the first request wants on the host. -/
theorem exists_output {q : Local.Batch → RecordedOutput → Prop} [∀ b o, Decidable (q b o)]
    (h : s.batch.any fun b => b.outputs.any fun o => o.tensor.buffer.stream == b.stream &&
      (Scatter.wanted b.requests 0 o.name == some (.host, 0) && decide (q b o))) :
    ∃ b, s.batch = some b ∧ ∃ o ∈ b.outputs, o.tensor.buffer.stream = b.stream ∧
      Scatter.wanted b.requests 0 o.name = some (.host, 0) ∧ q b o := by
  obtain ⟨b, hb, h⟩ := Option.any_eq_true _ _ |>.mp h
  obtain ⟨o, ho, h⟩ := List.any_eq_true.mp h
  rw [Bool.and_eq_true, Bool.and_eq_true, beq_iff_eq, beq_iff_eq, decide_eq_true_iff] at h
  exact ⟨b, hb, o, ho, h⟩

/-- If the output is on the host, the copy into it is still put off when its rows are copied to a
response on the host. -/
theorem lateCopy_host_stale :
    let s := ((start (.simulated ⟨1, 64, true⟩) 0).performAll (lateCopy .host)).2
    let s' := (s.perform (.batch .finalize)).2
    (start (.simulated ⟨1, 64, true⟩) 0).Permits (lateCopy .host) ∧
      (s.perform (.batch .finalize)).1.isOk ∧
      ∃ b, s.batch = some b ∧ ∃ o ∈ b.outputs, o.tensor.buffer.stream = b.stream ∧
        Scatter.wanted b.requests 0 o.name = some (.host, 0) ∧
        ∃ d ∈ s'.delivered 0 o.name, d.data.bytes s'.machine ≠ Scatter.cut
          (Scatter.sliceOf b.held.outputs.maximum (b.requests.map Request.rows) o.tensor 0)
          (o.tensor.buffer.bytes (s.machine.synchronize b.stream)) :=
  ⟨permits_lateCopy .host, by decide +kernel, exists_output (by decide +kernel)⟩

/-- If the output is on the device, the copy to the response waits for the copy into the output. -/
theorem lateCopy_device_delivered :
    let s := ((start (.simulated ⟨1, 64, true⟩) 0).performAll (lateCopy .device)).2
    let s' := (s.perform (.batch .finalize)).2
    (start (.simulated ⟨1, 64, true⟩) 0).Permits (lateCopy .device) ∧
      (s.perform (.batch .finalize)).1.isOk ∧
      ∃ b, s.batch = some b ∧ ∃ o ∈ b.outputs, o.tensor.buffer.stream = b.stream ∧
        ∃ d ∈ s'.delivered 0 o.name, d.data.bytes s'.machine = Scatter.cut
          (Scatter.sliceOf b.held.outputs.maximum (b.requests.map Request.rows) o.tensor 0)
          (o.tensor.buffer.bytes (s.machine.synchronize b.stream)) := by
  have hok : (((start (.simulated ⟨1, 64, true⟩) 0).performAll (lateCopy .device)).2.perform
      (.batch .finalize)).1.isOk := by decide +kernel
  obtain ⟨b, hb, o, ho, hstream, hwanted, hdefers⟩ := exists_output
    (s := ((start (.simulated ⟨1, 64, true⟩) 0).performAll (lateCopy .device)).2)
    (q := fun _ o => ((start (.simulated ⟨1, 64, true⟩) 0).performAll
      (lateCopy .device)).2.machine.platform.defers
        (.between .host o.tensor.buffer.location) = true) (by decide +kernel)
  obtain ⟨d, hd, -, -, hiff⟩ :=
    delivered_iff (permits_lateCopy .device) hb ho hstream hok hwanted
  exact ⟨permits_lateCopy .device, hok, b, hb, o, ho, hstream, d, hd, hiff.mpr (.inl hdefers)⟩

end Session

end DeviceBatch
