import DeviceBatch.Proofs.Ledger
import DeviceBatch.Proofs.Reachable

/-!
# Copies and the life of storage

Copies wait, and storage ends; whatever a waiting copy needs has to last until the copy is
performed. Device storage does because all queued work is done before it is given back, the storage
of buffers that were moved because their stream keeps it, and staging buffers because a batch waits
for its stream before it ends. So copies are performed on live storage, wherever on the way they are
performed, and none is refused (`copies_within_life`).

There is one way to lose storage too early. A move that succeeds leaves the storage of the old
buffer to its stream; one that fails drops it at once, and a copy may be waiting that was queued
before (`failedMove_strays`). Such moves are not permitted here.
-/

namespace DeviceBatch

open Local

/-! ## Nothing else is refused -/

theorem Unrefused.foreseeWith {α : Type} {s : Session} {found : Except Error α} {go : α → Foreseen}
    (h : Unrefused found) (hgo : ∀ a, Unrefused (go a).reply) :
    Unrefused (DeviceBatch.foreseeWith s found go).reply := by
  cases hf : found with
  | ok a => exact hgo a
  | error e => exact .error (h e hf)

namespace Session

variable {s : Session} {platform : Platform} {device : Nat}

/-- No command on buffers is foreseen to be refused a copy. -/
theorem foreseen_unrefused (s : Session) (c : BufferCommand) : Unrefused (s.foreseen c).reply := by
  have hat := fun place => resourceAt_unrefused place s
  have hheld := Named.find_unrefused s.slots
  cases c with
  | allocate | ofList => exact .ok _
  | copyTo | clone | borrow | describe | text | toList | rebind =>
    exact (hat _).foreseeWith fun r => .ok _
  | release | toBuffer => exact (hheld _).foreseeWith fun r => .ok _
  | moveTo =>
    refine (hheld _).foreseeWith fun r => ?_
    split <;> exact .ok _
  | sameData => exact (hat _).foreseeWith fun r => (hat _).foreseeWith fun r' => .ok _
  | peek | poke =>
    exact (hat _).foreseeWith fun r => r.data.ensureHost_unrefused.foreseeWith fun _ => .ok _
  | copy =>
    refine (hat _).foreseeWith fun r => (hat _).foreseeWith fun r' => ?_
    unfold BufferCommand.foreseeCopy
    split
    · exact .ok _
    · exact .error nofun
  | allocateTensor =>
    unfold foreseen BufferCommand.foresee
    dsimp only
    split
    · exact .error nofun
    · exact .ok _
  | toTensor =>
    refine (hheld _).foreseeWith fun r => ?_
    cases ht : Tensor.ofBuffer _ r.data with
    | ok t => exact .ok _
    | error e => exact .error (Tensor.ofBuffer_unrefused _ _ e ht)

/-- What host storage holds at the moment is looked at without any copy. -/
theorem unrefused_peek (s : Session) (place : Place) :
    Unrefused (s.perform (.buffer (.peek place))).1 := by
  have hfound : Unrefused ((bufferAt place).outcome s).1 :=
    Action.unrefused_bind (unrefused_consult (resourceAt_unrefused place s)) fun _ _ _ => .ok _
  have hpeek : ∀ (b : Buffer) (m : Machine), Unrefused (b.peek.outcome m).1 := fun b m =>
    Action.unrefused_bind (Action.unrefused_ofExcept b.ensureHost_unrefused) fun _ _ _ => .ok _
  exact Action.unrefused_bind hfound fun b s' _ =>
    Action.unrefused_bind (unrefused_onMachine (hpeek b s'.machine)) fun _ _ _ => .ok _

theorem Sound.unrefused_buffer (hs : s.Sound) {c : BufferCommand} (hc : c.Permitted s)
    (hin : c.SparesInputs s) : Unrefused (s.perform (.buffer c)).1 := by
  rcases hs.performs hc hin with ⟨e, s', es, halloc, hrun, -⟩ | ⟨reply, s', hrun, hreply, -⟩
  · rw [hrun]
    exact .error halloc.not_refusesCopy
  · have hcur : c.Current s → Unrefused (s.perform (.buffer c)).1 := by
      intro hcur
      rw [hrun, hreply hcur]
      exact s.foreseen_unrefused c
    cases c with
    | peek place => exact s.unrefused_peek place
    | _ => exact hcur trivial

theorem unrefused_endBatch (s : Session) (closing : Local.Batch → Machine → Machine) :
    Unrefused ((BatchCommand.endBatch closing).outcome s).1 :=
  Action.unrefused_bind (unrefused_consult s.currentBatch_unrefused) fun _ _ _ => .ok _

/-- A permitted command is not refused a copy. -/
theorem Sound.unrefused (hs : s.Sound) {c : Command} (hc : c.Permitted s) :
    Unrefused (s.perform c).1 := by
  have hbatch := unrefused_consult s.currentBatch_unrefused
  have hopened := unrefused_consult (openedBatch_unrefused (s := s))
  cases c with
  | buffer c => exact hs.unrefused_buffer hc.1 hc.2
  | side c => exact hc.elim
  | platform c =>
    cases c with
    | describe | synchronize | references => exact .ok _
    | _ => exact hc.elim
  | batch c =>
    cases c with
    | request id inputs wanted asked =>
      rcases hs.retains_request id inputs wanted asked with
        ⟨e, m, hcause, hrun, -⟩ | ⟨reply, s', hrun, -⟩
      · rw [hrun]
        exact .error hcause
      · rw [hrun]
        exact .ok _
    | create count settings stream => exact (hs.retains_create hc count settings stream).2
    | getInput slot name dtype location device =>
      rcases hs.retains_getInput hc name dtype location device with
        ⟨e, s', hcause, hrun, -⟩ | ⟨b, t, m, new, parts, -, hrun, -⟩
      · rw [hrun]
        exact .error hcause
      · rw [hrun]
        exact .ok _
    | getOutput name dtype shape location device =>
      exact (hs.retains_getOutput name dtype shape location device).2
    | finalize =>
      rcases hs.retains_finalize with
        ⟨e, s', hcause, hrun, -⟩ | ⟨b, m, scatter, responses, -, hrun, -⟩
      · rw [hrun]
        exact .error hcause
      · rw [hrun]
        exact .ok _
    | response index name dtype => exact (hs.retains_response index name dtype).2
    | takeResponses | drop =>
      exact Action.unrefused_bind (s.unrefused_endBatch _) fun _ _ _ => .ok _
    | setAside label =>
      exact Action.unrefused_bind (Action.unrefused_bind hbatch fun _ _ _ => .ok _)
        fun _ _ _ => .ok _
    | resume label =>
      have hfound := unrefused_consult (f := fun s => s.aside.find label)
        (Named.find_unrefused s.aside label)
      exact Action.unrefused_bind (Action.unrefused_bind hfound fun _ _ _ => .ok _)
        fun _ _ _ => .ok _
    | describe => exact Action.unrefused_bind hbatch fun _ _ _ => .ok _
    | combinedShape name =>
      exact Action.unrefused_bind hbatch fun b _ _ => Action.unrefused_bind
        (Action.unrefused_ofExcept (b.combinedShape_unrefused name)) fun _ _ _ => .ok _
    | output name dtype =>
      refine Action.unrefused_bind hopened fun b _ _ => ?_
      cases b.output? name <;> exact .ok _
    | outputs => exact Action.unrefused_bind hopened fun _ _ _ => .ok _
    | responses => exact .ok _

/-! ## Every copy -/

/-- In every reachable session all copies so far were performed on live storage, those that wait
have live storage on both sides, and no permitted command is refused a copy. -/
theorem copies_within_life (h : Reachable platform device s) :
    s.machine.strays = [] ∧
    (∀ stream c, s.machine.Pending stream c → c.isLive s.machine.memory = true) ∧
    ∀ c : Command, c.Permitted s → ∀ fault, (s.perform c).1 ≠ .error (.platform fault) :=
  ⟨h.strays, fun stream c hc => h.sound.keeps.isLive (h.sound.keeps.served stream c hc),
    fun _ hc fault hrefused => h.sound.unrefused hc _ hrefused ⟨fault, rfl⟩⟩

/-- When the stream of the buffer that was moved is waited for, it lets go of the device storage the
buffer had, for which all other streams are drained on the way. -/
theorem bustle_within_life :
    let s := ((start (.simulated ⟨2, 64, true⟩) 0).performAll bustle).2
    let s' := (s.perform (.platform (.synchronize ⟨5⟩))).2
    (s.machine.queues.map fun p => p.2.copies.length) = [2, 2, 2] ∧ s'.machine.queues = [] ∧
      s'.machine.strays = [] ∧
      ∀ c : Command, c.Permitted s' → ∀ fault, (s'.perform c).1 ≠ .error (.platform fault) := by
  intro s s'
  have hlife := copies_within_life
    (reachable_bustle.step (p := .perform (.platform (.synchronize ⟨5⟩))) trivial)
  exact ⟨by decide +kernel, by decide +kernel, hlife.1, hlife.2.2⟩

/-- A copy of a host buffer takes the only byte of device memory that there is. -/
def failedMove : List Command := [
  .buffer (.ofList "near" .uint8 [7] .host 0 .standard),
  .buffer (.copyTo "far" (.slot "near") .device 0)]

/-- While the copy waits, the host buffer itself is to be moved, and there is no device memory left.
The storage of the buffer is given back nevertheless, so in the end the copy reads storage that is
no longer live. -/
theorem failedMove_strays :
    let s := ((start (.simulated ⟨1, 1, true⟩) 0).performAll failedMove).2
    let moved := s.perform (.buffer (.moveTo "moved" "near" .device))
    (start (.simulated ⟨1, 1, true⟩) 0).Permits failedMove ∧ moved.1.isOk = false ∧
      moved.2.machine.stats.deallocations = 1 ∧
      (moved.2.perform (.platform (.synchronize .standard))).2.machine.strays =
        [⟨⟨2, 0⟩, ⟨1, 0⟩, 1⟩] := by
  refine ⟨⟨⟨?_, trivial⟩, ⟨?_, trivial⟩, trivial⟩, by decide +kernel, by decide +kernel,
    by decide +kernel⟩
  · show "near" ∉ _
    decide +kernel
  · show "far" ∉ _
    decide +kernel

end Session

end DeviceBatch
