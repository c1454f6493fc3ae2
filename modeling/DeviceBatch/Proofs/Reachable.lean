import DeviceBatch.Proofs.Accounting

/-!
# Reachable sessions

What can become of a session in which nobody works on borrowed buffers or past all buffers, and in
which host storage is not dropped while a waiting copy touches it, neither by the caller nor by a
move or the adoption of a buffer by a tensor that fails. Commands are performed, requests and
responses are dropped, and the queues of the streams, which have no order, come up in another one.
A session is sound wherever that leads (`Reachable.sound`), and every copy on the way there was
performed on live storage (`Reachable.strays`).
-/

namespace DeviceBatch

open Local

/-! ## Queues in another order -/

namespace Machine

variable {m : Machine} {T : List Holding} {qs : Queues}

theorem kept_reorder (hq : qs.Perm m.queues) : qs.kept.Perm m.queues.kept := hq.flatMap_right _

/-- A machine keeps the same storage whatever order its queues come in. -/
theorem Keeps.reorder (h : m.Keeps T) (hq : qs.Perm m.queues) :
    ({ m with queues := qs } : Machine).Keeps T := by
  refine (Orderly.withQueues h ((hq.map _).nodup_iff.mpr h.streams)
    (fun s q hmem c hc => ⟨q, hq.mem_iff.mp hmem, hc⟩) fun hd => ?_).perm
    ((kept_reorder hq).symm.append_left T)
  rw [h.waits hd] at hq
  exact hq.eq_nil

end Machine

namespace Session

variable {s : Session} {platform : Platform} {device : Nat}

/-! ## Steps -/

/-- The batch in progress and those that were set aside. -/
def batches (s : Session) : List Local.Batch := s.batch.toList ++ s.aside.map fun p => p.2.batch

/-- A permitted step keeps host storage that a waiting copy touches, also where a move or the
adoption of a buffer by a tensor fails. Requests outlive the batches over them. -/
def Step.Permitted (s : Session) : Step → Prop
  | .perform c => c.Permitted s
  | .dropRequest index => (∀ b ∈ s.batches, b.requests.length ≤ index) ∧
    ∀ r, s.requests[index]? = some r → ∀ t ∈ r.holdings, t.location = .host →
      s.machine.Untouched t.block
  | .dropResponse index => ∀ r, s.kept[index]? = some r → ∀ t ∈ r.holdings, t.location = .host →
    s.machine.Untouched t.block

/-- The sessions that come of permitted steps on a platform where nothing has been done. -/
inductive Reachable (platform : Platform) (device : Nat) : Session → Prop where
  | start : Reachable platform device (start platform device)
  | step {s : Session} (h : Reachable platform device s) {p : Step} (hp : p.Permitted s) :
    Reachable platform device (s.after p)
  | reorder {s : Session} (h : Reachable platform device s) {qs : Queues}
    (hq : qs.Perm s.machine.queues) :
    Reachable platform device { s with machine := { s.machine with queues := qs } }

theorem mem_batches {b : Local.Batch} :
    b ∈ s.batches ↔ s.batch = some b ∨ ∃ p ∈ s.aside, p.2.batch = b := by
  unfold batches
  rw [List.mem_append, Option.mem_toList, List.mem_map]

theorem Sound.batch_of_mem (hs : s.Sound) {b : Local.Batch} (hb : b ∈ s.batches) :
    b.Sound s.requests := by
  rcases mem_batches.mp hb with hb | ⟨p, hp, rfl⟩
  · exact hs.batch b hb
  · exact (hs.aside p hp).batch

/-- What was taken out of a list, and the rest. -/
theorem perm_flatMap_eraseIdx {α β : Type} {l : List α} {i : Nat} {a : α} (h : l[i]? = some a)
    (f : α → List β) : (l.flatMap f).Perm (f a ++ (l.eraseIdx i).flatMap f) := by
  obtain ⟨hi, rfl⟩ := List.getElem?_eq_some_iff.mp h
  exact (List.getElem_cons_eraseIdx_perm hi).symm.flatMap_right f

/-! ## Dropping requests and responses -/

/-- The batches that are left go on over their requests. -/
theorem Sound.dropRequest (hs : s.Sound) {index : Nat} {r : Request}
    (hr : s.requests[index]? = some r) (hb : ∀ b ∈ s.batches, b.requests.length ≤ index)
    (hu : ∀ t ∈ r.holdings, t.location = .host → s.machine.Untouched t.block) :
    ({ s with
      machine := r.release s.machine
      requests := s.requests.eraseIdx index } : Session).Sound ∧
    (r.release s.machine).strays = s.machine.strays := by
  have hsplit : s.holdings.Perm (r.holdings ++ ({ s with
      machine := r.release s.machine
      requests := s.requests.eraseIdx index } : Session).holdings) := by
    refine List.perm_iff_count.mpr fun t => ?_
    have hcount := (perm_flatMap_eraseIdx hr Request.holdings).count_eq t
    unfold holdings stock sites
    simp only [List.count_append] at hcount ⊢
    omega
  have hdone := Request.release_progress (hs.keeps.perm hsplit) hu
  have hkeep : ∀ {b : Local.Batch}, b ∈ s.batches → b.requests <+: s.requests.eraseIdx index := by
    intro b hmem
    obtain ⟨rest, hrest⟩ := (hs.batch_of_mem hmem).requests
    rw [← hrest, List.eraseIdx_append_of_length_le (hb b hmem)]
    exact List.prefix_append _ _
  refine ⟨?_, hdone.strays⟩
  exact {
    keeps := hdone.keeps
    keys := hs.keys
    owned := hs.owned
    views := fun p hp hi => (hs.views p hp hi).mono fun b hb => ⟨b, hb, .refl b⟩
    requests := fun r' hr' => hs.requests r' ((List.eraseIdx_sublist ..).subset hr')
    batch := fun b hsome =>
      { hs.batch b hsome with requests := hkeep (mem_batches.mpr (.inl hsome)) }
    labels := hs.labels
    aside := fun p hp => { hs.aside p hp with
      batch := { (hs.aside p hp).batch with
        requests := hkeep (mem_batches.mpr (.inr ⟨p, hp, rfl⟩)) } }
    kept := hs.kept }

theorem Sound.dropResponse (hs : s.Sound) {index : Nat} {r : Response}
    (hr : s.kept[index]? = some r)
    (hu : ∀ t ∈ r.holdings, t.location = .host → s.machine.Untouched t.block) :
    ({ s with
      machine := r.release s.machine
      kept := s.kept.eraseIdx index } : Session).Sound ∧
    (r.release s.machine).strays = s.machine.strays := by
  have hsplit : s.holdings.Perm (r.holdings ++ ({ s with
      machine := r.release s.machine
      kept := s.kept.eraseIdx index } : Session).holdings) := by
    refine List.perm_iff_count.mpr fun t => ?_
    have hcount := (perm_flatMap_eraseIdx hr Response.holdings).count_eq t
    unfold holdings stock sites
    simp only [List.count_append] at hcount ⊢
    omega
  have hone : [r].flatMap Response.holdings = r.holdings := by
    rw [List.flatMap_cons, List.flatMap_nil, List.append_nil]
  rw [← hone] at hsplit hu
  have hdone := releaseResponses_progress [r] (hs.keeps.perm hsplit) hu
  refine ⟨?_, hdone.strays⟩
  exact {
    keeps := hdone.keeps
    keys := hs.keys
    owned := hs.owned
    views := fun p hp hi => (hs.views p hp hi).mono fun b hb => ⟨b, hb, .refl b⟩
    requests := hs.requests
    batch := hs.batch
    labels := hs.labels
    aside := hs.aside
    kept := fun r' hr' => hs.kept r' ((List.eraseIdx_sublist ..).subset hr') }

/-! ## Every reachable session -/

/-- One permitted step keeps a session sound, and performs copies on live storage only. -/
theorem Sound.after (hs : s.Sound) {step : Step} (hp : step.Permitted s) :
    (s.after step).Sound ∧ (s.after step).machine.strays = s.machine.strays := by
  cases step with
  | perform c => exact ⟨(hs.leads hp).sound, (hs.leads hp).strays⟩
  | dropRequest index =>
    simp only [Session.after]
    cases hr : s.requests[index]? with
    | none => exact ⟨hs, rfl⟩
    | some r => exact hs.dropRequest hr hp.1 (hp.2 r hr)
  | dropResponse index =>
    simp only [Session.after]
    cases hr : s.kept[index]? with
    | none => exact ⟨hs, rfl⟩
    | some r => exact hs.dropResponse hr (hp r hr)

theorem Reachable.sound (h : Reachable platform device s) : s.Sound := by
  induction h with
  | start => exact start_sound platform device
  | step _ hp ih => exact (ih.after hp).1
  | reorder _ hq ih => exact ih.withKeeps (ih.keeps.reorder hq)

theorem Reachable.strays (h : Reachable platform device s) : s.machine.strays = [] := by
  induction h with
  | start => rfl
  | step h hp ih => exact (h.sound.after hp).2.trans ih
  | reorder _ _ ih => exact ih

/-- Runs of permitted commands lead to reachable sessions. -/
theorem Reachable.performAll (h : Reachable platform device s) {cs : List Command}
    (hcs : s.Permits cs) : Reachable platform device (s.performAll cs).2 := by
  induction cs generalizing s with
  | nil => exact h
  | cons c cs ih => exact ih (.step h (p := .perform c) hcs.1) hcs.2

/-! ## A busy session -/

/-- Two batches over the same requests, each with gathered inputs on a stream of its own, and a
buffer on a third stream that is made on a device and then moved to the host. -/
def bustle : List Command := [
  .batch (.request 1 [⟨"x", .uint8, [1, 2], [1, 2], .host, 0⟩] [] []),
  .batch (.request 2 [⟨"x", .uint8, [1, 2], [3, 4], .device, 1⟩] [] []),
  .batch (.create none {} ⟨3⟩),
  .batch (.getInput "in" "x" .uint8 .device 1),
  .batch (.setAside "first"),
  .batch (.create none {} ⟨4⟩),
  .batch (.getInput "other" "x" .uint8 .device 0),
  .batch (.getOutput "y" .uint8 [2] .device 0),
  .buffer (.ofList "far" .uint8 [7] .device 0 ⟨5⟩),
  .buffer (.moveTo "near" "far" .host)]

/-- What is found to be true of all that a slot holds. -/
theorem forall_held {slot : String} {p : Resource → Bool}
    (h : (s.held slot).toOption.all p = true) : ∀ r, s.held slot = .ok r → p r = true := by
  intro r hr
  rw [hr] at h
  exact h

/-- A move is permitted if it succeeds. -/
theorem permitted_moveTo {slot src : String} {location : Location}
    (hfree : (BufferCommand.emptied s src).Free slot)
    (h : (s.held src).toOption.all fun r =>
      !r.isInput && (r.data.moveTo location s.machine) matches .ok ..) :
    (Command.buffer (.moveTo slot src location)).Permitted s := by
  have hheld : ∀ r, s.held src = .ok r →
      r.isInput = false ∧ ((r.data.moveTo location s.machine) matches .ok ..) = true := by
    intro r hr
    simpa using forall_held h r hr
  refine ⟨⟨hfree, fun r hr e m he => ?_⟩, fun r hr => (hheld r hr).1⟩
  have hok := (hheld r hr).2
  rw [he] at hok
  cases hok

theorem permits_bustle : (start (.simulated ⟨2, 64, true⟩) 0).Permits bustle := by
  refine ⟨trivial, trivial, rfl, List.not_mem_nil, List.not_mem_nil, rfl, List.not_mem_nil, trivial,
    ⟨?_, trivial⟩, permitted_moveTo ?_ ?_, trivial⟩
  · show "far" ∉ _
    decide +kernel
  · show "near" ∉ _
    decide +kernel
  · decide +kernel

theorem reachable_bustle : Reachable (.simulated ⟨2, 64, true⟩) 0
    ((start (.simulated ⟨2, 64, true⟩) 0).performAll bustle).2 :=
  Reachable.start.performAll permits_bustle

end Session

end DeviceBatch
