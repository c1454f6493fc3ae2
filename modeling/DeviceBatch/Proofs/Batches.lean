import DeviceBatch.Proofs.Filling
import DeviceBatch.Proofs.Sessions

/-!
# What commands on a batch leave alone

The inputs, the outputs and the responses of the batch in progress. None of these commands gives
storage back, so each retains it all (`Session.Retains`).
-/

namespace DeviceBatch

open Local

namespace Session

variable {s s' : Session}

/-! ## The batch in progress -/

theorem currentBatch_of_some {b : Local.Batch} (hb : s.batch = some b) :
    s.currentBatch = .ok b := by
  unfold currentBatch
  rw [hb]

theorem currentBatch_of_none (hb : s.batch = none) :
    s.currentBatch = .error (.internalConsistency (.unknownName "batch")) := by
  unfold currentBatch
  rw [hb]

theorem currentBatch_eq_ok {b : Local.Batch} (h : s.currentBatch = .ok b) : s.batch = some b := by
  unfold currentBatch at h
  split at h
  · next hb => cases h; exact hb
  · cases h

section Batch

variable {α : Type} {act : Action (Machine × Local.Batch) α} {b b' : Local.Batch} {m : Machine}

theorem onBatch_of_ok {a : α} (hb : s.batch = some b) (h : act (s.machine, b) = .ok a (m, b')) :
    onBatch act s = .ok a { s with machine := m, batch := some b' } := by
  refine (Action.bind_of_ok (consult_of_ok (currentBatch_of_some hb))).trans ?_
  unfold Action.within
  rw [h]

theorem onBatch_of_error {e : Error} (hb : s.batch = some b)
    (h : act (s.machine, b) = .error e (m, b')) :
    onBatch act s = .error e { s with machine := m, batch := some b' } := by
  refine (Action.bind_of_ok (consult_of_ok (currentBatch_of_some hb))).trans ?_
  unfold Action.within
  rw [h]

theorem onBatch_of_none (hb : s.batch = none) :
    onBatch act s = .error (.internalConsistency (.unknownName "batch")) s :=
  Action.bind_of_error (consult_of_error (currentBatch_of_none hb))

/-- The batch in progress holds more storage than before. -/
theorem Sound.retains_stock (hs : s.Sound) (hb : s.batch = some b) (hcontinues : b.Continues b')
    (houtputs : b'.outputs = b.outputs) (hsound : b'.Sound s.requests) {new : List Holding}
    (hstock : b'.stock.Perm (new ++ b.stock))
    (hext : s.machine.Extends s.holdings m (new ++ s.holdings)) :
    s.Retains [] { s with machine := m, batch := some b' } := by
  let s' : Session := { s with machine := m, batch := some b' }
  have hsites : s'.sites = s.sites := by
    unfold sites
    rw [hb]
    show _ ++ Local.Batch.sites b' = _ ++ Local.Batch.sites b
    unfold Local.Batch.sites
    rw [houtputs]
  -- What is new stands in the stock of the batch, in the middle of the stock of the session.
  have hwhole : s'.stock.Perm (new ++ s.stock) := by
    unfold stock
    rw [hb]
    refine ((hstock.append_right _).append_left _).trans ?_
    rw [List.append_assoc]
    exact List.perm_append_comm_assoc ..
  have hholdings : (new ++ s.holdings).Perm s'.holdings := by
    unfold holdings
    rw [hsites]
    exact (List.perm_append_comm_assoc ..).trans (hwhole.symm.append_left _)
  have hdone := hext.perm hholdings
  refine ⟨?_, .of_eq rfl, hdone.fixed, fun b₀ hb₀ => ?_, rfl, hdone.strays⟩
  · exact {
      keeps := hdone.keeps
      keys := by rw [hsites]; exact hs.keys
      owned := fun p hp => hs.owned p (hsites ▸ hp)
      views := fun p hp hi => (hs.views p (hsites ▸ hp) hi).mono fun b₀ hb₀ => by
        rw [hb] at hb₀
        cases hb₀
        exact ⟨b', rfl, hcontinues⟩
      requests := hs.requests
      batch := fun b₀ hb₀ => by
        cases hb₀
        exact hsound
      labels := hs.labels
      aside := hs.aside
      kept := hs.kept }
  · rw [hb] at hb₀
    cases hb₀
    exact ⟨b', rfl, hcontinues⟩

/-- An input of the batch in progress gets a name. -/
theorem Sound.retains_input (hs : s.Sound) {slot : String} (hfree : s.Free slot) {t : Tensor}
    (ht : s.View t.buffer) :
    s.Retains [] { s with slots := s.slots.put slot (.input t) } := by
  let s' : Session := { s with slots := s.slots.put slot (.input t) }
  have hsites : s'.sites.Perm ((.slot slot, .input t) :: s.sites) := sites_put hfree
  have hholdings : s.holdings.Perm s'.holdings := by
    -- A view owns nothing, so the slot adds no storage.
    have hnone : (Resource.input t).holdings = [] := by
      obtain ⟨_, _, hviews⟩ := ht
      have hborrowed : t.buffer.storage.isOwned = false := hviews.borrowed
      show t.buffer.holdings _ = []
      unfold Buffer.holdings
      cases hst : t.buffer.storage with
      | borrowed => rfl
      | owned a =>
        rw [hst] at hborrowed
        cases hborrowed
    refine List.Perm.append_right _ ((hsites.flatMap_right _).trans ?_).symm
    rw [List.flatMap_cons, hnone, List.nil_append]
  have hmem : ∀ p ∈ s'.sites, p = (.slot slot, .input t) ∨ p ∈ s.sites := fun p hp =>
    List.mem_cons.mp (hsites.mem_iff.mp hp)
  refine ⟨?_, .of_eq rfl, fun t ht _ => ⟨hholdings.mem_iff.mp ht, rfl⟩,
    fun b hb => ⟨b, hb, .refl b⟩, rfl, rfl⟩
  exact {
    keeps := hs.keeps.perm hholdings
    keys := (hsites.map Prod.fst).symm.nodup (keys_put hs.keys hfree)
    owned := fun p hp hi => by
      rcases hmem p hp with rfl | hp
      · cases hi
      · exact hs.owned p hp hi
    views := fun p hp hi => by
      have hview : s.View p.2.data := by
        rcases hmem p hp with rfl | hp
        · exact ht
        · exact hs.views p hp hi
      exact hview.mono fun batch hb => ⟨batch, hb, .refl batch⟩
    requests := hs.requests
    batch := hs.batch
    labels := hs.labels
    aside := hs.aside
    kept := hs.kept }

/-! ## Inputs of a batch -/

theorem Sound.storedAll (hs : s.Sound) (hb : s.batch = some b) :
    Gather.StoredAll b.requests s.holdings := fun r hr =>
  have hmem := (hs.batch b hb).requests.subset hr
  ⟨hs.requests r hmem, fun _ ht => mem_holdings_of_requests hmem ht⟩

/-- The staging buffers of a batch are part of its storage. -/
theorem Sound.retains_staged (hs : s.Sound) (hb : s.batch = some b) {new : List Buffer}
    (h : Local.Batch.Staged s.machine s.holdings b m new) :
    s.Retains [] { s with machine := m, batch := some (b.withStaging new) } := by
  have hsound := hs.batch b hb
  refine hs.retains_stock hb ⟨rfl, rfl, rfl, List.prefix_append _ _⟩ rfl ?_ ?_ h.machine
  · exact { hsound with
      staging := fun g hg => by
        rcases List.mem_append.mp hg with hg | hg
        · exact hsound.staging g hg
        · exact h.staging g hg }
  · unfold Local.Batch.stock Local.Batch.staged Local.Batch.withStaging
    rw [List.flatMap_append, ← List.append_assoc]
    exact List.perm_append_comm

/-- An input of the batch is a view of what its requests stored, or there is no such input. -/
theorem Sound.retains_getInput (hs : s.Sound) {slot : String} (hfree : s.Free slot) (name : String)
    (dtype : ElementType) (location : Location) (device : Nat) :
    (∃ e s', ¬ e.RefusesCopy ∧
      s.perform (.batch (.getInput slot name dtype location device)) = (.error e, s') ∧
      s.Retains [] s') ∨
    ∃ b t m new parts, s.batch = some b ∧
      s.perform (.batch (.getInput slot name dtype location device)) = (.ok (.tensor t),
        { s with
          machine := m
          batch := some (b.withStaging new)
          slots := s.slots.put slot (.input t) }) ∧
      Local.Batch.Given s.machine s.holdings b name dtype location device m new parts t ∧
      s.Retains [] { s with
        machine := m
        batch := some (b.withStaging new)
        slots := s.slots.put slot (.input t) } := by
  cases hb : s.batch with
  | none =>
    exact .inl ⟨.internalConsistency (.unknownName "batch"), s, nofun,
      Action.outcome_of_error (Action.bind_of_error (onBatch_of_none hb)), .refl hs⟩
  | some b =>
    rcases Local.Batch.getInput_cases hs.keeps (hs.storedAll hb) name dtype location device with
      ⟨e, m, new, hcause, he, hstaged⟩ | ⟨t, m, new, parts, hrun, hgiven⟩
    · exact .inl ⟨e, _, hcause,
        Action.outcome_of_error (Action.bind_of_error (onBatch_of_error hb he)),
        hs.retains_staged hb hstaged⟩
    · refine .inr ⟨b, t, m, new, parts, rfl, ?_, hgiven, ?_⟩
      · exact Action.outcome_of_ok (Action.bind_of_ok (onBatch_of_ok hb hrun))
      · have hstaged := hs.retains_staged hb hgiven.staged
        have hfree' : ({ s with
            machine := m
            batch := some (b.withStaging new) } : Session).Free slot := hfree
        exact hstaged.trans (hstaged.sound.retains_input hfree' ⟨_, rfl, hgiven.views⟩)

/-! ## Outputs of a batch -/

/-- A new output of the batch. -/
theorem Sound.retains_output (hs : s.Sound) (hb : s.batch = some b) {name : String} {t : Tensor}
    (hnew : ¬ b.outputs.any (fun o => o.name == name)) (ht : t.buffer.Proper)
    (hp : s.machine.Extends s.holdings m
      (t.buffer.holdings (.bound t.buffer.stream) ++ s.holdings)) :
    s.Retains []
      { s with machine := m, batch := some { b with outputs := b.outputs ++ [⟨name, t⟩] } } := by
  let b' : Local.Batch := { b with outputs := b.outputs ++ [⟨name, t⟩] }
  let s' : Session := { s with machine := m, batch := some b' }
  have hsites : s'.sites.Perm ((.output name, .buffer t.buffer) :: s.sites) := by
    unfold sites
    rw [hb]
    show (_ ++ (b.outputs ++ [_]).map _).Perm _
    rw [List.map_append, ← List.append_assoc]
    exact List.perm_append_singleton _ _
  have hstock : s'.stock = s.stock := by
    unfold stock
    rw [hb]
    rfl
  have hholdings : (t.buffer.holdings (.bound t.buffer.stream) ++ s.holdings).Perm s'.holdings := by
    unfold holdings
    rw [hstock, ← List.append_assoc]
    exact (hsites.flatMap_right fun p => p.2.holdings).symm.append_right _
  have hdone := hp.perm hholdings
  have hmem : ∀ p ∈ s'.sites, p = (.output name, .buffer t.buffer) ∨ p ∈ s.sites := fun p hp =>
    List.mem_cons.mp (hsites.mem_iff.mp hp)
  refine ⟨?_, .of_eq rfl, hdone.fixed, fun b₀ hb₀ => ?_, rfl, hdone.strays⟩
  · exact {
      keeps := hdone.keeps
      keys := by
        refine (hsites.map Prod.fst).symm.nodup (List.nodup_cons.mpr ⟨fun hkey => hnew ?_, hs.keys⟩)
        obtain ⟨p, hp, heq⟩ := List.mem_map.mp hkey
        rcases List.mem_append.mp hp with hp | hp
        · obtain ⟨q, -, rfl⟩ := List.mem_map.mp hp
          cases heq
        · rw [hb] at hp
          obtain ⟨o, ho, rfl⟩ := List.mem_map.mp hp
          cases heq
          exact List.any_eq_true.mpr ⟨o, ho, beq_self_eq_true _⟩
      owned := fun p hp hi => by
        rcases hmem p hp with rfl | hp
        · exact ht
        · exact hs.owned p hp hi
      views := fun p hp hi => by
        rcases hmem p hp with rfl | hp
        · cases hi
        · refine (hs.views p hp hi).mono fun b₀ hb₀ => ?_
          rw [hb] at hb₀
          cases hb₀
          exact ⟨b', rfl, rfl, rfl, rfl, List.prefix_rfl⟩
      requests := hs.requests
      batch := fun b₀ hb₀ => by
        cases hb₀
        exact { hs.batch b hb with }
      labels := hs.labels
      aside := hs.aside
      kept := hs.kept }
  · rw [hb] at hb₀
    cases hb₀
    exact ⟨b', rfl, rfl, rfl, rfl, List.prefix_rfl⟩

/-- A new output is a new tensor under a new name, or there is none and nothing happens. -/
theorem getOutput_cases {T : List Holding} (h : m.Keeps T) (b : Local.Batch) (name : String)
    (dtype : ElementType) (shape : Shape) (location : Location) (device : Nat) :
    (∃ e, ¬ e.RefusesCopy ∧
      DeviceBatch.Batch.getOutput name dtype shape location device (m, b) = .error e (m, b)) ∨
    ∃ t m', DeviceBatch.Batch.getOutput name dtype shape location device (m, b) =
        .ok t (m', { b with outputs := b.outputs ++ [⟨name, t⟩] }) ∧
      ¬ b.outputs.any (fun o => o.name == name) ∧ t.buffer.Proper ∧
      m.Extends T m' (t.buffer.holdings (.bound t.buffer.stream) ++ T) := by
  rcases Local.Batch.getOutput_reduces name dtype shape location device b with
    ⟨e, hcause, he⟩ | ⟨-, hnew, herror, hok⟩
  · exact .inl ⟨e, hcause, he m⟩
  · rcases Tensor.allocate_cases h dtype shape location device b.stream with
      ⟨-, ha⟩ | ⟨e, halloc, ha⟩ | ⟨t, m', ha, rfl, hbuffer, hp⟩
    · exact .inl ⟨.shapeMismatch (.countOverflow shape), nofun, herror _ _ _ ha⟩
    · exact .inl ⟨e, halloc.not_refusesCopy, herror _ _ _ ha⟩
    · exact .inr ⟨t, _, hok _ _ _ ha, hnew, by rw [hbuffer]; exact Buffer.fresh_proper ..,
        ((hp (.bound t.buffer.stream)).extends h (Effect.sparesBelow_allocs _).keepsBelow).emit _⟩

theorem Sound.retains_getOutput (hs : s.Sound) (name : String) (dtype : ElementType) (shape : Shape)
    (location : Location) (device : Nat) :
    s.Retains [] (s.perform (.batch (.getOutput name dtype shape location device))).2 ∧
      Unrefused (s.perform (.batch (.getOutput name dtype shape location device))).1 := by
  cases hb : s.batch with
  | none =>
    rw [show s.perform (.batch (.getOutput name dtype shape location device)) = _ from
      Action.outcome_of_error (Action.bind_of_error (onBatch_of_none hb))]
    exact ⟨.refl hs, .error nofun⟩
  | some b =>
    rcases getOutput_cases hs.keeps b name dtype shape location device with
      ⟨e, hcause, he⟩ | ⟨t, m, hrun, hnew, ht, hext⟩
    · have hsame : ({ s with machine := s.machine, batch := some b } : Session) = s := by rw [← hb]
      rw [show s.perform (.batch (.getOutput name dtype shape location device)) = _ from
        Action.outcome_of_error (Action.bind_of_error (onBatch_of_error hb he)), hsame]
      exact ⟨.refl hs, .error hcause⟩
    · rw [show s.perform (.batch (.getOutput name dtype shape location device)) = _ from
        Action.outcome_of_ok (Action.bind_of_ok (onBatch_of_ok hb hrun))]
      exact ⟨hs.retains_output hb hnew ht hext, .ok _⟩

theorem Sound.readable_output (hs : s.Sound) (hb : s.batch = some b) {o : RecordedOutput}
    (ho : o ∈ b.outputs) : o.tensor.buffer.Readable s.holdings := by
  have hmem : (Place.output o.name, Resource.buffer o.tensor.buffer) ∈ s.sites := by
    refine List.mem_append_right _ ?_
    rw [hb]
    exact List.mem_map.mpr ⟨o, ho, rfl⟩
  exact hs.readable hmem hmem

/-- Finalizing fills the responses of the batch, or it fails; in both cases nothing is lost. -/
theorem Sound.retains_finalize (hs : s.Sound) :
    (∃ e s', ¬ e.RefusesCopy ∧ s.perform (.batch .finalize) = (.error e, s') ∧
      s.Retains [] s') ∨
    ∃ b m scatter responses, s.batch = some b ∧
      s.perform (.batch .finalize) =
        (.ok .done, { s with machine := m, batch := some (b.handed scatter responses) }) ∧
      s.Retains [] { s with machine := m, batch := some (b.handed scatter responses) } ∧
      responses.length = b.requests.length ∧
      ∀ i r, responses[i]? = some r → List.Forall₂ (Local.Batch.Obtained s.machine b m i)
        (b.outputs.filter fun o => (Scatter.wanted b.requests i o.name).isSome) r.outputs := by
  cases hb : s.batch with
  | none =>
    exact .inl ⟨.internalConsistency (.unknownName "batch"), s, nofun,
      Action.outcome_of_error (Action.bind_of_error (onBatch_of_none hb)), .refl hs⟩
  | some b =>
    have hsound := hs.batch b hb
    cases hstate : b.state with
    | finalized =>
      have hsame : ({ s with machine := s.machine, batch := some b } : Session) = s := by rw [← hb]
      have hrefused : DeviceBatch.Batch.finalize Local.exchange (s.machine, b) =
          .error .doubleFinalize (s.machine, b) := by
        unfold DeviceBatch.Batch.finalize
        simp only [hstate]
      have hrun := onBatch_of_error hb hrefused
      rw [hsame] at hrun
      exact .inl ⟨.doubleFinalize, s, nofun, Action.outcome_of_error (Action.bind_of_error hrun),
        .refl hs⟩
    | opened =>
      have hempty := hsound.opened hstate
      obtain ⟨m, scatter, responses, hext, hfilled, -, hmaximum, hrun⟩ :=
        Local.Batch.finalize_cases (S := fun _ => True) hs.keeps hstate hempty hsound.single
          (fun o ho => hs.readable_output hb ho) fun _ _ => trivial
      -- The responses that are replaced are the empty ones, so none of their storage is lost.
      have hnothing : b.responses.flatMap Response.holdings = [] := by
        rw [hempty, Local.holdings_empty]
      have hleads : s.Retains []
          { s with machine := m, batch := some (b.handed scatter responses) } := by
        refine hs.retains_stock hb ⟨rfl, rfl, hmaximum, List.prefix_rfl⟩ rfl ?_ ?_ hext
        · exact {
            requests := hsound.requests
            responses := hfilled
            staging := hsound.staging
            stream := hsound.stream
            single := by
              show scatter.maximum = 0 → b.requests.length ≤ 1
              rw [hmaximum]
              exact hsound.single
            opened := fun hopen => by cases hopen }
        · unfold Local.Batch.stock Local.Batch.handed
          rw [hnothing]
          exact List.Perm.refl _
      rcases hrun with ⟨e, hcause, he, -⟩ | ⟨hrun, -, hlength, hobtained⟩
      · exact .inl ⟨e, _, hcause,
          Action.outcome_of_error (Action.bind_of_error (onBatch_of_error hb he)), hleads⟩
      · exact .inr ⟨b, m, scatter, responses, rfl,
          Action.outcome_of_ok (Action.bind_of_ok (onBatch_of_ok hb hrun)), hleads, hlength,
          hobtained⟩

/-! ## Reading responses -/

/-- The responses that can be looked at hold storage of the session. -/
theorem Sound.visible (hs : s.Sound) {r : Response} (hr : r ∈ BatchCommand.visibleResponses s) :
    r.Sound ∧ r.holdings ⊆ s.holdings := by
  unfold BatchCommand.visibleResponses at hr
  cases hb : s.batch with
  | none =>
    rw [hb] at hr
    refine ⟨hs.kept r hr, fun t ht => ?_⟩
    exact List.mem_append_right _ (List.mem_append_right _ (List.mem_append_right _
      (List.mem_append_right _ (List.mem_flatMap.mpr ⟨r, hr, ht⟩))))
  | some b =>
    rw [hb] at hr
    refine ⟨(hs.batch b hb).responses r hr, fun t ht => ?_⟩
    refine List.mem_append_right _ (List.mem_append_right _ (List.mem_append_left _ ?_))
    rw [hb]
    exact List.mem_append_left _ (List.mem_flatMap.mpr ⟨r, hr, ht⟩)

theorem output_mem {r : Response} {name : String} {d : DeliveredOutput}
    (hd : r.output? name = some d) : d ∈ r.outputs := List.mem_of_find?_eq_some hd

theorem run_response {index : Nat} {r : Response} {name : String} {d : DeliveredOutput}
    (hr : (BatchCommand.visibleResponses s)[index]? = some r) (hd : r.output? name = some d)
    (dtype : ElementType) :
    BatchCommand.run (.response index name dtype) s =
      (onMachine (d.toList dtype) >>= fun xs => pure (.elements dtype xs)) s := by
  have hfound : BatchCommand.responseAt index s = .ok r := by
    unfold BatchCommand.responseAt
    rw [hr]
  refine (Action.bind_of_ok (consult_of_ok hfound)).trans ?_
  rw [hd]

section Delivered

variable {d : DeliveredOutput}

theorem toList_of_ok {m m' : Machine} {bytes : List UInt8}
    (h : d.data.fetchBytes m = .ok bytes m') :
    d.toList d.dtype m = .ok (d.dtype.decode bytes) m' := by
  unfold DeliveredOutput.toList
  simp only [ne_eq, not_true_eq_false, if_false]
  exact Action.bind_of_ok h

theorem toList_of_error {m m' : Machine} {e : Error} (h : d.data.fetchBytes m = .error e m') :
    d.toList d.dtype m = .error e m' := by
  unfold DeliveredOutput.toList
  simp only [ne_eq, not_true_eq_false, if_false]
  exact Action.bind_of_error h

theorem toList_of_ne {m : Machine} {dtype : ElementType} (h : dtype ≠ d.dtype) :
    d.toList dtype m = .error (.internalConsistency (.outputType d.dtype dtype)) m := by
  unfold DeliveredOutput.toList
  simp only [ne_eq, h, not_false_eq_true, if_true]
  rfl

/-- What was delivered can be read. -/
theorem Sound.readable_delivered (hs : s.Sound) {r : Response} {name : String}
    (hr : r ∈ BatchCommand.visibleResponses s) (hd : r.output? name = some d) :
    d.data.Readable s.holdings := by
  obtain ⟨hsound, hheld⟩ := hs.visible hr
  exact (hsound d (output_mem hd)).1.readable fun t ht =>
    hheld (List.mem_flatMap.mpr ⟨d, output_mem hd, ht⟩)

end Delivered

/-- An output of a response is only read. -/
theorem Sound.retains_response (hs : s.Sound) (index : Nat) (name : String) (dtype : ElementType) :
    s.Retains [] (s.perform (.batch (.response index name dtype))).2 ∧
      Unrefused (s.perform (.batch (.response index name dtype))).1 := by
  cases hr : (BatchCommand.visibleResponses s)[index]? with
  | none =>
    have hfound : BatchCommand.responseAt index s =
        .error (.internalConsistency (.unknownName ("response " ++ toString index))) := by
      unfold BatchCommand.responseAt
      rw [hr]
    rw [show s.perform (.batch (.response index name dtype)) = _ from
      Action.outcome_of_error (Action.bind_of_error (consult_of_error hfound))]
    exact ⟨.refl hs, .error nofun⟩
  | some r =>
    cases hd : r.output? name with
    | none =>
      have hfound : BatchCommand.responseAt index s = .ok r := by
        unfold BatchCommand.responseAt
        rw [hr]
      have hrun : BatchCommand.run (.response index name dtype) s = .ok .absent s := by
        refine (Action.bind_of_ok (consult_of_ok hfound)).trans ?_
        rw [hd]
        rfl
      rw [show s.perform (.batch (.response index name dtype)) = _ from Action.outcome_of_ok hrun]
      exact ⟨.refl hs, .ok _⟩
    | some d =>
      have hrun := run_response hr hd dtype
      by_cases hty : dtype = d.dtype
      · subst hty
        rcases Buffer.fetchBytes_cases hs.keeps (hs.readable_delivered (List.mem_of_getElem? hr) hd)
          with ⟨e, halloc, -, he⟩ | ⟨m, hfetch, hp⟩
        · rw [show s.perform (.batch (.response index name d.dtype)) = (.error e, s) from
            Action.outcome_of_error (hrun.trans
              (Action.bind_of_error (onMachine_of_error (toList_of_error he))))]
          exact ⟨.refl hs, .error halloc.not_refusesCopy⟩
        · rw [show s.perform (.batch (.response index name d.dtype)) = _ from
            Action.outcome_of_ok (hrun.trans
              (Action.bind_of_ok (onMachine_of_ok (toList_of_ok hfetch))))]
          exact ⟨hs.retains_withMachine hp (hs.spares_below (Buffer.keepsBelow_fetchEffects _ _)),
            .ok _⟩
      · rw [show s.perform (.batch (.response index name dtype)) = _ from
          Action.outcome_of_error (hrun.trans
            (Action.bind_of_error (onMachine_of_error (toList_of_ne hty))))]
        exact ⟨.refl hs, .error nofun⟩

/-! ## Looking around -/

/-- A command that only looks at the session leaves it as it was. -/
theorem consult_unchanged {β : Type} {f : Session → Except Error β} {go : β → Action Session Reply}
    (hgo : ∀ x, ((go x).outcome s).2 = s) : ((consult f >>= go).outcome s).2 = s := by
  cases hf : f s with
  | error e => rw [Action.outcome_of_error (Action.bind_of_error (consult_of_error hf))]
  | ok x =>
    have hbind : (consult f >>= go).outcome s = (go x).outcome s := by
      unfold Action.outcome
      rw [Action.bind_of_ok (consult_of_ok hf)]
    rw [hbind, hgo x]

/-- The description of a batch, its outputs and the shapes of its inputs are only looked at. -/
theorem perform_combinedShape (s : Session) (name : String) :
    (s.perform (.batch (.combinedShape name))).2 = s :=
  consult_unchanged fun b => by cases b.combinedShape Local.exchange name <;> rfl

theorem perform_output (s : Session) (name : String) (dtype : ElementType) :
    (s.perform (.batch (.output name dtype))).2 = s :=
  consult_unchanged fun b => by cases b.output? name <;> rfl

end Batch

end Session

end DeviceBatch
