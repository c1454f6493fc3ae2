import DeviceBatch.Proofs.Resting

/-!
# The end of a batch

A batch gives its staging buffers and its outputs back, and perhaps its responses. What its requests
store is not among that, and what other batches hold neither. So requests keep what they store, and
batches what they have staged, in every run of permitted commands
(`Session.Sound.leads_performAll`).
-/

namespace DeviceBatch

open Local

namespace Session

variable {s s' : Session} {b : Local.Batch} {m : Machine}

/-! ## The end of a batch -/

/-- Waiting and giving storage back, and nothing else. -/
def Releases (X : List Holding) (es : List Effect) : Prop :=
  ∀ e ∈ es, e = .wait ∨ ∃ t ∈ X, e = .free t.block

theorem releases_frees (X : List Holding) : Releases X (Effect.frees X) := fun e he => by
  obtain ⟨t, ht, rfl⟩ := List.mem_map.mp he
  exact .inr ⟨t, ht, rfl⟩

theorem Releases.append {X Y : List Holding} {es fs : List Effect} (h : Releases X es)
    (h' : Releases Y fs) : Releases (X ++ Y) (es ++ fs) := fun e he => by
  rcases List.mem_append.mp he with he | he
  · exact (h e he).imp_right fun ⟨t, ht, heq⟩ => ⟨t, List.mem_append_left _ ht, heq⟩
  · exact (h' e he).imp_right fun ⟨t, ht, heq⟩ => ⟨t, List.mem_append_right _ ht, heq⟩

theorem Releases.untouched {X : List Holding} {es : List Effect} (h : Releases X es) :
    ∀ b, ∀ e ∈ es, ¬ e.CopiesAt b := by
  intro b e he
  rcases h e he with rfl | ⟨t, -, rfl⟩ <;> exact id

/-- The staging buffers are given back once the copies into them are done. -/
theorem close_progress {T : List Holding} (hstream : b.held.inputs.stream = b.stream)
    (h : m.Keeps (b.staged ++ T)) :
    ∃ es, m.Progress (b.staged ++ T) es True (b.held.inputs.close m) T ∧ Releases b.staged es := by
  unfold Local.Batch.staged at h ⊢
  rw [← hstream] at h ⊢
  unfold Gather.close
  cases hstaging : b.held.inputs.staging with
  | nil =>
    rw [hstaging] at h
    exact ⟨[], .refl h, fun _ he => absurd he List.not_mem_nil⟩
  | cons g rest =>
    rw [hstaging] at h
    obtain ⟨hp, hnone⟩ := Machine.progress_synchronize h b.held.inputs.stream
    refine ⟨_, (hp.trans (Buffer.releaseAll_progress _ (g :: rest) hp.keeps fun t ht _ => ?_)).imp
      fun _ => ⟨trivial, trivial⟩, fun e he => ?_⟩
    · intro s c hc htouch
      obtain ⟨buffer, -, ht'⟩ := List.mem_flatMap.mp ht
      have hstream := Machine.Orderly.stream_of_touches hp.keeps
        (Machine.Keeps.mem (List.mem_append_left _ ht)) hc htouch
        (.inr (Buffer.use_of_mem_holdings ht'))
      exact hnone c (hstream ▸ hc)
    · rcases List.mem_append.mp he with he | he
      · exact .inl (List.mem_singleton.mp he)
      · exact releases_frees _ e he

theorem releaseResponses_progress {T : List Holding} (rs : List Response)
    (h : m.Keeps (rs.flatMap Response.holdings ++ T))
    (hu : ∀ t ∈ rs.flatMap Response.holdings, t.location = .host → m.Untouched t.block) :
    m.Progress (rs.flatMap Response.holdings ++ T)
      (Effect.frees (rs.flatMap Response.holdings)) True
      (rs.foldl (fun m r => r.release m) m) T := by
  let buffers := rs.flatMap fun r => r.outputs.map DeliveredOutput.data
  have hholdings : rs.flatMap Response.holdings =
      buffers.flatMap fun b => b.holdings (.bound b.stream) := by
    rw [List.flatMap_assoc]
    refine List.flatMap_congr fun r _ => ?_
    rw [List.flatMap_map]
    rfl
  have hrelease : rs.foldl (fun m r => r.release m) m =
      buffers.foldl (fun m b => b.release m) m := by
    rw [List.foldl_flatMap]
    congr 1
    funext m r
    rw [List.foldl_map]
    rfl
  rw [hholdings] at h hu ⊢
  rw [hrelease]
  exact Buffer.releaseAll_progress _ buffers h hu

theorem releaseOutputs_progress {T : List Holding} (h : m.Keeps (b.lent ++ T))
    (hu : ∀ t ∈ b.lent, t.location = .host → m.Untouched t.block) :
    m.Progress (b.lent ++ T) (Effect.frees b.lent) True
      (b.outputs.foldl (fun m o => o.tensor.release m) m) T := by
  have hlent : b.lent =
      (b.outputs.map fun o => o.tensor.buffer).flatMap fun b => b.holdings (.bound b.stream) := by
    rw [List.flatMap_map]
    rfl
  have hrelease : b.outputs.foldl (fun m o => o.tensor.release m) m =
      (b.outputs.map fun o => o.tensor.buffer).foldl (fun m b => b.release m) m := by
    rw [List.foldl_map]
    rfl
  rw [hlent] at h hu ⊢
  rw [hrelease]
  exact Buffer.releaseAll_progress _ _ h hu

/-- A batch gives back its staging buffers and its outputs. -/
theorem releaseRest_progress {T : List Holding} (hstream : b.held.inputs.stream = b.stream)
    (h : m.Keeps (b.staged ++ (b.lent ++ T)))
    (hu : ∀ t ∈ b.lent, t.location = .host → m.Untouched t.block) :
    ∃ es, m.Progress (b.staged ++ (b.lent ++ T)) es True (b.releaseRest Local.exchange m) T ∧
      Releases (b.staged ++ b.lent) es := by
  obtain ⟨es, hp, hes⟩ := close_progress hstream h
  have hp' := releaseOutputs_progress hp.keeps fun t ht hl =>
    hp.untouched (hu t ht hl) (hes.untouched t.block)
  exact ⟨_, (hp.trans hp').imp fun _ => ⟨trivial, trivial⟩, hes.append (releases_frees _)⟩

/-! ## The session afterwards -/

/-- The session without its batch, with these responses kept. -/
def withoutBatch (s : Session) (m : Machine) (kept : List Response) : Session :=
  { s with machine := m, batch := none, slots := s.slots.filter (fun p => !p.2.isInput), kept }

/-- What goes with a batch, and the rest. -/
theorem Sound.perm_withoutBatch (hs : s.Sound) (hb : s.batch = some b) (kept : List Response) :
    (s.holdings ++ kept.flatMap Response.holdings).Perm
      (b.lent ++ (b.stock ++
        (s.kept.flatMap Response.holdings ++ (s.withoutBatch m kept).holdings))) := by
  unfold holdings
  rw [sites_holdings_of_some hb, sites_holdings_of_none (s := s.withoutBatch m kept) rfl,
    stock_of_some hb, stock_of_none (s := s.withoutBatch m kept) rfl,
    show (s.withoutBatch m kept).slots.flatMap _ = _ from hs.slots_without_inputs,
    List.perm_iff_count]
  intro t
  simp only [withoutBatch, List.count_append]
  omega

/-- The batch in progress ends. The others are where they were. -/
def ending : Seat → Option Seat
  | .inProgress => none
  | .aside label => some (.aside label)

theorem moves_takeResponses (seat : Seat) :
    (Command.batch .takeResponses).moves seat = ending seat := by
  cases seat <;> rfl

theorem moves_drop (seat : Seat) : (Command.batch .drop).moves seat = ending seat := by
  cases seat <;> rfl

theorem Sound.leads_ended (hs : s.Sound) {kept : List Response} (hkept : ∀ r ∈ kept, r.Sound)
    {X : List Holding} {es : List Effect}
    (hperm : s.holdings.Perm (X ++ (s.withoutBatch m kept).holdings))
    (hX : ∀ t ∈ X, t.use ≠ .stored)
    (hp : s.machine.Progress (X ++ (s.withoutBatch m kept).holdings) es True m
      (s.withoutBatch m kept).holdings)
    (hes : Releases X es) : s.Leads ending [] (s.withoutBatch m kept) := by
  have hplaces := sites_of_none (s := s.withoutBatch m kept) rfl
  have hsites : (s.withoutBatch m kept).sites.Sublist s.sites := by
    rw [hplaces]
    exact (List.filter_sublist.map _).trans (List.sublist_append_left _ _)
  -- what is given back lies in other blocks than what stays
  have hstays : ∀ t ∈ (s.withoutBatch m kept).holdings, t.use.IsFixed →
      s.Preserves (s.withoutBatch m kept) t := by
    intro t ht hf
    refine hp.fixed t (List.mem_append_right _ ht) hf fun e he hchange => ?_
    rcases hes e he with rfl | ⟨u, hu, rfl⟩
    · exact hchange
    · exact (hs.keeps.perm hperm).block_ne hu ht hchange
  refine ⟨?_, .of_eq rfl, fun t ht hst => ?_, fun seat seat' b hseat hb => ?_, hp.strays⟩
  · exact {
      keeps := hp.keeps
      keys := (hsites.map Prod.fst).nodup hs.keys
      owned := fun p hp => hs.owned p (hsites.subset hp)
      views := fun p hp hi => by
        rw [hplaces] at hp
        obtain ⟨q, hq, rfl⟩ := List.mem_map.mp hp
        have hnot := (List.mem_filter.mp hq).2
        rw [show q.2.isInput = true from hi] at hnot
        cases hnot
      requests := hs.requests
      batch := fun b hb => by cases hb
      labels := hs.labels
      aside := hs.aside
      kept := hkept }
  · exact hstays t ((List.mem_append.mp (hperm.mem_iff.mp ht)).resolve_left fun hx => hX t hx hst)
      (by rw [hst]; trivial)
  · cases seat with
    | inProgress => cases hseat
    | aside label =>
      cases hseat
      have hb' : (s.withoutBatch m kept).batchAt (.aside label) = some b := hb
      exact ⟨b, hb', .refl b, fun t ht => hstays t (mem_holdings_of_staged hb' ht)
        (by rw [use_of_mem_staged ht]; trivial)⟩

/-- Outputs, responses and staging buffers are no stored inputs. -/
theorem use_ne_stored {rs : List Response} {t : Holding}
    (ht : t ∈ b.staged ∨ t ∈ b.lent ∨ t ∈ rs.flatMap Response.holdings) : t.use ≠ .stored := by
  rcases ht with ht | ht | ht
  · obtain ⟨g, -, hg⟩ := List.mem_flatMap.mp ht
    rw [Buffer.use_of_mem_holdings hg]
    exact nofun
  · obtain ⟨o, -, ho⟩ := List.mem_flatMap.mp ht
    rw [Buffer.use_of_mem_holdings ho]
    exact nofun
  · obtain ⟨r, -, hr⟩ := List.mem_flatMap.mp ht
    obtain ⟨d, -, hd⟩ := List.mem_flatMap.mp hr
    rw [Buffer.use_of_mem_holdings hd]
    exact nofun

theorem endBatch_of_some (hb : s.batch = some b) (closing : Local.Batch → Machine → Machine) :
    BatchCommand.endBatch closing s = .ok b (s.withoutBatch (closing b s.machine) s.kept) :=
  (Action.bind_of_ok (consult_of_ok (currentBatch_of_some hb))).trans rfl

theorem endBatch_of_none (hb : s.batch = none) (closing : Local.Batch → Machine → Machine) :
    BatchCommand.endBatch closing s =
      .error (.internalConsistency (.unknownName "batch")) s :=
  Action.bind_of_error (consult_of_error (currentBatch_of_none hb))

/-- A batch that ends while its responses are kept, in place of those that were kept before. -/
theorem Sound.leads_takeResponses (hs : s.Sound) (hc : BatchCommand.takeResponses.Permitted s) :
    s.Leads (Command.batch .takeResponses).moves [] (s.perform (.batch .takeResponses)).2 := by
  refine Leads.congr ?_ moves_takeResponses
  cases hb : s.batch with
  | none =>
    rw [show s.perform (.batch .takeResponses) = _ from
      Action.outcome_of_error (Action.bind_of_error (endBatch_of_none hb _))]
    exact hs.leads_of_none hb fun _ => rfl
  | some b =>
    obtain ⟨houtputs, hkept⟩ := hc b hb
    have hsound := hs.batch b hb
    let m' := s.kept.foldl (fun m r => r.release m) (b.releaseRest Local.exchange s.machine)
    have hperm := hs.perm_withoutBatch (m := m') hb b.responses
    unfold Local.Batch.stock at hperm
    -- What is given back stands in front, in the order in which it is given back.
    have hsplit : s.holdings.Perm (b.staged ++ (b.lent ++ (s.kept.flatMap Response.holdings ++
        (s.withoutBatch m' b.responses).holdings))) := by
      refine List.perm_iff_count.mpr fun t => ?_
      have hcount := List.perm_iff_count.mp hperm t
      simp only [List.count_append] at hcount ⊢
      omega
    obtain ⟨es, hp, hes⟩ := releaseRest_progress hsound.stream (hs.keeps.perm hsplit)
      fun t ht hl => by
        obtain ⟨o, ho, hto⟩ := List.mem_flatMap.mp ht
        exact houtputs o ho t hto hl
    have hp' := releaseResponses_progress s.kept hp.keeps fun t ht hl => by
      obtain ⟨r, hr, htr⟩ := List.mem_flatMap.mp ht
      exact hp.untouched (hkept r hr t htr hl) (hes.untouched t.block)
    rw [show s.perform (.batch .takeResponses) =
        (.ok (.count b.responses.length), s.withoutBatch m' b.responses) from
      Action.outcome_of_ok (Action.bind_of_ok (endBatch_of_some hb _))]
    have hassoc : ∀ U : List Holding,
        (b.staged ++ (b.lent ++ (s.kept.flatMap Response.holdings ++ U))).Perm
          ((b.staged ++ b.lent ++ s.kept.flatMap Response.holdings) ++ U) := fun U => by
      simp only [List.append_assoc]
      exact List.Perm.refl _
    refine hs.leads_ended hsound.responses (hsplit.trans (hassoc _)) (fun t ht => ?_)
      (((hp.trans hp').perm_left (hassoc _).symm).imp fun _ => ⟨trivial, trivial⟩)
      (hes.append (releases_frees _))
    rw [List.mem_append, List.mem_append, or_assoc] at ht
    exact use_ne_stored ht

/-- A batch that ends with its responses. -/
theorem Sound.leads_drop (hs : s.Sound) (hc : BatchCommand.drop.Permitted s) :
    s.Leads (Command.batch .drop).moves [] (s.perform (.batch .drop)).2 := by
  refine Leads.congr ?_ moves_drop
  cases hb : s.batch with
  | none =>
    rw [show s.perform (.batch .drop) = _ from
      Action.outcome_of_error (Action.bind_of_error (endBatch_of_none hb _))]
    exact hs.leads_of_none hb fun _ => rfl
  | some b =>
    obtain ⟨houtputs, hresponses⟩ := hc b hb
    have hsound := hs.batch b hb
    let m' := b.releaseRest Local.exchange (b.responses.foldl (fun m r => r.release m) s.machine)
    have hperm := hs.perm_withoutBatch (m := m') hb s.kept
    unfold Local.Batch.stock at hperm
    have hsplit : s.holdings.Perm (b.responses.flatMap Response.holdings ++
        (b.staged ++ (b.lent ++ (s.withoutBatch m' s.kept).holdings))) := by
      refine List.perm_iff_count.mpr fun t => ?_
      have hcount := List.perm_iff_count.mp hperm t
      simp only [List.count_append] at hcount ⊢
      omega
    have hp := releaseResponses_progress b.responses (hs.keeps.perm hsplit) fun t ht hl => by
      obtain ⟨r, hr, htr⟩ := List.mem_flatMap.mp ht
      exact hresponses r hr t htr hl
    obtain ⟨es, hp', hes⟩ := releaseRest_progress hsound.stream hp.keeps fun t ht hl => by
      obtain ⟨o, ho, hto⟩ := List.mem_flatMap.mp ht
      exact hp.untouched (houtputs o ho t hto hl) ((releases_frees _).untouched t.block)
    rw [show s.perform (.batch .drop) = (.ok .done, s.withoutBatch m' s.kept) from
      Action.outcome_of_ok (Action.bind_of_ok (endBatch_of_some hb _))]
    have hassoc : ∀ U : List Holding,
        (b.responses.flatMap Response.holdings ++ (b.staged ++ (b.lent ++ U))).Perm
          ((b.responses.flatMap Response.holdings ++ (b.staged ++ b.lent)) ++ U) := fun U => by
      simp only [List.append_assoc]
      exact List.Perm.refl _
    refine hs.leads_ended hs.kept (hsplit.trans (hassoc _)) (fun t ht => ?_)
      (((hp.trans hp').perm_left (hassoc _).symm).imp fun _ => ⟨trivial, trivial⟩)
      ((releases_frees _).append hes)
    rw [List.mem_append, List.mem_append, or_comm, or_assoc] at ht
    exact use_ne_stored ht

/-! ## Every run -/

/-- Whatever permitted command is performed, requests keep what they store, and batches that go on
keep what they have staged. -/
theorem Sound.leads (hs : s.Sound) {c : Command} (hc : c.Permitted s) :
    s.Leads c.moves (c.supplies (s.perform c).1) (s.perform c).2 := by
  have hstays : ∀ {s' : Session}, s' = s → (∀ seat, c.moves seat = some seat) →
      s.Leads c.moves [] s' := by
    rintro s' rfl hm
    exact (Leads.refl hs).congr hm
  cases c with
  | buffer c => exact (hs.retains_buffer hc.1 hc.2).leads.congr fun _ => rfl
  | platform c => exact (hs.retains_platform hc).leads.congr fun _ => rfl
  | side c => exact hc.elim
  | batch c =>
    cases c with
    | request id inputs wanted asked =>
      rcases hs.retains_request id inputs wanted asked with
        ⟨e, m, -, hrun, h⟩ | ⟨reply, s', hrun, h⟩
      · rw [hrun]
        exact h.leads.congr fun _ => rfl
      · rw [hrun]
        exact h.leads.congr fun _ => rfl
    | create count settings stream =>
      exact (hs.retains_create hc count settings stream).1.leads.congr fun _ => rfl
    | getInput slot name dtype location device =>
      rcases hs.retains_getInput hc name dtype location device with
        ⟨e, s', -, hrun, h⟩ | ⟨b, t, m, new, parts, -, hrun, -, h⟩
      · rw [hrun]
        exact h.leads.congr fun _ => rfl
      · rw [hrun]
        exact h.leads.congr fun _ => rfl
    | getOutput name dtype shape location device =>
      exact (hs.retains_getOutput name dtype shape location device).1.leads.congr fun _ => rfl
    | finalize =>
      rcases hs.retains_finalize with
        ⟨e, s', -, hrun, h⟩ | ⟨b, m, scatter, responses, -, hrun, h, -⟩
      · rw [hrun]
        exact h.leads.congr fun _ => rfl
      · rw [hrun]
        exact h.leads.congr fun _ => rfl
    | takeResponses => exact hs.leads_takeResponses hc
    | drop => exact hs.leads_drop hc
    | setAside label => exact hs.leads_setAside hc
    | resume label => exact hs.leads_resume hc.1 hc.2
    | response index name dtype =>
      exact (hs.retains_response index name dtype).1.leads.congr fun _ => rfl
    | describe => exact hstays (consult_unchanged fun _ => rfl) fun _ => rfl
    | combinedShape name => exact hstays (perform_combinedShape s name) fun _ => rfl
    | output name dtype => exact hstays (perform_output s name dtype) fun _ => rfl
    | outputs => exact hstays (consult_unchanged fun _ => rfl) fun _ => rfl
    | responses => exact hstays rfl fun _ => rfl

/-- So it is with every run of permitted commands. -/
theorem Sound.leads_performAll (hs : s.Sound) {cs : List Command} (hcs : s.Permits cs) :
    s.Leads (fun seat => seat.after cs) (s.supplied cs) (s.performAll cs).2 := by
  induction cs generalizing s with
  | nil => exact Leads.refl hs
  | cons c cs ih =>
    have hfirst := hs.leads hcs.1
    exact hfirst.trans (ih hfirst.sound hcs.2)

end Session

end DeviceBatch
