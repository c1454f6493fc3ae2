import DeviceBatch.Proofs.Batches

/-!
# Batches that are set aside

A batch that is set aside keeps all it has. When it is resumed, it has all of that, its inputs stand
in the slots where they stood, and what it has staged holds the same bytes.
-/

namespace DeviceBatch

open Local

namespace Session

variable {s : Session} {b : Local.Batch}

/-! ## Inputs have no storage -/

theorem holdings_of_borrowed {r : Resource} (h : r.data.storage.isOwned = false) :
    r.holdings = [] := by
  unfold Resource.holdings Buffer.holdings
  cases hst : r.data.storage with
  | borrowed => rfl
  | owned a =>
    rw [hst] at h
    cases h

/-- The inputs of a batch hold no storage of their own. -/
theorem Sound.holdings_input (hs : s.Sound) {p : Place × Resource} (hp : p ∈ s.sites)
    (hi : p.2.isInput = true) : p.2.holdings = [] := by
  obtain ⟨_, _, hviews⟩ := hs.views p hp hi
  exact holdings_of_borrowed hviews.borrowed

theorem mem_sites_of_slot {p : String × Resource} (hp : p ∈ s.slots) :
    (Place.slot p.1, p.2) ∈ s.sites :=
  List.mem_append_left _ (List.mem_map.mpr ⟨p, hp, rfl⟩)

theorem flatMap_filter_inputs {slots : Named Resource}
    (h : ∀ p ∈ slots, p.2.isInput = true → p.2.holdings = []) :
    (slots.filter fun p => !p.2.isInput).flatMap (fun p => p.2.holdings) =
      slots.flatMap fun p => p.2.holdings := by
  induction slots with
  | nil => rfl
  | cons p rest ih =>
    have hrest := ih fun q hq => h q (List.mem_cons_of_mem _ hq)
    cases hi : p.2.isInput with
    | true =>
      rw [List.filter_cons_of_neg (by rw [hi]; decide), List.flatMap_cons,
        h p List.mem_cons_self hi, List.nil_append, hrest]
    | false =>
      rw [List.filter_cons_of_pos (by rw [hi]; rfl), List.flatMap_cons, List.flatMap_cons, hrest]

/-- Without its inputs, a session holds the same storage in its slots. -/
theorem Sound.slots_without_inputs (hs : s.Sound) :
    (s.slots.filter fun p => !p.2.isInput).flatMap (fun p => p.2.holdings) =
      s.slots.flatMap fun p => p.2.holdings :=
  flatMap_filter_inputs fun _ hp hi => hs.holdings_input (mem_sites_of_slot hp) hi

theorem stock_of_some (hb : s.batch = some b) :
    s.stock = s.requests.flatMap Request.holdings ++ (b.stock ++
      (s.aside.flatMap (fun p => p.2.holdings) ++ s.kept.flatMap Response.holdings)) := by
  unfold stock
  rw [hb]
  rfl

theorem stock_of_none (hb : s.batch = none) :
    s.stock = s.requests.flatMap Request.holdings ++
      (s.aside.flatMap (fun p => p.2.holdings) ++ s.kept.flatMap Response.holdings) := by
  unfold stock
  rw [hb]
  rfl

/-- The storage at the places of a session with a batch. -/
theorem sites_holdings_of_some (hb : s.batch = some b) :
    s.sites.flatMap (fun p => p.2.holdings) =
      s.slots.flatMap (fun p => p.2.holdings) ++ b.lent := by
  unfold sites
  rw [hb, List.flatMap_append, List.flatMap_map]
  show _ ++ (b.outputs.map _).flatMap _ = _
  rw [List.flatMap_map]
  rfl

theorem sites_of_none (hb : s.batch = none) :
    s.sites = s.slots.map fun p => (Place.slot p.1, p.2) := by
  unfold sites
  rw [hb]
  exact List.append_nil _

theorem sites_holdings_of_none (hb : s.batch = none) :
    s.sites.flatMap (fun p => p.2.holdings) = s.slots.flatMap fun p => p.2.holdings := by
  rw [sites_of_none hb, List.flatMap_map]

theorem mem_sites_of_output (hb : s.batch = some b) {o : RecordedOutput} (ho : o ∈ b.outputs) :
    (Place.output o.name, Resource.buffer o.tensor.buffer) ∈ s.sites := by
  refine List.mem_append_right _ ?_
  rw [hb]
  exact List.mem_map.mpr ⟨o, ho, rfl⟩

/-- The outputs of a batch have different names. -/
theorem Sound.names_nodup (hs : s.Sound) (hb : s.batch = some b) :
    (b.outputs.map RecordedOutput.name).Nodup := by
  have hkeys := hs.keys
  unfold sites at hkeys
  rw [hb, List.map_append, List.nodup_append] at hkeys
  have houtputs : (b.outputs.map fun o => Place.output o.name).Nodup := by
    have := hkeys.2.1
    rw [show Option.elim (some b) [] Local.Batch.sites = b.sites from rfl, Local.Batch.sites,
      List.map_map] at this
    exact this
  refine List.Nodup.of_map Place.output ?_
  rw [List.map_map]
  exact houtputs

/-- A command that does nothing because no batch is in progress. -/
theorem Sound.leads_of_none (hs : s.Sound) (hb : s.batch = none) {moves : Seat → Option Seat}
    (hm : ∀ label, moves (.aside label) = some (.aside label)) : s.Leads moves [] s where
  sound := hs
  requests := .of_eq rfl
  stored t ht _ := ⟨ht, rfl⟩
  batch seat seat' b hseat hbatch := by
    cases seat with
    | inProgress =>
      rw [show s.batch = some b from hbatch] at hb
      cases hb
    | aside label =>
      rw [hm label] at hseat
      cases hseat
      exact ⟨b, hbatch, .refl b, fun t ht => ⟨mem_holdings_of_staged hbatch ht, rfl⟩⟩
  strays := rfl

/-! ## Setting a batch aside -/

/-- The batch in progress, with its inputs. -/
def resting (s : Session) (b : Local.Batch) : RestingBatch :=
  ⟨b, s.slots.filter fun p => p.2.isInput⟩

/-- The session after its batch was set aside. -/
def withAside (s : Session) (label : String) (b : Local.Batch) : Session :=
  { s with
    batch := none
    slots := s.slots.filter fun p => !p.2.isInput
    aside := s.aside.put label (s.resting b) }

theorem Sound.resting_sound (hs : s.Sound) (hb : s.batch = some b) :
    (s.resting b).Sound s.requests where
  batch := hs.batch b hb
  names := hs.names_nodup hb
  outputs o ho := hs.owned _ (mem_sites_of_output hb ho) rfl
  slots := (List.filter_sublist.map Prod.fst).nodup (slots_nodup hs.keys)
  inputs p hp := by
    obtain ⟨hslot, hi⟩ := List.mem_filter.mp hp
    obtain ⟨batch, hbatch, hviews⟩ := hs.views _ (mem_sites_of_slot hslot) hi
    rw [hb] at hbatch
    cases hbatch
    exact ⟨hi, hviews⟩

/-- Setting a batch aside moves its storage and no more. -/
theorem Sound.perm_withAside (hs : s.Sound) (hb : s.batch = some b) {label : String}
    (hlabel : label ∉ s.aside.map Prod.fst) : s.holdings.Perm (s.withAside label b).holdings := by
  have haside : (s.withAside label b).aside = s.aside ++ [(label, s.resting b)] := by
    show s.aside.remove label ++ _ = _
    rw [Named.remove_eq_self hlabel]
  have hstock' : (s.withAside label b).stock = s.requests.flatMap Request.holdings ++
      (s.aside.flatMap (fun p => p.2.holdings) ++ (b.stock ++ b.lent) ++
        s.kept.flatMap Response.holdings) := by
    unfold stock
    rw [haside, List.flatMap_append, List.flatMap_singleton]
    rfl
  unfold holdings
  rw [sites_holdings_of_some hb, sites_holdings_of_none (s := s.withAside label b) rfl,
    stock_of_some hb, hstock',
    show (s.withAside label b).slots.flatMap _ = _ from hs.slots_without_inputs,
    List.perm_iff_count]
  intro t
  simp only [List.count_append]
  omega

theorem setBatchAside_of_some (hb : s.batch = some b) (label : String) :
    BatchCommand.setBatchAside label s = .ok () (s.withAside label b) :=
  (Action.bind_of_ok (consult_of_ok (currentBatch_of_some hb))).trans rfl

theorem setBatchAside_of_none (hb : s.batch = none) (label : String) :
    BatchCommand.setBatchAside label s =
      .error (.internalConsistency (.unknownName "batch")) s :=
  Action.bind_of_error (consult_of_error (currentBatch_of_none hb))

/-- No input is in a slot once the batch is set aside, and no output has a place. -/
theorem mem_sites_withAside {label : String} {p : Place × Resource}
    (hp : p ∈ (s.withAside label b).sites) : p ∈ s.sites ∧ p.2.isInput = false := by
  rw [sites_of_none (s := s.withAside label b) rfl] at hp
  obtain ⟨q, hq, rfl⟩ := List.mem_map.mp hp
  obtain ⟨hslot, hi⟩ := List.mem_filter.mp hq
  exact ⟨mem_sites_of_slot hslot, by simpa using hi⟩

/-- Setting a batch aside leaves a sound session. -/
theorem Sound.withAside (hs : s.Sound) (hb : s.batch = some b) {label : String}
    (hlabel : label ∉ s.aside.map Prod.fst) : (s.withAside label b).Sound where
  keeps := hs.keeps.perm (hs.perm_withAside hb hlabel)
  keys := by
    rw [sites_of_none (s := s.withAside label b) rfl]
    have hsub : ((s.withAside label b).slots.map fun p => (Place.slot p.1, p.2)).Sublist
        s.sites := (List.filter_sublist.map _).trans (List.sublist_append_left _ _)
    exact (hsub.map Prod.fst).nodup hs.keys
  owned p hp := hs.owned p (mem_sites_withAside hp).1
  views p hp hi := by
    rw [(mem_sites_withAside hp).2] at hi
    cases hi
  requests := hs.requests
  batch _ hnone := by cases hnone
  labels := Named.nodup_put hs.labels label _
  aside p hp := by
    rcases List.mem_append.mp hp with hp | hp
    · exact hs.aside p (List.mem_filter.mp hp).1
    · rw [List.mem_singleton.mp hp]
      exact hs.resting_sound hb
  kept := hs.kept

/-- Nothing is lost when a batch is set aside. -/
theorem Sound.leads_setAside (hs : s.Sound) {label : String}
    (hlabel : label ∉ s.aside.map Prod.fst) :
    s.Leads (Command.batch (.setAside label)).moves []
      (s.perform (.batch (.setAside label))).2 := by
  cases hb : s.batch with
  | none =>
    rw [show s.perform (.batch (.setAside label)) = _ from
      Action.outcome_of_error (Action.bind_of_error (setBatchAside_of_none hb label))]
    exact hs.leads_of_none hb fun _ => rfl
  | some b =>
    rw [show s.perform (.batch (.setAside label)) = (.ok .done, s.withAside label b) from
      Action.outcome_of_ok (Action.bind_of_ok (setBatchAside_of_some hb label))]
    have hkeeps : ∀ t ∈ s.holdings, s.Preserves (s.withAside label b) t :=
      fun t ht => ⟨(hs.perm_withAside hb hlabel).mem_iff.mp ht, rfl⟩
    have hfound : ∀ label', (s.withAside label b).aside.lookup label' =
        if label' = label then some (s.resting b) else s.aside.lookup label' :=
      fun label' => Named.lookup_put s.aside label label' (s.resting b)
    refine ⟨hs.withAside hb hlabel, .of_eq rfl, fun t ht _ => hkeeps t ht,
      fun seat seat' b' hseat hb' => ?_, rfl⟩
    have hstaged : ∀ t ∈ b'.staged, s.Preserves (s.withAside label b) t :=
      fun t ht => hkeeps t (mem_holdings_of_staged hb' ht)
    cases seat with
    | inProgress =>
      cases hseat
      rw [show s.batch = some b' from hb'] at hb
      cases hb
      refine ⟨b, ?_, .refl b, hstaged⟩
      show ((s.withAside label b).aside.lookup label).map RestingBatch.batch = _
      rw [hfound, if_pos rfl]
      rfl
    | aside label' =>
      cases hseat
      obtain ⟨rest, hrest, hbatch⟩ := Option.map_eq_some_iff.mp hb'
      have hne : label' ≠ label := by
        rintro rfl
        exact hlabel (List.mem_map_of_mem (Named.mem_of_lookup hrest))
      refine ⟨b', ?_, .refl b', hstaged⟩
      show ((s.withAside label b).aside.lookup label').map RestingBatch.batch = _
      rw [hfound, if_neg hne, hrest, Option.map_some, hbatch]

/-! ## Resuming a batch -/

/-- The session after a batch was taken up again. -/
def withResumed (s : Session) (label : String) (rest : RestingBatch) : Session :=
  { s with
    batch := some rest.batch
    slots := s.slots ++ rest.inputs
    aside := s.aside.remove label }

theorem resumeBatch_of_some {label : String} {rest : RestingBatch}
    (h : s.aside.lookup label = some rest) :
    BatchCommand.resumeBatch label s = .ok () (s.withResumed label rest) := by
  have hfound : s.aside.find label = .ok rest := by
    unfold Named.find
    rw [h]
  exact (Action.bind_of_ok (consult_of_ok hfound)).trans rfl

theorem resumeBatch_of_none {label : String} (h : s.aside.lookup label = none) :
    BatchCommand.resumeBatch label s = .error (.internalConsistency (.unknownName label)) s := by
  refine Action.bind_of_error (consult_of_error ?_)
  unfold Named.find
  rw [h]

variable {label : String} {rest : RestingBatch}

/-- Resuming a batch moves its storage and no more. -/
theorem Sound.perm_withResumed (hs : s.Sound) (hb : s.batch = none)
    (h : s.aside.lookup label = some rest) :
    s.holdings.Perm (s.withResumed label rest).holdings := by
  have haside := Named.perm_remove h hs.labels
  have hinputs : rest.inputs.flatMap (fun p => p.2.holdings) = [] :=
    List.flatMap_eq_nil_iff.mpr fun p hp => holdings_of_borrowed
      ((hs.aside _ (Named.mem_of_lookup h)).inputs p hp).2.borrowed
  have hslots : (s.withResumed label rest).slots.flatMap (fun p => p.2.holdings) =
      s.slots.flatMap fun p => p.2.holdings := by
    show (s.slots ++ rest.inputs).flatMap _ = _
    rw [List.flatMap_append, hinputs, List.append_nil]
  have hrest : (s.aside.flatMap fun p => p.2.holdings).Perm
      (rest.batch.stock ++ rest.batch.lent ++
        (s.aside.remove label).flatMap fun p => p.2.holdings) :=
    haside.flatMap_right fun p => p.2.holdings
  have hstock' : (s.withResumed label rest).stock = s.requests.flatMap Request.holdings ++
      (rest.batch.stock ++ ((s.aside.remove label).flatMap (fun p => p.2.holdings) ++
        s.kept.flatMap Response.holdings)) := rfl
  unfold holdings
  rw [sites_holdings_of_none hb, sites_holdings_of_some (s := s.withResumed label rest) rfl, hslots,
    stock_of_none hb, hstock', List.perm_iff_count]
  intro t
  have hcount := List.perm_iff_count.mp hrest t
  simp only [List.count_append] at hcount ⊢
  omega

theorem mem_sites_withResumed {p : Place × Resource} (hp : p ∈ (s.withResumed label rest).sites) :
    (∃ q ∈ s.slots, p = (.slot q.1, q.2)) ∨ (∃ q ∈ rest.inputs, p = (.slot q.1, q.2)) ∨
      ∃ o ∈ rest.batch.outputs, p = (.output o.name, .buffer o.tensor.buffer) := by
  rcases List.mem_append.mp hp with hp | hp
  · obtain ⟨q, hq, rfl⟩ := List.mem_map.mp hp
    exact (List.mem_append.mp hq).imp (fun hq => ⟨q, hq, rfl⟩) fun hq => .inl ⟨q, hq, rfl⟩
  · obtain ⟨o, ho, rfl⟩ := List.mem_map.mp hp
    exact .inr (.inr ⟨o, ho, rfl⟩)

/-- The names in the slots and those of the inputs and outputs of the batch are different. -/
theorem Sound.keys_withResumed (hs : s.Sound) (h : s.aside.lookup label = some rest)
    (hfree : ∀ p ∈ rest.inputs, s.Free p.1) :
    ((s.withResumed label rest).sites.map Prod.fst).Nodup := by
  have hrest := hs.aside _ (Named.mem_of_lookup h)
  have hslots : ((s.slots ++ rest.inputs).map Prod.fst).Nodup := by
    rw [List.map_append, List.nodup_append]
    refine ⟨slots_nodup hs.keys, hrest.slots, fun n hn n' hn' heq => ?_⟩
    obtain ⟨p, hp, rfl⟩ := List.mem_map.mp hn'
    exact hfree p hp (heq ▸ hn)
  have hplaces : (s.withResumed label rest).sites.map Prod.fst =
      ((s.slots ++ rest.inputs).map Prod.fst).map Place.slot ++
        (rest.batch.outputs.map RecordedOutput.name).map Place.output := by
    unfold sites
    rw [List.map_append, List.map_map, List.map_map, List.map_map]
    show _ ++ (rest.batch.outputs.map _).map _ = _
    rw [List.map_map]
    rfl
  rw [hplaces, List.nodup_append]
  refine ⟨hslots.map fun _ _ heq => by cases heq; rfl,
    hrest.names.map fun _ _ heq => by cases heq; rfl, fun p hp p' hp' heq => ?_⟩
  obtain ⟨_, -, rfl⟩ := List.mem_map.mp hp
  obtain ⟨_, -, rfl⟩ := List.mem_map.mp hp'
  cases heq

/-- Taking a batch up again leaves a sound session. -/
theorem Sound.withResumed (hs : s.Sound) (hb : s.batch = none)
    (h : s.aside.lookup label = some rest) (hfree : ∀ p ∈ rest.inputs, s.Free p.1) :
    (s.withResumed label rest).Sound := by
  have hrest := hs.aside _ (Named.mem_of_lookup h)
  exact {
    keeps := hs.keeps.perm (hs.perm_withResumed hb h)
    keys := hs.keys_withResumed h hfree
    owned := fun p hp hi => by
      rcases mem_sites_withResumed hp with ⟨q, hq, rfl⟩ | ⟨q, hq, rfl⟩ | ⟨o, ho, rfl⟩
      · exact hs.owned _ (mem_sites_of_slot hq) hi
      · rw [(hrest.inputs q hq).1] at hi
        cases hi
      · exact hrest.outputs o ho
    -- Only the inputs that come back with the batch borrow, and they borrow from it.
    views := fun p hp hi => by
      rcases mem_sites_withResumed hp with ⟨q, hq, rfl⟩ | ⟨q, hq, rfl⟩ | ⟨o, ho, rfl⟩
      · rw [hs.not_input hb (mem_sites_of_slot hq)] at hi
        cases hi
      · exact ⟨rest.batch, rfl, (hrest.inputs q hq).2⟩
      · cases hi
    requests := hs.requests
    batch := fun b hsome => by
      cases hsome
      exact hrest.batch
    labels := (List.filter_sublist.map Prod.fst).nodup hs.labels
    aside := fun p hp => hs.aside p (List.mem_filter.mp hp).1
    kept := hs.kept }

/-- Nothing is lost when a batch is taken up again. -/
theorem Sound.leads_resume (hs : s.Sound) (hb : s.batch = none)
    (hfree : ∀ rest, s.aside.lookup label = some rest → ∀ p ∈ rest.inputs, s.Free p.1) :
    s.Leads (Command.batch (.resume label)).moves [] (s.perform (.batch (.resume label))).2 := by
  cases h : s.aside.lookup label with
  | none =>
    rw [show s.perform (.batch (.resume label)) = _ from
      Action.outcome_of_error (Action.bind_of_error (resumeBatch_of_none h))]
    refine ⟨hs, .of_eq rfl, fun t ht _ => ⟨ht, rfl⟩, fun seat seat' b hseat hbatch => ?_, rfl⟩
    cases seat with
    | inProgress =>
      rw [show s.batch = some b from hbatch] at hb
      cases hb
    | aside label' =>
      have hne : label' ≠ label := by
        rintro rfl
        rw [show s.batchAt (.aside label') = (s.aside.lookup label').map _ from rfl, h] at hbatch
        cases hbatch
      rw [show (Command.batch (.resume label)).moves (.aside label') =
        some (if label' = label then .inProgress else .aside label') from rfl, if_neg hne] at hseat
      cases hseat
      exact ⟨b, hbatch, .refl b, fun t ht => ⟨mem_holdings_of_staged hbatch ht, rfl⟩⟩
  | some rest =>
    rw [show s.perform (.batch (.resume label)) = (.ok .done, s.withResumed label rest) from
      Action.outcome_of_ok (Action.bind_of_ok (resumeBatch_of_some h))]
    have hkeeps : ∀ t ∈ s.holdings, s.Preserves (s.withResumed label rest) t :=
      fun t ht => ⟨(hs.perm_withResumed hb h).mem_iff.mp ht, rfl⟩
    refine ⟨hs.withResumed hb h (hfree rest h), .of_eq rfl, fun t ht _ => hkeeps t ht,
      fun seat seat' b hseat hbatch => ?_, rfl⟩
    have hstaged : ∀ t ∈ b.staged, s.Preserves (s.withResumed label rest) t :=
      fun t ht => hkeeps t (mem_holdings_of_staged hbatch ht)
    cases seat with
    | inProgress =>
      rw [show s.batch = some b from hbatch] at hb
      cases hb
    | aside label' =>
      cases hseat
      by_cases heq : label' = label
      · subst heq
        rw [show s.batchAt (.aside label') = (s.aside.lookup label').map _ from rfl, h] at hbatch
        cases hbatch
        rw [if_pos rfl]
        exact ⟨rest.batch, rfl, .refl rest.batch, hstaged⟩
      · rw [if_neg heq]
        refine ⟨b, ?_, .refl b, hstaged⟩
        show ((s.aside.remove label).lookup label').map _ = _
        rw [Named.lookup_remove, if_neg heq]
        exact hbatch

end Session

end DeviceBatch
