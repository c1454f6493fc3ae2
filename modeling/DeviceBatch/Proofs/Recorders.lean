import DeviceBatch.Proofs.Proceedings

/-!
# Metrics and statistics tell the same story

Two recorders are fed from every operation: the statistics of the platform and the metrics. At every
moment of every session, whatever failed in it, they agree, and they say what was done
(`Session.recorders_agree`).

Batches come and go, and may be set aside for one another, so it is kept on a `Roll` which of them
have been finalized. A batch is reported when it is finalized for the first time, and never again
(`Session.Tracks.after`).
-/

namespace DeviceBatch

open Local

/-! ## Batches by number -/

/-- The batches of a session, by number in the order in which they were opened. -/
structure Roll where
  opened : Nat := 0
  /-- The batch in progress, if there is one. -/
  current : Nat := 0
  /-- The batch that was last set aside under a label, if there was one. -/
  aside : String → Nat := fun _ => 0
  /-- The batches that have been finalized at least once. -/
  finalized : Finset Nat := ∅
  /-- The numbers of requests of those that were delivered, in this order. -/
  samples : List Nat := []

namespace Roll

/-- The roll after a command on batches with its outcome. -/
def note (r : Roll) (s : Session) : BatchCommand → Except Error Reply → Roll
  | .create .., .ok _ => { r with opened := r.opened + 1, current := r.opened }
  | .finalize, outcome =>
    match s.batch with
    | none => r
    | some b =>
      { r with
        finalized := insert r.current r.finalized
        samples := r.samples ++ if outcome.isOk then [b.requests.length] else [] }
  | .setAside label, .ok _ => { r with aside := Function.update r.aside label r.current }
  | .resume label, .ok _ => { r with current := r.aside label }
  | _, _ => r

/-- The roll after a step of the session. -/
def after (r : Roll) (s : Session) : Session.Step → Roll
  | .perform (.batch c) => r.note s c (s.perform (.batch c)).1
  | _ => r

/-- The roll after several steps. -/
def follow (r : Roll) (s : Session) : List Session.Step → Roll
  | [] => r
  | step :: steps => (r.after s step).follow (s.after step) steps

/-- The number is that of a batch in this state. -/
def Numbers (r : Roll) (number : Nat) (state : BatchState) : Prop :=
  number < r.opened ∧ (state = .finalized ↔ number ∈ r.finalized)

end Roll

namespace Session

variable {s s' : Session} {r r' : Roll}

/-- The roll is that of the session. -/
structure Tracks (s : Session) (r : Roll) : Prop where
  current : ∀ b, s.batch = some b → r.Numbers r.current b.state
  aside : ∀ p ∈ s.aside, r.Numbers (r.aside p.1) p.2.batch.state
  apart : s.batch.isSome → ∀ p ∈ s.aside, r.aside p.1 ≠ r.current
  distinct : ∀ p ∈ s.aside, ∀ q ∈ s.aside, r.aside p.1 = r.aside q.1 → p.1 = q.1
  known : ∀ number ∈ r.finalized, number < r.opened

/-- The session goes on to one whose roll is another one, and what has come on the roll has been
reported. -/
def Enrolls (s : Session) (r : Roll) (s' : Session) (r' : Roll) : Prop :=
  s'.Tracks r' ∧ ∃ count samples, s.machine.Reports count samples s'.machine ∧
    r'.finalized.card = r.finalized.card + count ∧ r'.samples = r.samples ++ samples

theorem tracks_start (platform : Platform) (device : Nat) : (start platform device).Tracks {} where
  current _ hb := by cases hb
  aside _ hp := absurd hp List.not_mem_nil
  apart _ _ hp := absurd hp List.not_mem_nil
  distinct _ hp := absurd hp List.not_mem_nil
  known _ hn := absurd hn (Finset.notMem_empty _)

namespace Tracks

/-- Nothing comes on the roll. -/
theorem enrolls (h : s'.Tracks r') (hm : s.machine.Proceeds s'.machine)
    (hf : r'.finalized = r.finalized) (hs : r'.samples = r.samples) : s.Enrolls r s' r' :=
  ⟨h, 0, [], hm.reports, by rw [hf, Nat.add_zero], by rw [hs, List.append_nil]⟩

theorem refl (h : s.Tracks r) : s.Enrolls r s r := h.enrolls (.refl _) rfl rfl

/-- All batches are as they were. -/
theorem continues (h : s.Tracks r) (hs : s.Continues s') : s.Enrolls r s' r := by
  refine enrolls ⟨fun b' hb' => ?_, ?_, fun hb' => ?_, ?_, h.known⟩ hs.proceeds rfl rfl
  · have hstate := hs.batch
    rw [hb'] at hstate
    obtain ⟨b, hb, heq⟩ := Option.map_eq_some_iff.mp hstate.symm
    exact heq ▸ h.current b hb
  · rw [hs.aside]
    exact h.aside
  · have hsome := congrArg Option.isSome hs.batch
    rw [Option.isSome_map, Option.isSome_map, hb'] at hsome
    rw [hs.aside]
    exact h.apart hsome.symm
  · rw [hs.aside]
    exact h.distinct

/-- A new batch gets a new number. -/
theorem create (h : s.Tracks r) (count : Option Nat) (settings : BatchSettings) (stream : Stream) :
    s.Enrolls r (s.perform (.batch (.create count settings stream))).2
      (r.note s (.create count settings stream)
        (s.perform (.batch (.create count settings stream))).1) := by
  rcases s.perform_create count settings stream with ⟨e, -, hrun⟩ | ⟨-, hrun⟩
  · rw [hrun]
    exact h.refl
  · rw [hrun]
    -- No batch has had the next number yet, so none was finalized under it.
    have hnew : ∀ {number state}, r.Numbers number state → number ≠ r.opened ∧
        Roll.Numbers { r with opened := r.opened + 1, current := r.opened } number state :=
      fun hn => ⟨Nat.ne_of_lt hn.1, Nat.lt_succ_of_lt hn.1, hn.2⟩
    refine enrolls ⟨?_, fun p hp => (hnew (h.aside p hp)).2, fun _ p hp => (hnew (h.aside p hp)).1,
      h.distinct, fun number hn => Nat.lt_succ_of_lt (h.known number hn)⟩
      ((Machine.Proceeds.emit _ _).trans (.emit _ _)) rfl rfl
    rintro b ⟨⟩
    exact ⟨Nat.lt_succ_self _, nofun, fun hn => absurd (h.known _ hn) (Nat.lt_irrefl _)⟩

/-- A batch is reported if it is finalized for the first time. -/
theorem finalize (h : s.Tracks r) : s.Enrolls r (s.perform (.batch .finalize)).2
    (r.note s .finalize (s.perform (.batch .finalize)).1) := by
  unfold Roll.note
  cases hb : s.batch with
  | none =>
    have hrun : s.perform (.batch .finalize) = (.error _, s) :=
      Action.outcome_of_error (Action.bind_of_error (onBatch_of_none hb))
    rw [hrun]
    exact h.refl
  | some b =>
    dsimp only
    have hnumber := h.current b hb
    have hsome : s.batch.isSome := by rw [hb]; rfl
    cases hstate : b.state with
    | finalized =>
      rw [perform_of_finalized hb hstate (c := .finalize) rfl,
        Finset.insert_eq_of_mem (hnumber.2.mp hstate)]
      exact enrolls ⟨h.current, h.aside, h.apart, h.distinct, h.known⟩ (.refl _) rfl
        (List.append_nil _)
    | opened =>
      have hnew : r.current ∉ r.finalized := fun hin => by
        cases hstate.symm.trans (hnumber.2.mpr hin)
      -- Whatever comes of it, the batch in progress is finalized then, and no other is.
      have htracks : ∀ {b' : Local.Batch} {m : Machine} {samples : List Nat},
          b'.state = .finalized → Tracks { s with machine := m, batch := some b' }
            { r with finalized := insert r.current r.finalized, samples } := by
        intro b' m samples hb'
        refine ⟨?_, fun p hp => ?_, fun _ => h.apart hsome, h.distinct, ?_⟩
        · rintro _ ⟨⟩
          exact ⟨hnumber.1, fun _ => Finset.mem_insert_self _ _, fun _ => hb'⟩
        · obtain ⟨hlt, hiff⟩ := h.aside p hp
          exact ⟨hlt, hiff.trans (Finset.mem_insert.trans (or_iff_right (h.apart hsome p hp))).symm⟩
        · intro number hn
          rcases Finset.mem_insert.mp hn with rfl | hn
          · exact hnumber.1
          · exact h.known number hn
      have hcard := Finset.card_insert_of_notMem hnew
      have hreported := Local.Batch.finalize_reports hstate s.machine
      cases hrun : DeviceBatch.Batch.finalize exchange (s.machine, b) with
      | ok _ q =>
        obtain ⟨hfinalized, hreports⟩ := hreported.of_ok hrun
        have hdone : s.perform (.batch .finalize) =
            (.ok .done, { s with machine := q.1, batch := some q.2 }) :=
          Action.outcome_of_ok (Action.bind_of_ok (onBatch_of_ok hb hrun))
        rw [hdone]
        exact ⟨htracks hfinalized, 1, _, hreports, hcard, rfl⟩
      | error e q =>
        obtain ⟨hfinalized, hreports⟩ := hreported.of_error hrun
        have hfailed : s.perform (.batch .finalize) =
            (.error e, { s with machine := q.1, batch := some q.2 }) :=
          Action.outcome_of_error (Action.bind_of_error (onBatch_of_error hb hrun))
        rw [hfailed]
        exact ⟨htracks hfinalized, 1, _, hreports, hcard, rfl⟩

/-- Without a batch in progress the roll is still that of the session. -/
theorem closes (h : s.Tracks r) (hm : s.machine.Proceeds s'.machine) (hb : s'.batch = none)
    (haside : s'.aside = s.aside) : s.Enrolls r s' r := by
  refine enrolls ⟨fun b hb' => ?_, ?_, fun hb' => ?_, ?_, h.known⟩ hm rfl rfl
  · cases hb.symm.trans hb'
  · rw [haside]
    exact h.aside
  · rw [hb] at hb'
    cases hb'
  · rw [haside]
    exact h.distinct

/-- A batch that ends leaves the roll as it is. -/
theorem drop (h : s.Tracks r) : s.Enrolls r (s.perform (.batch .drop)).2 r := by
  cases hb : s.batch with
  | none =>
    have hrun : s.perform (.batch .drop) = (.error _, s) :=
      Action.outcome_of_error (Action.bind_of_error (endBatch_of_none hb _))
    rw [hrun]
    exact h.refl
  | some b =>
    have hrun : s.perform (.batch .drop) =
        (.ok .done, s.withoutBatch (b.release exchange s.machine) s.kept) :=
      Action.outcome_of_ok (Action.bind_of_ok (endBatch_of_some hb _))
    rw [hrun]
    exact h.closes (b.proceeds_release s.machine) rfl rfl

theorem takeResponses (h : s.Tracks r) :
    s.Enrolls r (s.perform (.batch .takeResponses)).2 r := by
  cases hb : s.batch with
  | none =>
    have hrun : s.perform (.batch .takeResponses) = (.error _, s) :=
      Action.outcome_of_error (Action.bind_of_error (endBatch_of_none hb _))
    rw [hrun]
    exact h.refl
  | some b =>
    have hrun : s.perform (.batch .takeResponses) = (.ok (.count b.responses.length),
        s.withoutBatch (s.kept.foldl (fun m r => r.release m) (b.releaseRest exchange s.machine))
          b.responses) :=
      Action.outcome_of_ok (Action.bind_of_ok (endBatch_of_some hb _))
    rw [hrun]
    exact h.closes ((b.proceeds_releaseRest s.machine).trans
      (.foldl (fun m r => r.proceeds_release m) s.kept _)) rfl rfl

/-- A batch takes its number with it when it is set aside. -/
theorem setAside (h : s.Tracks r) (label : String) :
    s.Enrolls r (s.perform (.batch (.setAside label))).2
      (r.note s (.setAside label) (s.perform (.batch (.setAside label))).1) := by
  cases hb : s.batch with
  | none =>
    have hrun : s.perform (.batch (.setAside label)) = (.error _, s) :=
      Action.outcome_of_error (Action.bind_of_error (setBatchAside_of_none hb _))
    rw [hrun]
    exact h.refl
  | some b =>
    have hrun : s.perform (.batch (.setAside label)) = (.ok .done, s.withAside label b) :=
      Action.outcome_of_ok (Action.bind_of_ok (setBatchAside_of_some hb _))
    rw [hrun]
    have hsome : s.batch.isSome := by rw [hb]; rfl
    -- What was under the label before has gone, and everything else keeps its number.
    have hmem : ∀ p ∈ s.aside.put label (s.resting b),
        p ∈ s.aside ∧ Function.update r.aside label r.current p.1 = r.aside p.1 ∨
          p = (label, s.resting b) ∧ Function.update r.aside label r.current p.1 = r.current := by
      intro p hp
      rcases List.mem_append.mp hp with hp | hp
      · obtain ⟨hp, hne⟩ := List.mem_filter.mp hp
        exact .inl ⟨hp, Function.update_of_ne (of_decide_eq_true hne) ..⟩
      · obtain rfl := List.mem_singleton.mp hp
        exact .inr ⟨rfl, Function.update_self ..⟩
    refine enrolls ⟨nofun, fun p hp => ?_, nofun, fun p hp q hq heq => ?_, h.known⟩ (.refl _)
      rfl rfl
    · show r.Numbers (Function.update r.aside label r.current p.1) _
      rcases hmem p hp with ⟨hp, hn⟩ | ⟨rfl, hn⟩
      · rw [hn]
        exact h.aside p hp
      · rw [hn]
        exact h.current b hb
    · rcases hmem p hp with ⟨hp, hn⟩ | ⟨rfl, hn⟩ <;> rcases hmem q hq with ⟨hq, hn'⟩ | ⟨rfl, hn'⟩
      · exact h.distinct p hp q hq (hn.symm.trans (heq.trans hn'))
      · exact absurd (hn.symm.trans (heq.trans hn')) (h.apart hsome p hp)
      · exact absurd (hn'.symm.trans (heq.symm.trans hn)) (h.apart hsome q hq)
      · rfl

/-- It has the same number when it is resumed. -/
theorem resume (h : s.Tracks r) (label : String) :
    s.Enrolls r (s.perform (.batch (.resume label))).2
      (r.note s (.resume label) (s.perform (.batch (.resume label))).1) := by
  cases hrest : s.aside.lookup label with
  | none =>
    have hrun : s.perform (.batch (.resume label)) = (.error _, s) :=
      Action.outcome_of_error (Action.bind_of_error (resumeBatch_of_none hrest))
    rw [hrun]
    exact h.refl
  | some rest =>
    have hrun : s.perform (.batch (.resume label)) = (.ok .done, s.withResumed label rest) :=
      Action.outcome_of_ok (Action.bind_of_ok (resumeBatch_of_some hrest))
    rw [hrun]
    have hin := Named.mem_of_lookup hrest
    -- The batches that stay aside have other labels, and so other numbers.
    have hrem : ∀ p ∈ s.aside.remove label, p ∈ s.aside ∧ p.1 ≠ label := fun p hp =>
      (List.mem_filter.mp hp).imp_right of_decide_eq_true
    refine enrolls ⟨?_, fun p hp => h.aside p (hrem p hp).1, fun _ p hp heq => ?_,
      fun p hp q hq => h.distinct p (hrem p hp).1 q (hrem q hq).1, h.known⟩ (.refl _) rfl rfl
    · rintro _ ⟨⟩
      exact h.aside _ hin
    · exact (hrem p hp).2 (h.distinct p (hrem p hp).1 _ hin heq)

/-- Every command on requests, batches and responses. -/
theorem batch (h : s.Tracks r) (c : BatchCommand) :
    s.Enrolls r (s.perform (.batch c)).2 (r.note s c (s.perform (.batch c)).1) := by
  have hcontinues : c.endsTurn = false → c ≠ .finalize → s.Enrolls r (s.perform (.batch c)).2 r :=
    fun hturn hc => h.continues (keeps_batch c hturn hc s).outcome
  cases c with
  | create count settings stream => exact h.create count settings stream
  | finalize => exact h.finalize
  | drop => exact h.drop
  | takeResponses => exact h.takeResponses
  | setAside label => exact h.setAside label
  | resume label => exact h.resume label
  | _ => exact hcontinues rfl nofun

/-- Every step keeps the roll, and what comes on it has been reported. -/
theorem after (h : s.Tracks r) (step : Step) :
    s.Enrolls r (s.after step) (r.after s step) := by
  cases step with
  | perform c =>
    cases c with
    | buffer c => exact h.continues (keeps_buffer c s).outcome
    | platform c => exact h.continues (keeps_platform c s).outcome
    | side c => exact h.continues (keeps_side c s).outcome
    | batch c => exact h.batch c
  | dropRequest index =>
    unfold Session.after
    dsimp only
    split
    · exact h.refl
    · next request _ => exact h.continues ⟨request.proceeds_release s.machine, rfl, rfl⟩
  | dropResponse index =>
    unfold Session.after
    dsimp only
    split
    · exact h.refl
    · next response _ => exact h.continues ⟨response.proceeds_release s.machine, rfl, rfl⟩

/-- So do several steps. -/
theorem foldl_after (h : s.Tracks r) (steps : List Step) :
    s.Enrolls r (steps.foldl Session.after s) (r.follow s steps) := by
  induction steps generalizing s r with
  | nil => exact h.refl
  | cons step steps ih =>
    obtain ⟨hstep, count, samples, hreports, hcard, hsamples⟩ := h.after step
    obtain ⟨hrest, count', samples', hreports', hcard', hsamples'⟩ := ih hstep
    refine ⟨hrest, count + count', samples ++ samples', hreports.trans hreports', ?_, ?_⟩
    · rw [← Nat.add_assoc, ← hcard]
      exact hcard'
    · rw [← List.append_assoc, ← hsamples]
      exact hsamples'

end Tracks

/-! ## Every session -/

/-- At every moment of every session the statistics of the platform and the metrics agree, and they
tell of everything that has been done, each step once. The bytes allocated are those in use and
those given back, if no name is given twice and nothing goes past all buffers. Where copies are
deferred, the ones from host to host are those that were never queued. A batch is counted when it
is finalized for the first time, and it is in the histogram if it was delivered then. -/
theorem recorders_agree (platform : Platform) (device : Nat) (steps : List Step) :
    let s := steps.foldl Session.after (start platform device)
    let r := Roll.follow {} (start platform device) steps
    let metrics := s.machine.metrics
    let stats := s.machine.stats
    ∑ location, metrics.value (.allocations location) = stats.allocations ∧
    ∑ kind, metrics.value (.copies kind) = stats.copies ∧
    ∑ kind, metrics.value (.copiedBytes kind) = stats.copiedBytes ∧
    metrics.value .synchronizations = stats.synchronizations ∧
    metrics.value (.finalized true) + metrics.value (.finalized false) +
      metrics.value .failures = r.finalized.card ∧
    metrics.value (.finalized true) + metrics.value (.finalized false) = r.samples.length ∧
    metrics.batchSizes = r.samples ∧
    (∃ postings, (Machine.start platform).Works postings s.machine) ∧
    ∀ postings, (Machine.start platform).Works postings s.machine →
      (∀ c, metrics.value c = (postings.map (Posting.credit c)).sum) ∧
      ((start platform device).Allows steps →
        ∑ location, metrics.value (.allocatedBytes location) =
          stats.liveBytes + (postings.map Posting.releasedBytes).sum) ∧
      (platform.isDeferred = true →
        (∀ kind bytes queued, .copied kind bytes queued ∈ postings →
          (kind = .hostToHost ↔ queued = false)) ∧
        metrics.value (.copies .hostToHost) = postings.countP Posting.isDirect ∧
        metrics.value (.copiedBytes .hostToHost) = (postings.map Posting.directBytes).sum) := by
  intro s r metrics stats
  obtain ⟨-, count, samples, ⟨postings, hworks, hcount, hsamples⟩, hcard, hroll⟩ :=
    (tracks_start platform device).foldl_after steps
  have hagrees := hworks.agrees
  have hbatches : metrics.batchSizes = r.samples := by
    rw [hroll, ← hsamples]
    exact hworks.tells.batchSizes
  refine ⟨hagrees.allocations, hagrees.copies, hagrees.copiedBytes, hagrees.synchronizations,
    ?_, ?_, hbatches, ⟨postings, hworks⟩, fun postings hworks => ⟨hworks.tells.value,
      fun hallows => ?_, fun hdeferred => hworks.tells.direct (hworks.platform.symm ▸ hdeferred)⟩⟩
  · rw [hworks.tells.reports, hcount, hcard]
    exact (Nat.zero_add count).symm
  · rw [← hbatches]
    exact hworks.tells.delivered
  · have haccounts := ((accounted_start platform device).foldl_after hallows).machine_zero
    rw [← haccounts.balanced.size_eq]
    exact hworks.tells.size

/-- Copies that wait and one that does not, a batch that cannot be delivered while another one is
set aside, and batches that are finalized twice. -/
def medley : List Step := [
  .perform (.buffer (.ofList "a" .uint8 [1, 2, 3] .device 0 ⟨1⟩)),
  .perform (.buffer (.copyTo "b" (.slot "a") .host 0)),
  .perform (.buffer (.clone "c" (.slot "b"))),
  .perform (.buffer (.release "a")),
  .perform (.batch (.request 1 [⟨"x", .uint8, [1], [7], .host, 0⟩] [] [])),
  .perform (.batch (.create none {} ⟨3⟩)),
  .perform (.batch (.getOutput "y" .uint8 [1] .host 0)),
  .perform (.batch (.setAside "first")),
  .perform (.batch (.create none {} ⟨3⟩)),
  .perform (.batch (.getOutput "y" .uint8 [2] .host 0)),
  .perform (.batch .finalize),
  .perform (.batch .finalize),
  .perform (.batch .drop),
  .perform (.batch (.resume "first")),
  .perform (.batch .finalize),
  .perform (.batch .finalize)]

/-- The names given are free when it is their turn. -/
theorem allows_medley : (start (.simulated ⟨1, 64, true⟩) 0).Allows medley := by
  refine ⟨List.not_mem_nil, ?_, ?_, trivial, trivial, ?_, trivial, ?_, ?_, trivial, trivial,
    trivial, trivial, ⟨?_, ?_⟩, trivial, trivial, trivial⟩
  · show "b" ∉ _
    decide +kernel
  · show "c" ∉ _
    decide +kernel
  · exact Option.isNone_iff_eq_none.mp (by decide +kernel)
  · show "first" ∉ _
    decide +kernel
  · exact Option.isNone_iff_eq_none.mp (by decide +kernel)
  · exact Option.isNone_iff_eq_none.mp (by decide +kernel)
  · have hempty : ∀ p ∈ ((medley.take 13).foldl after (start (.simulated ⟨1, 64, true⟩) 0)).aside,
        p.2.inputs = [] := by
      decide +kernel
    intro rest hrest p hp
    rw [hempty _ (Named.mem_of_lookup hrest)] at hp
    cases hp

/-- Of the seventeen bytes allocated nine are in use at the end, and eight were given back. The two
copies from host to host are the ones that were not queued. Two batches were finalized, and one of
them was delivered. -/
theorem medley_agrees :
    let s := medley.foldl after (start (.simulated ⟨1, 64, true⟩) 0)
    let metrics := s.machine.metrics
    (start (.simulated ⟨1, 64, true⟩) 0).Allows medley ∧
    ∑ location, metrics.value (.allocations location) = 8 ∧
    ∑ kind, metrics.value (.copies kind) = 4 ∧ ∑ kind, metrics.value (.copiedBytes kind) = 10 ∧
    metrics.value .synchronizations = 2 ∧
    metrics.value (.finalized true) + metrics.value (.finalized false) +
      metrics.value .failures = 2 ∧
    metrics.batchSizes = [1] ∧
    ∃ postings, (Machine.start (.simulated ⟨1, 64, true⟩)).Works postings s.machine ∧
      (postings.map Posting.releasedBytes).sum = 8 ∧ postings.countP Posting.isDirect = 2 ∧
      (postings.map Posting.directBytes).sum = 4 := by
  obtain ⟨hallocations, hcopies, hcopied, hsyncs, hfinalized, -, hsizes, ⟨postings, hworks⟩,
    htold⟩ := recorders_agree (.simulated ⟨1, 64, true⟩) 0 medley
  obtain ⟨-, hheld, hdirect⟩ := htold postings hworks
  obtain ⟨-, hcount, hmoved⟩ := hdirect rfl
  replace hheld := hheld allows_medley
  have hstats : (medley.foldl after (start (.simulated ⟨1, 64, true⟩) 0)).machine.stats =
      ⟨8, 3, 9, 4, 10, 2⟩ := by
    decide +kernel
  have hroll : (Roll.follow {} (start (.simulated ⟨1, 64, true⟩) 0) medley).finalized = {0, 1} ∧
      (Roll.follow {} (start (.simulated ⟨1, 64, true⟩) 0) medley).samples = [1] := by
    decide +kernel
  have hmetrics :
      let metrics := (medley.foldl after (start (.simulated ⟨1, 64, true⟩) 0)).machine.metrics
      ∑ location, metrics.value (.allocatedBytes location) = 17 ∧
        metrics.value (.copies .hostToHost) = 2 ∧ metrics.value (.copiedBytes .hostToHost) = 4 := by
    decide +kernel
  rw [hstats] at hallocations hcopies hcopied hsyncs hheld
  rw [hroll.1] at hfinalized
  rw [hroll.2] at hsizes
  generalize medley.foldl after (start (.simulated ⟨1, 64, true⟩) 0) = s at *
  refine ⟨allows_medley, hallocations, hcopies, hcopied, hsyncs, hfinalized, hsizes, postings,
    hworks, ?_, hcount.symm.trans hmetrics.2.1, hmoved.symm.trans hmetrics.2.2⟩
  have hsum := hmetrics.1.symm.trans hheld
  exact (Nat.add_left_cancel hsum).symm

end Session

end DeviceBatch
