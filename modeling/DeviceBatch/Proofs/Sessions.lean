import DeviceBatch.Proofs.Finalizing
import DeviceBatch.Proofs.Performing

/-!
# What commands leave alone

Which commands are permitted (`Command.Permitted`), and what stays whatever permitted command is
performed: requests are only added and keep what they store, and as long as a batch does not end, it
is a batch over the same requests on the same stream, and its inputs keep their bytes. A batch can
be set aside for another one and resumed later; `Seat` says where it is meanwhile.

`Session.Retains` says so of a command that neither ends a batch nor moves one to another seat, and
`Session.Leads` of any run.
-/

namespace DeviceBatch

open Local

/-! ## Permitted commands -/

/-- One batch is in progress at a time, inputs and batches set aside get names of their own, and no
host storage is dropped while a waiting copy touches it. -/
def BatchCommand.Permitted (s : Session) : BatchCommand → Prop
  | create .. => s.batch = none
  | getInput slot .. => s.Free slot
  | takeResponses => ∀ b, s.batch = some b →
    (∀ o ∈ b.outputs, s.DropsSafely (.buffer o.tensor.buffer)) ∧
    ∀ r ∈ s.kept, ∀ t ∈ r.holdings, t.location = .host → s.machine.Untouched t.block
  | drop => ∀ b, s.batch = some b → (∀ o ∈ b.outputs, s.DropsSafely (.buffer o.tensor.buffer)) ∧
    ∀ r ∈ b.responses, ∀ t ∈ r.holdings, t.location = .host → s.machine.Untouched t.block
  | setAside label => label ∉ s.aside.map Prod.fst
  | resume label => s.batch = none ∧
    ∀ rest, s.aside.lookup label = some rest → ∀ p ∈ rest.inputs, s.Free p.1
  | _ => True

namespace Command

/-- A permitted command does not reach past buffers, and it keeps storage in which copies wait:
callers keep both ranges of a copy alive until its stream is synchronized, and moves and adoptions
of buffers by tensors do not fail where that would drop such a range. -/
def Permitted (s : Session) : Command → Prop
  | buffer c => c.Permitted s ∧ c.SparesInputs s
  | platform c =>
    match c with
    | .describe | .synchronize _ | .references _ => True
    | _ => False
  | batch c => c.Permitted s
  | side _ => False

/-- The inputs of the request that a command made, given what came of the command. -/
def supplies (c : Command) (outcome : Except Error Reply) : List (List InputSpec) :=
  match c, outcome with
  | batch (.request _ inputs _ _), .ok _ => [inputs]
  | _, _ => []

end Command

namespace Session

/-- All commands are permitted when it is their turn. -/
def Permits (s : Session) : List Command → Prop
  | [] => True
  | c :: cs => c.Permitted s ∧ (s.perform c).2.Permits cs

/-- A copy to another buffer of the same type, which is no input of a batch, is permitted. -/
theorem permitted_copy {s : Session} {dst src : Place} {dstOffset : Nat}
    {range : Option (Nat × Nat)} (hne : dst ≠ src)
    (h : (s.resourceAt dst).toOption.all fun r => !r.isInput &&
      (s.resourceAt src).toOption.all fun r' => r.data.dtype == r'.data.dtype) :
    (Command.buffer (.copy dst src dstOffset range)).Permitted s := by
  have hat : ∀ r, s.resourceAt dst = .ok r → r.isInput = false ∧
      ∀ r', s.resourceAt src = .ok r' → r.data.dtype = r'.data.dtype := by
    intro r hr
    rw [hr] at h
    obtain ⟨hinput, hsource⟩ := Bool.and_eq_true_iff.mp h
    refine ⟨by simpa using hinput, fun r' hr' => ?_⟩
    rw [hr'] at hsource
    exact eq_of_beq hsource
  exact ⟨⟨hne, fun r r' hr hr' => (hat r hr).2 r' hr'⟩, fun r hr => (hat r hr).1⟩

/-- The inputs of the requests that commands make, request by request. -/
def supplied (s : Session) : List Command → List (List InputSpec)
  | [] => []
  | c :: cs => c.supplies (s.perform c).1 ++ (s.perform c).2.supplied cs

end Session

/-! ## Where a batch is -/

/-- A batch is in progress, or it was set aside under a label. -/
inductive Seat where
  | inProgress
  | aside (label : String)
  deriving DecidableEq, Repr

/-- The seat of a batch after a command; none if the batch has ended. -/
def Command.moves : Command → Seat → Option Seat
  | batch .takeResponses, .inProgress | batch .drop, .inProgress => none
  | batch (.setAside label), .inProgress => some (.aside label)
  | batch (.resume label), .aside label' =>
    some (if label' = label then .inProgress else .aside label')
  | _, seat => some seat

/-- The seat of a batch after several commands. -/
def Seat.after (seat : Seat) (cs : List Command) : Option Seat :=
  cs.foldlM (fun seat c => c.moves seat) seat

/-- The batch at a seat. -/
def Session.batchAt (s : Session) : Seat → Option Local.Batch
  | .inProgress => s.batch
  | .aside label => (s.aside.lookup label).map RestingBatch.batch

/-- The same batch, perhaps with more inputs, outputs and responses. -/
structure Local.Batch.Continues (b b' : Local.Batch) : Prop where
  requests : b'.requests = b.requests
  stream : b'.stream = b.stream
  maximum : b'.held.outputs.maximum = b.held.outputs.maximum
  staging : b.held.inputs.staging <+: b'.held.inputs.staging

namespace Local.Batch.Continues

variable {b b' b'' : Local.Batch}

theorem refl (b : Local.Batch) : b.Continues b := ⟨rfl, rfl, rfl, List.prefix_rfl⟩

theorem trans (h : b.Continues b') (h' : b'.Continues b'') : b.Continues b'' where
  requests := h'.requests.trans h.requests
  stream := h'.stream.trans h.stream
  maximum := h'.maximum.trans h.maximum
  staging := h.staging.trans h'.staging

/-- Staging buffers are kept as long as the batch. -/
theorem staged (h : b.Continues b') : b.staged ⊆ b'.staged := by
  intro t ht
  obtain ⟨g, hg, ht⟩ := List.mem_flatMap.mp ht
  refine List.mem_flatMap.mpr ⟨g, h.staging.subset hg, ?_⟩
  rw [h.stream]
  exact ht

/-- What a batch can see, it can see as long as it lasts. -/
theorem seen (h : b.Continues b') : b.seen ⊆ b'.seen := by
  unfold Local.Batch.seen
  rw [h.requests]
  exact List.append_subset.mpr ⟨List.subset_append_left _ _,
    List.subset_append_of_subset_right _ h.staged⟩

end Local.Batch.Continues

namespace Session

variable {s s' s'' : Session} {new new' : List (List InputSpec)} {moves moves' : Seat → Option Seat}

/-! ## What stays -/

/-- A holding is still there, and will hold what it was to hold. -/
def Preserves (s : Session) (s' : Session) (t : Holding) : Prop :=
  t ∈ s'.holdings ∧
    s'.machine.outlook.memory.block? t.block = s.machine.outlook.memory.block? t.block

theorem Preserves.trans {t : Holding} (h : s.Preserves s' t) (h' : s'.Preserves s'' t) :
    s.Preserves s'' t := ⟨h'.1, h'.2.trans h.2⟩

/-- Requests were made that store `new`. -/
def Supplies (s : Session) (new : List (List InputSpec)) (s' : Session) : Prop :=
  ∃ rs, s'.requests = s.requests ++ rs ∧
    List.Forall₂ (fun r specs => r.Stores specs s'.machine.outlook) rs new

theorem Supplies.of_eq (h : s'.requests = s.requests) : s.Supplies [] s' :=
  ⟨[], by rw [h, List.append_nil], .nil⟩

/-- From one session to another by something that ends no batch. Meanwhile requests were made that
store `new`. -/
structure Retains (s : Session) (new : List (List InputSpec)) (s' : Session) : Prop where
  sound : s'.Sound
  requests : s.Supplies new s'
  /-- Storage that only the library writes stays. -/
  fixed : ∀ t ∈ s.holdings, t.use.IsFixed → s.Preserves s' t
  batch : ∀ b, s.batch = some b → ∃ b', s'.batch = some b' ∧ b.Continues b'
  aside : s'.aside = s.aside
  strays : s'.machine.strays = s.machine.strays

/-- From one session to a later one, during which batches move between seats. Meanwhile requests
were made that store `new`. -/
structure Leads (s : Session) (moves : Seat → Option Seat) (new : List (List InputSpec))
    (s' : Session) : Prop where
  sound : s'.Sound
  requests : s.Supplies new s'
  stored : ∀ t ∈ s.holdings, t.use = .stored → s.Preserves s' t
  /-- A batch that has not ended still has its staging buffers, and they keep their bytes. -/
  batch : ∀ seat seat' b, moves seat = some seat' → s.batchAt seat = some b →
    ∃ b', s'.batchAt seat' = some b' ∧ b.Continues b' ∧ ∀ t ∈ b.staged, s.Preserves s' t
  /-- All copies were performed on live storage. -/
  strays : s'.machine.strays = s.machine.strays

theorem mem_holdings_of_requests {r : Request} (hr : r ∈ s.requests) {t : Holding}
    (ht : t ∈ r.holdings) : t ∈ s.holdings :=
  List.mem_append_right _ (List.mem_append_left _ (List.mem_flatMap.mpr ⟨r, hr, ht⟩))

theorem use_of_mem_request {r : Request} {t : Holding} (ht : t ∈ r.holdings) : t.use = .stored := by
  obtain ⟨i, -, hi⟩ := List.mem_flatMap.mp ht
  exact Buffer.use_of_mem_holdings hi

theorem use_of_mem_staged {b : Local.Batch} {t : Holding} (ht : t ∈ b.staged) :
    t.use = .staged b.stream := by
  obtain ⟨g, -, hg⟩ := List.mem_flatMap.mp ht
  exact Buffer.use_of_mem_holdings hg

/-- A batch holds its staging buffers wherever it is. -/
theorem mem_holdings_of_staged {seat : Seat} {b : Local.Batch} (hb : s.batchAt seat = some b)
    {t : Holding} (ht : t ∈ b.staged) : t ∈ s.holdings := by
  have hstock : t ∈ b.stock := List.mem_append_right _ ht
  refine List.mem_append_right _ (List.mem_append_right _ ?_)
  cases seat with
  | inProgress =>
    rw [show s.batch = some b from hb]
    exact List.mem_append_left _ hstock
  | aside label =>
    obtain ⟨rest, hrest, rfl⟩ := Option.map_eq_some_iff.mp hb
    refine List.mem_append_right _ (List.mem_append_left _ (List.mem_flatMap.mpr
      ⟨(label, rest), Named.mem_of_lookup hrest, ?_⟩))
    exact List.mem_append_left _ hstock

theorem Retains.refl (hs : s.Sound) : s.Retains [] s where
  sound := hs
  requests := .of_eq rfl
  fixed _ ht _ := ⟨ht, rfl⟩
  batch b hb := ⟨b, hb, .refl b⟩
  aside := rfl
  strays := rfl

/-- The batch may change only in its outputs and its slots. -/
theorem Retains.of_alike (hs' : s'.Sound) (ha : s.Alike s')
    (hfixed : ∀ t ∈ s.holdings, t.use.IsFixed → s.Preserves s' t)
    (hstrays : s'.machine.strays = s.machine.strays) : s.Retains [] s' where
  sound := hs'
  requests := .of_eq ha.requests
  fixed := hfixed
  batch b hb := by
    obtain ⟨b', hb', hr, hheld, hstream⟩ := ha.symm_batch hb
    exact ⟨b', hb', hr, hstream, by rw [hheld], hheld ▸ List.prefix_rfl⟩
  aside := ha.aside
  strays := hstrays

/-- A command that makes no request, after one that makes none. -/
theorem Retains.trans (h : s.Retains [] s') (h' : s'.Retains [] s'') : s.Retains [] s'' where
  sound := h'.sound
  requests := by
    obtain ⟨rs, hrs, hall⟩ := h.requests
    obtain ⟨rs', hrs', hall'⟩ := h'.requests
    cases hall
    cases hall'
    exact .of_eq (by rw [hrs', hrs, List.append_nil, List.append_nil])
  fixed t ht hf := (h.fixed t ht hf).trans (h'.fixed t (h.fixed t ht hf).1 hf)
  batch b hb := by
    obtain ⟨b', hb', hcontinues⟩ := h.batch b hb
    obtain ⟨b'', hb'', hcontinues'⟩ := h'.batch b' hb'
    exact ⟨b'', hb'', hcontinues.trans hcontinues'⟩
  aside := h'.aside.trans h.aside
  strays := h'.strays.trans h.strays

/-- Every batch stays at its seat. -/
theorem Retains.leads (h : s.Retains new s') : s.Leads some new s' where
  sound := h.sound
  requests := h.requests
  stored t ht hu := h.fixed t ht (by rw [hu]; trivial)
  batch seat seat' b hseat hb := by
    cases hseat
    have hkept : ∀ t ∈ b.staged, s.Preserves s' t := fun t ht =>
      h.fixed t (mem_holdings_of_staged hb ht) (by rw [use_of_mem_staged ht]; trivial)
    cases seat with
    | inProgress =>
      obtain ⟨b', hb', hcontinues⟩ := h.batch b hb
      exact ⟨b', hb', hcontinues, hkept⟩
    | aside label =>
      refine ⟨b, ?_, .refl b, hkept⟩
      unfold batchAt
      rw [h.aside]
      exact hb
  strays := h.strays

namespace Leads

theorem refl (hs : s.Sound) : s.Leads some [] s := (Retains.refl hs).leads

theorem congr (h : s.Leads moves new s') (hm : ∀ seat, moves' seat = moves seat) :
    s.Leads moves' new s' where
  sound := h.sound
  requests := h.requests
  stored := h.stored
  batch seat seat' b hseat := h.batch seat seat' b (hm seat ▸ hseat)
  strays := h.strays

/-- What a request stores, it goes on storing. -/
theorem stores (h : s.Leads moves new s') (hs : s.Sound) {r : Request} (hr : r ∈ s.requests)
    {specs : List InputSpec} (hst : r.Stores specs s.machine.outlook) :
    r.Stores specs s'.machine.outlook :=
  hst.congr (hs.requests r hr) fun _ ht =>
    (h.stored _ (mem_holdings_of_requests hr ht) (use_of_mem_request ht)).2

theorem trans (h : s.Leads moves new s') (h' : s'.Leads moves' new' s'') :
    s.Leads (fun seat => moves seat >>= moves') (new ++ new') s'' where
  sound := h'.sound
  requests := by
    obtain ⟨rs, hrs, hall⟩ := h.requests
    obtain ⟨rs', hrs', hall'⟩ := h'.requests
    refine ⟨rs ++ rs', by rw [hrs', hrs, List.append_assoc], List.rel_append ?_ hall'⟩
    refine forall₂_imp_of_mem hall fun r hr specs _ hst => ?_
    exact h'.stores h.sound (by rw [hrs]; exact List.mem_append_right _ hr) hst
  stored t ht hu := (h.stored t ht hu).trans (h'.stored t (h.stored t ht hu).1 hu)
  batch seat seat'' b hseat hb := by
    obtain ⟨seat', hmoves, hmoves'⟩ := Option.bind_eq_some_iff.mp hseat
    obtain ⟨b', hb', hcontinues, hkept⟩ := h.batch seat seat' b hmoves hb
    obtain ⟨b'', hb'', hcontinues', hkept'⟩ := h'.batch seat' seat'' b' hmoves' hb'
    exact ⟨b'', hb'', hcontinues.trans hcontinues', fun t ht =>
      (hkept t ht).trans (hkept' t (hcontinues.staged ht))⟩
  strays := h'.strays.trans h.strays

end Leads

/-! ## Commands on buffers and on the platform -/

theorem Sound.retains_of_progress (hs' : s'.Sound) (ha : s.Alike s') {es : List Effect} {P : Prop}
    (hp : s.machine.Progress s.holdings es P s'.machine s'.holdings) (hes : s.Spares es) :
    s.Retains [] s' :=
  .of_alike hs' ha (fun t ht hf => hp.fixed t ht hf (hes t ht hf)) hp.strays

theorem Sound.retains_withMachine (hs : s.Sound) {m : Machine} {es : List Effect} {P : Prop}
    (hp : s.machine.Progress s.holdings es P m s.holdings) (hes : s.Spares es) :
    s.Retains [] { s with machine := m } :=
  .of_alike (hs.withMachine hp) ⟨rfl, rfl, rfl, rfl⟩
    (fun t ht hf => hp.fixed t ht hf (hes t ht hf)) hp.strays

theorem Sound.retains_buffer (hs : s.Sound) {c : BufferCommand} (hc : c.Permitted s)
    (hin : c.SparesInputs s) : s.Retains [] (s.perform (.buffer c)).2 := by
  rcases hs.performs hc hin with ⟨e, s', es, -, hrun, hrefused⟩ | ⟨reply, s', hrun, -, hdid⟩
  · rw [hrun]
    exact hrefused.sound.retains_of_progress hrefused.alike hrefused.progress hrefused.spares
  · rw [hrun]
    exact hdid.sound.retains_of_progress hdid.alike hdid.progress hdid.spares

theorem Sound.retains_platform (hs : s.Sound) {c : PlatformCommand}
    (hc : (Command.platform c).Permitted s) : s.Retains [] (s.perform (.platform c)).2 := by
  cases c with
  | describe => exact .refl hs
  | references => exact .refl hs
  | synchronize stream =>
    exact hs.retains_withMachine (Machine.progress_synchronize hs.keeps stream).1
      (hs.spares_below Effect.keepsBelow_wait)
  | _ => exact hc.elim

/-! ## Making requests -/

theorem inputs_foldl_addOutput (wanted : List WantedOutput) (r : Request) :
    (wanted.foldl (fun r o => r.addOutput o.name o.location o.device) r).inputs = r.inputs := by
  induction wanted generalizing r with
  | nil => rfl
  | cons o rest ih => exact ih _

/-- An input of a batch stays one as long as the batch is in progress. -/
theorem View.mono {b : Buffer} (h : s.View b) (hb : ∀ batch, s.batch = some batch →
    ∃ batch', s'.batch = some batch' ∧ batch.Continues batch') : s'.View b := by
  obtain ⟨batch, hbatch, hviews⟩ := h
  obtain ⟨batch', hbatch', hcontinues⟩ := hb batch hbatch
  exact ⟨batch', hbatch', by rw [hcontinues.stream]; exact hviews.mono hcontinues.seen⟩

theorem Sound.withKeeps (hs : s.Sound) {m : Machine} (h : m.Keeps s.holdings) :
    ({ s with machine := m } : Session).Sound where
  keeps := h
  keys := hs.keys
  owned := hs.owned
  views p hp hi := (hs.views p hp hi).mono fun batch hb => ⟨batch, hb, .refl batch⟩
  requests := hs.requests
  batch := hs.batch
  labels := hs.labels
  aside := hs.aside
  kept := hs.kept

theorem Sound.addRequest (hs : s.Sound) {m : Machine} {r : Request}
    (hext : s.machine.Extends s.holdings m (r.holdings ++ s.holdings)) (hr : r.Sound)
    {specs : List InputSpec} (hst : r.Stores specs m.outlook) :
    s.Retains [specs] { s with machine := m, requests := s.requests ++ [r] } := by
  have hstock : ({ s with machine := m, requests := s.requests ++ [r] } : Session).stock.Perm
      (r.holdings ++ s.stock) := by
    unfold stock
    rw [List.flatMap_append, List.flatMap_cons, List.flatMap_nil, List.append_nil,
      ← List.append_assoc r.holdings]
    exact List.perm_append_comm.append_right _
  have hholdings : (r.holdings ++ s.holdings).Perm
      ({ s with machine := m, requests := s.requests ++ [r] } : Session).holdings :=
    (List.perm_append_comm_assoc ..).trans (hstock.symm.append_left _)
  have hdone := hext.perm hholdings
  refine ⟨?_, ⟨[r], rfl, .cons hst .nil⟩, fun t ht hf => hdone.fixed t ht hf,
    fun b hb => ⟨b, hb, .refl b⟩, rfl, hdone.strays⟩
  exact {
    keeps := hdone.keeps
    keys := hs.keys
    owned := hs.owned
    views := fun p hp hi => (hs.views p hp hi).mono fun batch hb => ⟨batch, hb, .refl batch⟩
    requests := fun r' hr' => by
      rcases List.mem_append.mp hr' with hr' | hr'
      · exact hs.requests r' hr'
      · rw [List.mem_singleton.mp hr']
        exact hr
    batch := fun b hb =>
      { hs.batch b hb with
        requests := (hs.batch b hb).requests.trans (List.prefix_append _ _) }
    labels := hs.labels
    aside := fun p hp => (hs.aside p hp).mono (List.prefix_append _ _)
    kept := hs.kept }

/-- A request is made with all its inputs, or not at all. -/
theorem Sound.retains_request (hs : s.Sound) (id : Nat) (inputs : List InputSpec)
    (wanted : List WantedOutput) (asked : List String) :
    (∃ e m, ¬ e.RefusesCopy ∧
      s.perform (.batch (.request id inputs wanted asked)) = (.error e, { s with machine := m }) ∧
      s.Retains [] { s with machine := m }) ∨
    ∃ reply s', s.perform (.batch (.request id inputs wanted asked)) = (.ok reply, s') ∧
      s.Retains [inputs] s' := by
  have hstart : s.machine.Extends s.holdings s.machine
      (({ id } : Request).holdings ++ s.holdings) := .refl hs.keeps
  rcases BatchCommand.storeInputs_cases inputs hs.keeps hstart
    (fun _ hi => absurd hi List.not_mem_nil) (fun _ ht => absurd ht List.not_mem_nil) .nil with
    ⟨e, m, hcause, hrun, hext⟩ | ⟨r, m, hrun, hext, hr, -, -, hst⟩
  · refine .inl ⟨e, m, hcause, Action.outcome_of_error ?_, ?_⟩
    · exact Action.bind_of_error (Action.bind_of_error (onMachine_of_error hrun))
    · exact .of_alike (hs.withKeeps hext.keeps) ⟨rfl, rfl, rfl, rfl⟩ hext.fixed hext.strays
  · have hin := inputs_foldl_addOutput wanted r
    refine .inr ⟨_, _, Action.outcome_of_ok (Action.bind_of_ok (Action.bind_of_ok
      (onMachine_of_ok hrun))), ?_⟩
    refine hs.addRequest ?_ ?_ ?_
    · unfold Request.holdings at hext ⊢
      rw [hin]
      exact hext
    · unfold Request.Sound
      rw [hin]
      exact hr
    · unfold Request.Stores
      rw [hin]
      exact hst

end Session

/-! ## Opening a batch -/

namespace Local.Batch

/-- A batch over requests to which nothing has been done. -/
def opening (requests : List Request) (settings : BatchSettings) (stream : Stream) : Batch where
  requests := requests
  responses := requests.map Response.empty
  held := {
    inputs := { pinned := settings.pinnedInput, stream }
    outputs := { pinned := settings.pinnedOutput, maximum := settings.maximum, stream } }
  outputs := []
  stream := stream
  state := .opened

section Opening

variable {requests all : List Request} {settings : BatchSettings} {stream : Stream}

theorem stock_opening : (opening requests settings stream).stock = [] := by
  unfold stock opening
  rw [holdings_empty]
  rfl

theorem sound_opening (hall : requests <+: all) (hlimit : requests.length ≤ settings.requestLimit) :
    (opening requests settings stream).Sound all where
  requests := hall
  responses _ hr := Response.sound_of_outputs_nil (outputs_of_mem_empty hr)
  staging _ hg := absurd hg List.not_mem_nil
  stream := rfl
  single hz := by
    have hmax : settings.maximum = 0 := hz
    unfold BatchSettings.requestLimit at hlimit
    rw [hmax] at hlimit
    exact hlimit
  opened _ := rfl

end Opening

/-- Whether a batch can be opened has nothing to do with the machine. -/
theorem create_cases (requests : List Request) (settings : BatchSettings) (stream : Stream) :
    (∃ e, ¬ e.RefusesCopy ∧ ∀ m,
      DeviceBatch.Batch.create exchange requests settings stream (m, {}) = .error e (m, {})) ∨
    requests.length ≤ settings.requestLimit ∧ ∀ m,
      DeviceBatch.Batch.create exchange requests settings stream (m, {}) =
        .ok (opening requests settings stream)
          ((m.emit (.openedSpan requests.length stream)).emit (.openedBatch m.platform.name),
            (opening requests settings stream).held) := by
  unfold DeviceBatch.Batch.create
  cases hempty : requests.isEmpty with
  | true => exact .inl ⟨.emptyBatch, nofun, fun m => rfl⟩
  | false =>
    by_cases hlimit : settings.requestLimit < requests.length
    · refine .inl ⟨.batchTooLarge requests.length settings.requestLimit, nofun, fun m => ?_⟩
      simp only [hlimit, if_true, Bool.false_eq_true, if_false]
      rfl
    · refine .inr ⟨Nat.le_of_not_lt hlimit, fun m => ?_⟩
      have hresponses : requests.mapM exchange.createResponse =
          (.ok (requests.map Response.empty) : Except Error _) := List.mapM_pure
      simp only [hlimit, if_false, Bool.false_eq_true, hresponses]
      rfl

end Local.Batch

namespace Session

variable {s s' s'' : Session}

/-- A batch is opened over the first requests, or nothing happens. -/
theorem perform_create (s : Session) (count : Option Nat) (settings : BatchSettings)
    (stream : Stream) :
    let requests := s.requests.take (count.getD s.requests.length)
    (∃ e, ¬ e.RefusesCopy ∧ s.perform (.batch (.create count settings stream)) = (.error e, s)) ∨
    requests.length ≤ settings.requestLimit ∧
      s.perform (.batch (.create count settings stream)) =
        (.ok (.batch (Local.Batch.opening requests settings stream)), { s with
          machine := (s.machine.emit (.openedSpan requests.length stream)).emit
            (.openedBatch s.machine.platform.name)
          batch := some (Local.Batch.opening requests settings stream) }) := by
  intro requests
  rcases Batch.create_cases requests settings stream with
    ⟨e, hcause, he⟩ | ⟨hlimit, hrun⟩
  · have hwithin : BatchCommand.openBatch count settings stream s = .error e s := by
      refine (Action.get_bind _ _).trans (Action.bind_of_error ?_)
      unfold Action.within
      rw [he s.machine]
    exact .inl ⟨e, hcause, Action.outcome_of_error (Action.bind_of_error hwithin)⟩
  · have hcreated : Action.within (fun s : Session => (s.machine, ({} : Sides)))
        (fun p s => { s with machine := p.1 })
        (DeviceBatch.Batch.create Local.exchange requests settings stream) s =
          .ok (Local.Batch.opening requests settings stream) { s with machine := _ } :=
      Action.within_of_ok (g := fun s : Session => (s.machine, ({} : Sides))) (hrun s.machine)
    have hopen : BatchCommand.openBatch count settings stream s =
        .ok (.opening requests settings stream) _ :=
      (Action.get_bind _ _).trans ((Action.bind_of_ok hcreated).trans rfl)
    exact .inr ⟨hlimit, Action.outcome_of_ok (Action.bind_of_ok hopen)⟩

/-- Where no batch is in progress, one is opened over the first requests, or nothing happens. -/
theorem Sound.retains_create (hs : s.Sound) (hb : s.batch = none) (count : Option Nat)
    (settings : BatchSettings) (stream : Stream) :
    s.Retains [] (s.perform (.batch (.create count settings stream))).2 ∧
      Unrefused (s.perform (.batch (.create count settings stream))).1 := by
  let requests := s.requests.take (count.getD s.requests.length)
  rcases s.perform_create count settings stream with ⟨e, hcause, he⟩ | ⟨hlimit, hperform⟩
  · rw [he]
    exact ⟨.refl hs, .error hcause⟩
  · let m := (s.machine.emit (.openedSpan requests.length stream)).emit
      (.openedBatch s.machine.platform.name)
    let s' : Session := { s with machine := m, batch := some (.opening requests settings stream) }
    have hsites : s'.sites = s.sites := by
      unfold sites
      rw [hb]
      rfl
    have hstock : s'.stock = s.stock := by
      unfold stock
      rw [hb]
      show s.requests.flatMap _ ++ ((Local.Batch.opening requests settings stream).stock ++ _) = _
      rw [Local.Batch.stock_opening]
      rfl
    have hholdings : s'.holdings = s.holdings := by
      unfold holdings
      rw [hsites, hstock]
    have hkeeps : m.Keeps s.holdings := (hs.keeps.emit _).emit _
    rw [hperform]
    refine ⟨⟨?_, .of_eq rfl, fun t ht _ => ⟨by rw [hholdings]; exact ht, rfl⟩, fun b hsome => ?_,
      rfl, rfl⟩, .ok _⟩
    · exact {
        keeps := by rw [hholdings]; exact hkeeps
        keys := by rw [hsites]; exact hs.keys
        owned := fun p hp => hs.owned p (hsites ▸ hp)
        views := fun p hp hi => by
          rw [hs.not_input hb (hsites ▸ hp)] at hi
          cases hi
        requests := hs.requests
        batch := fun b hsome => by
          cases hsome
          exact Local.Batch.sound_opening (List.take_prefix _ _) hlimit
        labels := hs.labels
        aside := hs.aside
        kept := hs.kept }
    · rw [hb] at hsome
      cases hsome

end Session

end DeviceBatch
