import DeviceBatch.Session
import DeviceBatch.Proofs.Contents
import DeviceBatch.Proofs.Named

/-!
# The storage of a session

A session holds storage in its slots, in the outputs and the staging buffers of its batches, in its
requests and in the responses. `Session.sites` lists the places by which a command can name a
buffer; `Session.stock` is all other storage, which includes that of batches that were set aside.

A session is sound if its machine keeps exactly this storage, everything that is not a view owns as
many bytes as it has, and the views, which are the inputs of batches, lie in stored or staged
storage.
-/

namespace DeviceBatch

/-! ## Tensors -/

/-- A buffer with a shape is that buffer. -/
theorem Tensor.buffer_of_ofBuffer {shape : Shape} {b : Buffer} {t : Tensor}
    (h : Tensor.ofBuffer shape b = .ok t) : t.buffer = b := by
  unfold Tensor.ofBuffer at h
  split at h
  · cases h
  · split at h
    · cases h; rfl
    · cases h

theorem Tensor.shape_of_ofBuffer {shape : Shape} {b : Buffer} {t : Tensor}
    (h : Tensor.ofBuffer shape b = .ok t) : t.shape = shape := by
  unfold Tensor.ofBuffer at h
  split at h
  · cases h
  · split at h
    · cases h; rfl
    · cases h

/-- A new tensor is a new buffer with a shape, unless there are too many elements for a size or for
the storage. -/
theorem Tensor.allocate_cases {m : Machine} {T : List Holding} (h : m.Keeps T) (dtype : ElementType)
    (shape : Shape) (location : Location) (device : Nat) (stream : Stream) :
    (shape.product? = none ∧ Tensor.allocate dtype shape location device stream m =
      .error (.shapeMismatch (.countOverflow shape)) m) ∨
    (∃ e, e.IsAllocation ∧ Tensor.allocate dtype shape location device stream m = .error e m) ∨
    ∃ t m', Tensor.allocate dtype shape location device stream m = .ok t m' ∧ t.shape = shape ∧
      t.buffer = Buffer.fresh m.memory.next dtype t.buffer.size location device stream ∧
      ∀ use, m.Progress T (Effect.allocs (t.buffer.size * dtype.width)) True m'
        (t.buffer.holdings use ++ T) := by
  cases hshape : shape.product? with
  | none =>
    refine .inl ⟨rfl, ?_⟩
    unfold Tensor.allocate
    rw [hshape]
    rfl
  | some count =>
    have hsome : Tensor.allocate dtype shape location device stream = (do
        let buffer ← Buffer.allocate dtype count location device stream
        Tensor.adopt shape buffer) := by
      unfold Tensor.allocate
      rw [hshape]
    rw [hsome]
    rcases Buffer.allocate_cases dtype count location device stream h with
      ⟨e, he, ha⟩ | ⟨m', ha, hp⟩
    · exact .inr (.inl ⟨e, he, Action.bind_of_error ha⟩)
    · let t : Tensor :=
        ⟨shape, Buffer.fresh m.memory.next dtype count location device stream, hshape⟩
      have hof : Tensor.ofBuffer shape t.buffer = .ok t := by
        unfold Tensor.ofBuffer
        split
        · next hnone => rw [hshape] at hnone; cases hnone
        · next n hn =>
          rw [hshape] at hn
          cases hn
          exact dif_pos rfl
      refine .inr (.inr ⟨t, m', (Action.bind_of_ok ha).trans ?_, rfl, rfl, hp⟩)
      show Action.orElseTidy (Action.ofExcept (Tensor.ofBuffer shape t.buffer)) _ m' = _
      rw [hof]
      rfl

/-! ## Holdings -/

/-- The storage that goes with what a slot holds. -/
def Resource.holdings (r : Resource) : List Holding := r.data.holdings (.bound r.data.stream)

namespace Local

def Request.holdings (r : Request) : List Holding :=
  r.inputs.flatMap fun i => i.data.holdings .stored

def Response.holdings (r : Response) : List Holding :=
  r.outputs.flatMap fun o => o.data.holdings (.bound o.data.stream)

/-- The storage of the staging buffers of a batch. -/
def Batch.staged (b : Batch) : List Holding :=
  b.held.inputs.staging.flatMap fun g => g.holdings (.staged b.stream)

/-- The storage of a batch besides its outputs. -/
def Batch.stock (b : Batch) : List Holding :=
  b.responses.flatMap Response.holdings ++ b.staged

/-- The storage in which the inputs of a batch can lie. -/
def Batch.seen (b : Batch) : List Holding := b.requests.flatMap Request.holdings ++ b.staged

/-- The outputs of a batch, by the places that they have as long as it is open. -/
def Batch.sites (b : Batch) : List (Place × Resource) :=
  b.outputs.map fun o => (.output o.name, .buffer o.tensor.buffer)

/-- The storage of the outputs of a batch. -/
def Batch.lent (b : Batch) : List Holding :=
  b.outputs.flatMap fun o => o.tensor.buffer.holdings (.bound o.tensor.buffer.stream)

end Local

/-- The storage of a batch that was set aside. -/
def RestingBatch.holdings (rest : RestingBatch) : List Holding :=
  rest.batch.stock ++ rest.batch.lent

namespace Session

/-- The places that a command can name. -/
def sites (s : Session) : List (Place × Resource) :=
  s.slots.map (fun p => (.slot p.1, p.2)) ++ s.batch.elim [] Local.Batch.sites

/-- The storage without a place that a command could name. -/
def stock (s : Session) : List Holding :=
  s.requests.flatMap Local.Request.holdings ++
    (s.batch.elim [] Local.Batch.stock ++
      (s.aside.flatMap (fun p => p.2.holdings) ++ s.kept.flatMap Local.Response.holdings))

/-- All storage of a session. -/
def holdings (s : Session) : List Holding :=
  s.sites.flatMap (fun p => p.2.holdings) ++ s.stock

theorem mem_holdings_of_site {s : Session} {p : Place × Resource} (hp : p ∈ s.sites) {t : Holding}
    (ht : t ∈ p.2.holdings) : t ∈ s.holdings :=
  List.mem_append_left _ (List.mem_flatMap.mpr ⟨p, hp, ht⟩)

end Session

/-! ## Soundness -/

namespace Local

/-- The stored inputs are owned bytes. -/
def Request.Sound (r : Request) : Prop := ∀ i ∈ r.inputs, i.data.Proper ∧ i.data.dtype = .uint8

def Response.Sound (r : Response) : Prop := ∀ o ∈ r.outputs, o.data.Proper ∧ o.data.dtype = .uint8

structure Batch.Sound (b : Batch) (requests : List Request) : Prop where
  requests : b.requests <+: requests
  responses : ∀ r ∈ b.responses, r.Sound
  staging : ∀ g ∈ b.held.inputs.staging, g.Proper ∧ g.dtype = .uint8 ∧ g.stream = b.stream
  stream : b.held.inputs.stream = b.stream
  /-- A model that does not batch is given one request. -/
  single : b.held.outputs.maximum = 0 → b.requests.length ≤ 1
  /-- Before it is finalized, nothing is delivered. -/
  opened : b.state = .opened → b.responses = b.requests.map Response.empty

theorem outputs_of_mem_empty {requests : List Request} {r : Response}
    (hr : r ∈ requests.map Response.empty) : r.outputs = [] := by
  obtain ⟨request, -, rfl⟩ := List.mem_map.mp hr
  rfl

theorem holdings_empty (requests : List Request) :
    (requests.map Response.empty).flatMap Response.holdings = [] := by
  rw [List.flatMap_map]
  exact List.flatMap_eq_nil_iff.mpr fun _ _ => rfl

theorem Response.sound_of_outputs_nil {r : Response} (h : r.outputs = []) : r.Sound := by
  unfold Response.Sound
  rw [h]
  exact fun _ ho => absurd ho List.not_mem_nil

end Local

/-- The buffer is a view of stored or staged storage among `T`, on a stream that may read it. -/
structure Buffer.Views (b : Buffer) (stream : Stream) (T : List Holding) : Prop where
  borrowed : b.storage.isOwned = false
  stream : b.stream = stream
  lies : b.byteSize ≠ 0 → ∃ t ∈ T, t.use.IsFixed ∧ t.Spans b.data b.byteSize ∧
    t.location = b.location ∧ t.use.Gives b.stream

theorem Buffer.Views.mono {b : Buffer} {stream : Stream} {T T' : List Holding}
    (h : b.Views stream T) (hT : T ⊆ T') : b.Views stream T' where
  borrowed := h.borrowed
  stream := h.stream
  lies hn := by
    obtain ⟨t, ht, hrest⟩ := h.lies hn
    exact ⟨t, hT ht, hrest⟩

/-- An input is a view of what the batch in progress can see. -/
def Session.View (s : Session) (b : Buffer) : Prop :=
  ∃ batch, s.batch = some batch ∧ b.Views batch.stream batch.seen

/-- A batch that was set aside could be in progress. -/
structure RestingBatch.Sound (rest : RestingBatch) (requests : List Local.Request) : Prop where
  batch : rest.batch.Sound requests
  names : (rest.batch.outputs.map RecordedOutput.name).Nodup
  outputs : ∀ o ∈ rest.batch.outputs, o.tensor.buffer.Proper
  slots : (rest.inputs.map Prod.fst).Nodup
  inputs : ∀ p ∈ rest.inputs, p.2.isInput = true ∧
    p.2.data.Views rest.batch.stream rest.batch.seen

/-- A batch that was set aside can still be resumed when there are more requests. -/
theorem RestingBatch.Sound.mono {rest : RestingBatch} {requests requests' : List Local.Request}
    (h : rest.Sound requests) (hr : requests <+: requests') : rest.Sound requests' :=
  { h with batch := { h.batch with requests := h.batch.requests.trans hr } }

structure Session.Sound (s : Session) : Prop where
  keeps : s.machine.Keeps s.holdings
  /-- A name stands for one thing. -/
  keys : (s.sites.map Prod.fst).Nodup
  owned : ∀ p ∈ s.sites, p.2.isInput = false → p.2.data.Proper
  views : ∀ p ∈ s.sites, p.2.isInput = true → s.View p.2.data
  requests : ∀ r ∈ s.requests, r.Sound
  batch : ∀ b, s.batch = some b → b.Sound s.requests
  /-- A label stands for one batch. -/
  labels : (s.aside.map Prod.fst).Nodup
  aside : ∀ p ∈ s.aside, p.2.Sound s.requests
  kept : ∀ r ∈ s.kept, r.Sound

namespace Session

variable {s : Session} {place : Place} {name : String} {r : Resource} {stream : Stream}

theorem start_sound (platform : Platform) (device : Nat) : (start platform device).Sound where
  keeps := Machine.start_keeps platform
  keys := List.nodup_nil
  owned _ hp := absurd hp List.not_mem_nil
  views _ hp := absurd hp List.not_mem_nil
  requests _ hr := absurd hr List.not_mem_nil
  batch _ hb := by cases hb
  labels := List.nodup_nil
  aside _ hp := absurd hp List.not_mem_nil
  kept _ hr := absurd hr List.not_mem_nil

/-- Simulated devices on which nothing has been done. -/
def simulated (count capacity device : Nat) (deferred : Bool) : Session :=
  start (.simulated ⟨count, capacity, deferred⟩) device

/-! ## Places -/

theorem held_eq_ok (h : s.held name = .ok r) : s.slots.lookup name = some r :=
  Named.lookup_of_find h

theorem resourceAt_output (h : s.resourceAt (.output name) = .ok r) :
    ∃ b t, s.batch = some b ∧ b.state = .opened ∧ b.output? name = some t ∧
      r = .buffer t.buffer := by
  unfold resourceAt currentBatch at h
  cases hb : s.batch with
  | none => rw [hb] at h; cases h
  | some b =>
    simp only [hb, bind, Except.bind] at h
    unfold Batch.ensureOpen at h
    cases hs : b.state with
    | finalized => rw [hs] at h; cases h
    | opened =>
      rw [hs] at h
      cases ht : b.output? name with
      | none => rw [ht] at h; cases h
      | some t =>
        rw [ht] at h
        cases h
        exact ⟨b, t, rfl, hs, ht, rfl⟩

theorem bindAt_slot (h : s.slots.lookup name = some r) (stream : Stream) :
    bindAt (.slot name) stream s = { s with slots := s.slots.put name (r.withStream stream) } := by
  simp only [bindAt, h]

theorem bindAt_of_none (h : s.slots.lookup name = none) (stream : Stream) :
    bindAt (.slot name) stream s = s := by
  simp only [bindAt, h]

theorem bindAt_output {b : Local.Batch} (h : s.batch = some b) (stream : Stream) :
    bindAt (.output name) stream s =
      { s with batch := some (b.withOutputStream name stream) } := by
  show ({ s with batch := s.batch.map _ } : Session) = _
  rw [h]
  rfl

@[simp] theorem resourceAt_withMachine (s : Session) (m : Machine) (place : Place) :
    ({ s with machine := m } : Session).resourceAt place = s.resourceAt place := by
  cases place <;> rfl

/-- Binding has nothing to do with the machine. -/
theorem bindAt_withMachine (s : Session) (m : Machine) (place : Place) (stream : Stream) :
    bindAt place stream { s with machine := m } =
      { bindAt place stream s with machine := m } := by
  cases place with
  | slot name =>
    simp only [bindAt]
    cases s.slots.lookup name <;> rfl
  | output name => rfl

/-- What stands at a place after it was bound to a stream. -/
theorem resourceAt_bindAt (h : s.resourceAt place = .ok r) (stream : Stream) :
    (bindAt place stream s).resourceAt place = .ok (r.withStream stream) := by
  cases place with
  | slot name =>
    rw [bindAt_slot (held_eq_ok h)]
    show Named.find _ _ = _
    unfold Named.find
    rw [Named.lookup_put, if_pos rfl]
  | output name =>
    obtain ⟨b, t, hb, hs, ht, rfl⟩ := resourceAt_output h
    have ht' : (b.withOutputStream name stream).output? name = some (t.withStream stream) := by
      unfold Batch.output? at ht
      obtain ⟨o, ho, rfl⟩ := Option.map_eq_some_iff.mp ht
      have hname : o.name = name := by simpa using List.find?_some ho
      have hcomp : ((fun o : RecordedOutput => o.name == name) ∘ fun o : RecordedOutput =>
          if o.name = name then { o with tensor := o.tensor.withStream stream } else o) =
          fun o => o.name == name := by
        funext o
        show ((if _ then _ else _ : RecordedOutput).name == name) = _
        split <;> rfl
      unfold Batch.output? Batch.withOutputStream
      rw [List.find?_map, hcomp, ho, Option.map_some, if_pos hname]
      rfl
    have hopen : (b.withOutputStream name stream).ensureOpen = .ok () :=
      Batch.ensureOpen_eq_ok.mpr hs
    rw [bindAt_output hb]
    simp only [resourceAt, currentBatch, bind, Except.bind, hopen, ht']
    rfl

theorem slots_nodup (hk : (s.sites.map Prod.fst).Nodup) : (s.slots.map Prod.fst).Nodup := by
  unfold sites at hk
  rw [List.map_append, List.nodup_append, List.map_map] at hk
  refine List.Nodup.of_map Place.slot ?_
  rw [List.map_map]
  exact hk.1

/-- The site that a place names, the sites besides it, and what binding it to a stream does. -/
theorem site_split (hk : (s.sites.map Prod.fst).Nodup) (h : s.resourceAt place = .ok r) :
    ∃ rest, s.sites.Perm ((place, r) :: rest) ∧
      ∀ stream, (bindAt place stream s).sites.Perm ((place, r.withStream stream) :: rest) := by
  cases place with
  | slot name =>
    have hl := held_eq_ok h
    have hkeys := slots_nodup hk
    refine ⟨(s.slots.remove name).map (fun p => (.slot p.1, p.2)) ++
      s.batch.elim [] Local.Batch.sites, ?_, fun stream => ?_⟩
    · exact ((Named.perm_remove hl hkeys).map _).append_right _
    · rw [bindAt_slot hl]
      show (((s.slots.remove name ++ [(name, r.withStream stream)]).map
        fun p => (Place.slot p.1, p.2)) ++ _).Perm _
      rw [List.map_append]
      exact (List.perm_append_singleton _ _).append_right _
  | output name =>
    obtain ⟨b, t, hb, -, ht, rfl⟩ := resourceAt_output h
    unfold Batch.output? at ht
    obtain ⟨o, ho, rfl⟩ := Option.map_eq_some_iff.mp ht
    obtain ⟨hname, l, r, hsplit, hl⟩ := List.find?_eq_some_iff_append.mp ho
    have hname : o.name = name := by simpa using hname
    subst hname
    have hkeys : (b.sites.map Prod.fst).Nodup := by
      unfold sites at hk
      rw [hb, List.map_append, List.nodup_append] at hk
      exact hk.2.1
    -- Names are taken once, so no other output is bound to the stream.
    have hr : ∀ o' ∈ r, o'.name ≠ o.name := by
      intro o' ho' heq
      unfold Local.Batch.sites at hkeys
      rw [hsplit, List.map_map, List.map_append, List.map_cons, List.nodup_append,
        List.nodup_cons] at hkeys
      exact hkeys.2.1.1 (List.mem_map.mpr ⟨o', ho', by simp [heq]⟩)
    have hl' : ∀ o' ∈ l, o'.name ≠ o.name := by simpa using hl
    have hkeep : ∀ {os : List RecordedOutput} {stream : Stream}, (∀ o' ∈ os, o'.name ≠ o.name) →
        os.map (fun o' => if o'.name = o.name then
          { o' with tensor := o'.tensor.withStream stream } else o') = os := by
      intro os stream hos
      refine (List.map_congr_left fun o' ho' => ?_).trans (List.map_id os)
      rw [if_neg (hos o' ho')]
      rfl
    refine ⟨s.slots.map (fun p => (.slot p.1, p.2)) ++
      (l.map (fun o => (.output o.name, .buffer o.tensor.buffer)) ++
        r.map fun o => (.output o.name, .buffer o.tensor.buffer)), ?_, fun stream => ?_⟩
    · unfold sites Local.Batch.sites
      rw [hb, Option.elim_some, hsplit, List.map_append, List.map_cons]
      refine (List.perm_middle.append_left _).trans ?_
      exact List.perm_middle
    · rw [bindAt_output hb]
      unfold sites Local.Batch.sites Batch.withOutputStream
      rw [Option.elim_some, hsplit, List.map_append, List.map_cons, hkeep hl', hkeep hr, if_pos rfl,
        List.map_append, List.map_cons]
      refine (List.perm_middle.append_left _).trans ?_
      exact List.perm_middle

end Session

end DeviceBatch
