import DeviceBatch.Proofs.Sessions
import DeviceBatch.Proofs.Twins

/-!
# Batches on the host

Requests, responses and batches whose storage is on the host do the same on any two platforms. An
input, an output or a part of an output that is asked for on a device comes into being on neither,
although the gathering side of a platform without device memory falls back to the host: what it
gathered there is refused by the batch.
-/

namespace DeviceBatch

open Local
open Machine (TwinBeside)

variable {p q : Platform} {m m' : Machine} {location : Location}

/-! ## Requests and responses -/

namespace Local

/-- What a request stores is on the host, and so are the outputs that it wants, unless there is no
device memory. -/
structure Request.Hosted (p q : Platform) (r : Request) : Prop where
  inputs : ∀ i ∈ r.inputs, i.data.location = .host
  wanted : ∀ w ∈ r.wanted, p.SameFor q w.location

/-- What was delivered to a response is on the host. -/
def Response.OnHost (r : Response) : Prop := ∀ o ∈ r.outputs, o.data.location = .host

namespace Request.Hosted

variable {r : Request}

theorem sameFor_of_wants (hr : r.Hosted p q) {name : String} {place : Location × Nat}
    (h : r.wants name = some place) : p.SameFor q place.1 := by
  unfold wants at h
  split at h
  · cases h
    exact .inl rfl
  · obtain ⟨w, hw, rfl⟩ := Option.map_eq_some_iff.mp h
    exact hr.wanted w (List.mem_of_find?_eq_some hw)

theorem foldl_addOutput (hr : r.Hosted p q) {wanted : List WantedOutput}
    (hw : ∀ w ∈ wanted, p.SameFor q w.location) :
    (wanted.foldl (fun r w => r.addOutput w.name w.location w.device) r).Hosted p q := by
  induction wanted generalizing r with
  | nil => exact hr
  | cons w rest ih =>
    obtain ⟨hfirst, hrest⟩ := List.forall_mem_cons.mp hw
    refine ih ⟨hr.inputs, fun x hx => ?_⟩ hrest
    rcases List.mem_append.mp hx with hx | hx
    · exact hr.wanted x hx
    · exact List.mem_singleton.mp hx ▸ hfirst

theorem twin_release (hr : r.Hosted p q) (h : m.Twin p q m') :
    (r.release m).Twin p q (r.release m') :=
  h.foldl fun i hi _ _ hm => Buffer.twin_release hm (hr.inputs i hi)

theorem agrees_addInput (hr : r.Hosted p q) (h : m.Twin p q m') (hl : p.SameFor q location)
    (name : String) (dtype : ElementType) (shape : Shape) (xs : List dtype.Value) (device : Nat) :
    (r.addInput name dtype shape xs location device).Agrees p q (Machine.Twin p q) m m'
      fun r' => location = .host ∧ r'.Hosted p q := by
  refine .orElseTidy ?_ fun _ _ h => hr.twin_release h
  split
  · exact .throw _ h
  · refine .bind (Buffer.agrees_ofBytes h hl ..) fun data n n' hd hn =>
      .change_bind (.pure ⟨hd.1, fun i hi => ?_, hr.wanted⟩ (hn.synchronize _))
    rcases List.mem_append.mp hi with hi | hi
    · exact hr.inputs i hi
    · exact List.mem_singleton.mp hi ▸ hd.2

end Request.Hosted

end Local

/-- A request with an input on a device is not made. -/
theorem BatchCommand.agrees_storeInputs (specs : List InputSpec) {r : Request}
    (hr : r.Hosted p q) (h : m.Twin p q m') (hl : ∀ i ∈ specs, p.SameFor q i.location) :
    (storeInputs r specs).Agrees p q (Machine.Twin p q) m m'
      fun r' => (∀ i ∈ specs, i.location = .host) ∧ r'.Hosted p q := by
  induction specs generalizing r m m' with
  | nil => exact .pure ⟨nofun, hr⟩ h
  | cons i rest ih =>
    obtain ⟨hi, hrest⟩ := List.forall_mem_cons.mp hl
    exact .bind (hr.agrees_addInput h hi ..) fun r' n n' hr' hn =>
      (ih hr'.2 hn hrest).mono fun _ h' => ⟨List.forall_mem_cons.mpr ⟨hr'.1, h'.1⟩, h'.2⟩

namespace Local

namespace Response

theorem OnHost.twin_release {r : Response} (hr : r.OnHost) (h : m.Twin p q m') :
    (r.release m).Twin p q (r.release m') :=
  h.foldl fun o ho _ _ hm => Buffer.twin_release hm (hr o ho)

theorem agrees_toList (h : m.Twin p q m') {o : DeliveredOutput} (ho : o.data.location = .host)
    (dtype : ElementType) :
    (o.toList dtype).Agrees p q (Machine.Twin p q) m m' fun _ => True := by
  unfold DeliveredOutput.toList
  split
  · exact .throw _ h
  · exact .bind (Buffer.agrees_fetchBytes h ho) fun _ _ _ _ h' => .pure trivial h'

end Response

/-! ## Gathering -/

namespace Gather

/-- The staging buffers are on the host. -/
def OnHost (g : Gather) : Prop := ∀ b ∈ g.staging, b.location = .host

theorem agrees_fillFrom {parts : List StoredInput} (hparts : ∀ i ∈ parts, i.data.location = .host)
    {x y : Machine × Buffer} (h : TwinBeside p q (·.location = .host) x y) (stream : Stream)
    (offset : Nat) :
    (fillFrom stream offset parts).Agrees p q (TwinBeside p q (·.location = .host)) x y
      fun _ => True := by
  induction parts generalizing x y offset with
  | nil => exact .pure trivial h
  | cons part rest ih =>
    obtain ⟨hpart, hrest⟩ := List.forall_mem_cons.mp hparts
    let source : Buffer := { part.data with
      storage := .borrowed part.data.location part.data.data
      stream }
    have hsource : source.location = .host := hpart
    exact .bind (Buffer.agrees_copyRange h hsource offset 0 source.size) fun _ _ _ _ h' =>
      ih hrest h' _

theorem agrees_concatenate {parts : List StoredInput}
    (hparts : ∀ i ∈ parts, i.data.location = .host) (h : m.Twin p q m')
    (hl : p.SameFor q location) (device : Nat) (stream : Stream) :
    (concatenate parts location device stream).Agrees p q (Machine.Twin p q) m m'
      fun b => b.location = .host :=
  .bind (Buffer.agrees_allocate h hl ..) fun b n n' hb hn =>
    Buffer.agrees_into (agrees_fillFrom hparts (x := (n, b)) (y := (n', b)) ⟨hn, rfl, hb.2⟩
      stream 0)

/-- Where the platform has no device memory, what is asked for on a device is looked for on the
host. -/
theorem twin_aimed (h : m.Twin p q m') {query : InputQuery} (hl : p.SameFor q query.location) :
    (target m query).1 = .host ∧ target m' query = target m query ∧
      (aimed m query).Twin p q (aimed m' query) := by
  unfold target aimed
  rw [h.plain.platform, h.plain'.platform]
  cases hloc : query.location with
  | host => exact ⟨rfl, rfl, h⟩
  | device =>
    obtain ⟨hp, hq⟩ := hl.resolve_left (by rw [hloc]; exact nofun)
    rw [hp, hq]
    exact ⟨rfl, rfl, h.emit _⟩

/-- What is gathered lies on the host. -/
theorem agrees_collect {requests : List Request} (hr : ∀ r ∈ requests, r.Hosted p q)
    {query : InputQuery} (hl : p.SameFor q query.location) {x y : Machine × Gather}
    (h : TwinBeside p q OnHost x y) :
    (collect requests query).Agrees p q (TwinBeside p q OnHost) x y
      fun c => c.location = .host := by
  obtain ⟨m, g⟩ := x
  obtain ⟨m', g'⟩ := y
  obtain ⟨h, rfl, hg⟩ := h
  obtain ⟨hhost, htarget, haim⟩ := twin_aimed h hl
  cases hparts : requests.mapM (fun r => r.input query.name) with
  | error e =>
    exact .of_error (collect_of_missing hparts) (collect_of_missing hparts) (.same e) ⟨h, rfl, hg⟩
  | ok parts =>
    cases hin : inPlace? parts (target m query).1 (target m query).2 with
    | some single =>
      have hrun' : collect requests query (m', g) = _ := collect_of_inPlace hparts (htarget ▸ hin)
      rw [htarget] at hrun'
      exact .of_ok (collect_of_inPlace hparts hin) hrun' hhost ⟨haim.emit _, rfl, hg⟩
    | none =>
      have hstored : ∀ i ∈ parts, i.data.location = .host := fun i hi => by
        obtain ⟨r, hmem, hi⟩ := mem_inputs_of_part hparts hi
        exact (hr r hmem).inputs i hi
      rcases (agrees_concatenate hstored haim (.inl hhost) (target m query).2 query.stream).cases
        with ⟨b, n, n', hfill, hfill', hb, hn⟩ | ⟨e, e', n, n', hfill, hfill', he, hn⟩
      · rw [← htarget] at hfill'
        have hrun' : collect requests query (m', g) = _ :=
          collect_of_ok hparts (htarget ▸ hin) hfill'
        rw [htarget] at hrun'
        refine .of_ok (collect_of_ok hparts hin hfill) hrun' hhost ⟨hn.emit _, rfl, fun c hc => ?_⟩
        rcases List.mem_append.mp hc with hc | hc
        · exact hg c hc
        · exact List.mem_singleton.mp hc ▸ hb
      · rw [← htarget] at hfill'
        exact .of_error (collect_of_error hparts hin hfill)
          (collect_of_error hparts (htarget ▸ hin) hfill') he ⟨hn, rfl, hg⟩

theorem twin_close {g : Gather} (h : m.Twin p q m') (hg : g.OnHost) :
    (g.close m).Twin p q (g.close m') := by
  unfold close
  split
  · exact h
  · exact (h.synchronize _).foldl fun b hb _ _ hm => Buffer.twin_release hm (hg b hb)

end Gather

/-! ## Scattering -/

namespace Scatter

/-- There is a response on the host to each of `n` requests, and the side serves them all. -/
structure Serves (n maximum : Nat) (x : Scatter × List Response) : Prop where
  maximum : x.1.maximum = maximum
  length : x.2.length = n
  responses : ∀ r ∈ x.2, r.OnHost

theorem agrees_copySlice (h : m.Twin p q m') {source : Buffer} (hs : source.location = .host)
    (hl : p.SameFor q location) (slice : Slice) (device : Nat) :
    (copySlice source slice location device).Agrees p q (Machine.Twin p q) m m'
      fun b => location = .host ∧ b.location = .host :=
  .bind (Buffer.agrees_allocate h hl ..) fun b n n' hb hn =>
    (Buffer.agrees_into (Buffer.agrees_copyRange (x := (n, b)) (y := (n', b)) ⟨hn, rfl, hb.2⟩ hs 0
      slice.start (slice.start + slice.length))).mono fun _ hc => ⟨hb.1, hc⟩

variable {n maximum : Nat} {x y : Machine × Scatter × List Response}

/-- What a request gets, it gets on the host. -/
theorem agrees_deliver (h : TwinBeside p q (Serves n maximum) x y) {output : OutputView}
    (ho : output.location = .host) {source : Buffer} (hs : source.location = .host) (index : Nat)
    {request : Request} (hr : request.Hosted p q) (slice : Slice) :
    (deliver output source index request slice).Agrees p q (TwinBeside p q (Serves n maximum)) x y
      fun _ => ∀ place, request.wants output.name = some place → place.1 = .host := by
  unfold deliver
  cases hwant : request.wants output.name with
  | none => exact .pure nofun h
  | some place =>
    obtain ⟨location, device⟩ := place
    obtain ⟨m, scatter, responses⟩ := x
    obtain ⟨m', y⟩ := y
    obtain ⟨h, rfl, hserves⟩ := h
    refine .bind (P := fun b => location = .host ∧ b.location = .host)
      (.within (agrees_copySlice h hs (hr.sameFor_of_wants hwant) slice device)
        fun n n' hn => ⟨hn, rfl, hserves⟩) fun data z z' hd hz => ?_
    obtain ⟨n, scatter, responses⟩ := z
    obtain ⟨n', z'⟩ := z'
    obtain ⟨hn, rfl, hserves⟩ := hz
    obtain ⟨rfl, hd⟩ := hd
    have hnow : ∀ p : Platform, p.defers (.between .host output.location) = false := by
      intro p
      rw [ho]
      cases p with
      | host => rfl
      | simulated devices => exact Bool.and_false _
    refine .change (fun _ hplace => by cases hplace; rfl) ⟨hn, ?_, ?_⟩
    · simp only [hnow]
    · exact {
        maximum := hserves.maximum
        length := (List.length_modify ..).trans hserves.length
        responses := fun r hr o ho => by
          rcases mem_outputs_of_modify hr ho with rfl | ⟨r', hr', ho⟩
          · exact hd
          · exact hserves.responses r' hr' o ho }

theorem agrees_deliverFrom (h : TwinBeside p q (Serves n maximum) x y) {output : OutputView}
    (ho : output.location = .host) {source : Buffer} (hs : source.location = .host) (index : Nat)
    {pairs : List (Request × Slice)} (hr : ∀ pair ∈ pairs, pair.1.Hosted p q) :
    (deliverFrom output source index pairs).Agrees p q (TwinBeside p q (Serves n maximum)) x y
      fun _ => ∀ pair ∈ pairs, ∀ place, pair.1.wants output.name = some place →
        place.1 = .host := by
  induction pairs generalizing x y index with
  | nil => exact .pure nofun h
  | cons pair rest ih =>
    obtain ⟨hpair, hrest⟩ := List.forall_mem_cons.mp hr
    exact .bind (agrees_deliver h ho hs index hpair pair.2) fun _ _ _ hfirst h' =>
      (ih h' _ hrest).mono fun _ hothers => List.forall_mem_cons.mpr ⟨hfirst, hothers⟩

/-- An output is handed out if all requests want it on the host, or do not want it. -/
theorem agrees_process {requests : List Request} (hr : ∀ r ∈ requests, r.Hosted p q)
    (hsingle : maximum = 0 → requests.length ≤ 1)
    (h : TwinBeside p q (Serves requests.length maximum) x y) {o : RecordedOutput}
    (ho : o.tensor.buffer.location = .host) :
    (process requests (.ofTensor o.name o.tensor)).Agrees p q
      (TwinBeside p q (Serves requests.length maximum)) x y
      fun _ => ∀ r ∈ requests, ∀ place, r.wants o.name = some place → place.1 = .host := by
  obtain ⟨m, scatter, responses⟩ := x
  obtain ⟨m', y⟩ := y
  obtain ⟨h, rfl, hserves⟩ := h
  refine .get_bind rfl (.ofExcept_bind ⟨h, rfl, hserves⟩ fun cut hcut => ?_)
  -- There is a slice and a response for every request.
  have hcover : ∀ r ∈ requests, ∃ slice,
      (r, slice) ∈ (requests.zip cut).take responses.length := by
    intro r hmem
    obtain ⟨i, hi, rfl⟩ := List.getElem_of_mem hmem
    obtain ⟨hslices, -⟩ := slices_eq_ok hcut fun hz => by
      rw [List.length_map]
      exact hsingle (hserves.maximum.symm.trans hz)
    have hslice := hslices i (by rw [List.length_map]; exact hi)
    refine ⟨sliceOf scatter.maximum (requests.map Request.rows) o.tensor i,
      List.mem_iff_getElem?.mpr ⟨i, ?_⟩⟩
    rw [List.getElem?_take_of_lt (by rw [show responses.length = _ from hserves.length]; exact hi),
      List.getElem?_zip_eq_some]
    exact ⟨List.getElem?_eq_getElem hi, hslice⟩
  have hview : (OutputView.ofTensor o.name o.tensor).location = .host := ho
  have hsource : (bytesView o.tensor.buffer).location = .host := ho
  refine .bind (agrees_deliverFrom ⟨h, rfl, hserves⟩ hview hsource 0 fun pair hpair =>
    hr _ (List.of_mem_zip (List.mem_of_mem_take hpair)).1) fun _ z z' hall hz => ?_
  refine .change (fun r hmem => ?_) ⟨hz.1.emit _, hz.2⟩
  obtain ⟨slice, hpair⟩ := hcover r hmem
  exact hall _ hpair

end Scatter

/-! ## Batches -/

namespace Batch

/-- What a batch has is on the host, and it has a response to each request. -/
structure Hosted (p q : Platform) (b : Batch) : Prop where
  requests : ∀ r ∈ b.requests, r.Hosted p q
  outputs : ∀ o ∈ b.outputs, o.tensor.buffer.location = .host
  responses : ∀ r ∈ b.responses, r.OnHost
  staging : b.held.inputs.OnHost
  count : b.responses.length = b.requests.length
  single : b.held.outputs.maximum = 0 → b.requests.length ≤ 1

theorem hosted_opening {requests : List Request} {settings : BatchSettings}
    (hr : ∀ r ∈ requests, r.Hosted p q) (hlimit : requests.length ≤ settings.requestLimit)
    (stream : Stream) : (opening requests settings stream).Hosted p q where
  requests := hr
  outputs _ ho := absurd ho List.not_mem_nil
  responses r hr o ho := by
    rw [outputs_of_mem_empty hr] at ho
    exact absurd ho List.not_mem_nil
  staging _ hb := absurd hb List.not_mem_nil
  count := List.length_map ..
  single hz := by
    have hmax : settings.maximum = 0 := hz
    unfold BatchSettings.requestLimit at hlimit
    rw [hmax] at hlimit
    exact hlimit

/-- A batch is opened with an event that names the platform. -/
theorem agrees_create (h : m.Twin p q m') {requests : List Request}
    (hr : ∀ r ∈ requests, r.Hosted p q) (settings : BatchSettings) (stream : Stream) :
    (DeviceBatch.Batch.create exchange requests settings stream).Agrees p q
      (TwinBeside p q fun _ => True) (m, {}) (m', {}) (Hosted p q) := by
  rcases create_cases requests settings stream with ⟨e, -, he⟩ | ⟨hlimit, hrun⟩
  · exact .of_error (he m) (he m') (.same e) ⟨h, rfl, trivial⟩
  · refine .of_ok (hrun m) (hrun m') (hosted_opening hr hlimit stream)
      ⟨(h.emit _).emit' ?_, rfl, trivial⟩
    rw [h.plain.platform, h.plain'.platform]
    exact .openedBatch

/-! Inputs. -/

theorem location_of_toBuffer {c : CollectedInput} {dtype : ElementType} {query : InputQuery}
    {b : Buffer} (h : c.toBuffer dtype query = .ok b) :
    query.location = c.location ∧ b.location = c.location := by
  unfold CollectedInput.toBuffer at h
  split at h
  · cases h
  · next hplaced =>
    have hlocation : query.location = c.location := by
      by_contra hne
      exact hplaced (.inl fun heq => hne heq.symm)
    refine ⟨hlocation, ?_⟩
    split at h
    · cases h
      rfl
    · split at h
      · cases h
      · split at h
        · cases h
        · split at h
          · cases h
          · cases h
            rfl

variable {x y : Machine × Batch}

/-- An input is got on the host or not at all. -/
theorem agrees_getInput (h : TwinBeside p q (Hosted p q) x y) (hl : p.SameFor q location)
    (name : String) (dtype : ElementType) (device : Nat) :
    (DeviceBatch.Batch.getInput exchange name dtype location device).Agrees p q
      (TwinBeside p q (Hosted p q)) x y
      fun t => location = .host ∧ t.buffer.location = .host := by
  obtain ⟨m, b⟩ := x
  obtain ⟨m', y⟩ := y
  obtain ⟨h, rfl, hb⟩ := h
  have hsame : TwinBeside p q (Hosted p q) (m, b) (m', b) := ⟨h, rfl, hb⟩
  refine .get_bind rfl (.ofExcept_bind hsame fun shape _ => .ofExcept_bind hsame fun bytes _ => ?_)
  refine .bind (P := fun c => c.location = .host) ?_ fun c z z' hc hz => ?_
  · -- What the gathering side did is put back into the batch.
    refine .within (.within (Q := TwinBeside p q Gather.OnHost)
      (R := TwinBeside p q fun sides => sides.inputs.OnHost ∧ sides.outputs = b.held.outputs)
      (Gather.agrees_collect hb.requests hl ⟨h, rfl, hb.staging⟩) fun z z' hz => ?_)
      fun z z' hz => ?_
    · obtain ⟨n, g⟩ := z
      obtain ⟨n', g'⟩ := z'
      obtain ⟨hn, rfl, hg⟩ := hz
      exact ⟨hn, rfl, hg, rfl⟩
    · obtain ⟨n, sides⟩ := z
      obtain ⟨n', sides'⟩ := z'
      obtain ⟨hn, rfl, hg, houtputs⟩ := hz
      exact ⟨hn, rfl, { hb with staging := hg, single := fun hz => hb.single (houtputs ▸ hz) }⟩
  · obtain ⟨n, b'⟩ := z
    obtain ⟨n', z'⟩ := z'
    obtain ⟨hn, rfl, hb'⟩ := hz
    refine .ofExcept_bind ⟨hn, rfl, hb'⟩ fun buffer hbuffer => .change_bind ?_
    obtain ⟨hasked, hlies⟩ := location_of_toBuffer hbuffer
    refine .ofExcept (fun t ht => ⟨hasked.trans hc, ?_⟩) ⟨hn.emit _, rfl, hb'⟩
    rw [Tensor.buffer_of_ofBuffer ht]
    exact hlies.trans hc

/-! Outputs. -/

theorem agrees_getOutput (h : TwinBeside p q (Hosted p q) x y) (hl : p.SameFor q location)
    (name : String) (dtype : ElementType) (shape : Shape) (device : Nat) :
    (DeviceBatch.Batch.getOutput name dtype shape location device).Agrees p q
      (TwinBeside p q (Hosted p q)) x y
      fun t => location = .host ∧ t.buffer.location = .host := by
  obtain ⟨m, b⟩ := x
  obtain ⟨m', y⟩ := y
  obtain ⟨h, rfl, hb⟩ := h
  refine .get_bind rfl (.ofExcept_bind ⟨h, rfl, hb⟩ fun _ _ => ?_)
  split
  · exact .throw _ ⟨h, rfl, hb⟩
  · refine .bind (.within (Tensor.agrees_allocate h hl ..) fun n n' hn =>
      (⟨hn, rfl, hb⟩ : TwinBeside p q (Hosted p q) (n, b) (n', b))) fun t z z' ht hz => ?_
    obtain ⟨n, b'⟩ := z
    obtain ⟨n', z'⟩ := z'
    obtain ⟨hn, rfl, hb'⟩ := hz
    refine .change_bind (.pure ht ⟨hn.emit _, rfl, { hb' with outputs := fun o ho => ?_ }⟩)
    rcases List.mem_append.mp ho with ho | ho
    · exact hb'.outputs o ho
    · exact List.mem_singleton.mp ho ▸ ht.2

theorem Hosted.withOutputStream {b : Batch} (hb : b.Hosted p q) (name : String) (stream : Stream) :
    Hosted p q (b.withOutputStream name stream) :=
  { hb with
    outputs := fun o ho => by
      obtain ⟨o', ho', rfl⟩ := List.mem_map.mp ho
      show (if o'.name = name then _ else o' : RecordedOutput).tensor.buffer.location = .host
      split
      · exact hb.outputs o' ho'
      · exact hb.outputs o' ho' }

/-! Finalizing. -/

/-- What both sides hold while outputs are handed out, and the responses. -/
def Handing (n maximum : Nat) (inputs : Gather) (z : Sides × List Response) : Prop :=
  z.1.inputs = inputs ∧ Scatter.Serves n maximum (z.1.outputs, z.2)

theorem agrees_onOutputs {α : Type} {act : Action (Machine × Scatter × List Response) α}
    {P : α → Prop} {n maximum : Nat} {inputs : Gather} {x y : Machine × Sides × List Response}
    (h : TwinBeside p q (Handing n maximum inputs) x y)
    (hact : ∀ {x y}, TwinBeside p q (Scatter.Serves n maximum) x y →
      act.Agrees p q (TwinBeside p q (Scatter.Serves n maximum)) x y P) :
    (Sides.onOutputs act).Agrees p q (TwinBeside p q (Handing n maximum inputs)) x y P := by
  obtain ⟨m, sides, responses⟩ := x
  obtain ⟨m', y⟩ := y
  obtain ⟨h, rfl, hinputs, hserves⟩ := h
  refine .within (hact ⟨h, rfl, hserves⟩) fun z z' hz => ?_
  obtain ⟨n, scatter, responses'⟩ := z
  obtain ⟨n', z'⟩ := z'
  obtain ⟨hn, rfl, hserves'⟩ := hz
  exact ⟨hn, rfl, hinputs, hserves'⟩

theorem agrees_scatterAll {requests : List Request} (hr : ∀ r ∈ requests, r.Hosted p q)
    {maximum : Nat} (hsingle : maximum = 0 → requests.length ≤ 1) {outputs : List RecordedOutput}
    (ho : ∀ o ∈ outputs, o.tensor.buffer.location = .host) {inputs : Gather}
    {x y : Machine × Sides × List Response}
    (h : TwinBeside p q (Handing requests.length maximum inputs) x y) :
    (DeviceBatch.Batch.scatterAll exchange requests outputs).Agrees p q
      (TwinBeside p q (Handing requests.length maximum inputs)) x y
      fun _ => ∀ o ∈ outputs, ∀ r ∈ requests, ∀ place, r.wants o.name = some place →
        place.1 = .host := by
  induction outputs generalizing x y with
  | nil =>
    have hfinish : (Sides.onOutputs Scatter.finish).Agrees p q
        (TwinBeside p q (Handing requests.length maximum inputs)) x y fun _ => True := by
      refine agrees_onOutputs h fun {x y} hxy => ?_
      obtain ⟨m, scatter, responses⟩ := x
      obtain ⟨m', y⟩ := y
      obtain ⟨h, rfl, hserves⟩ := hxy
      exact .get_bind rfl (.change_bind (.pure trivial
        ⟨h, rfl, hserves.maximum, hserves.length, hserves.responses⟩))
    exact hfinish.mono fun _ _ o ho => absurd ho List.not_mem_nil
  | cons o rest ih =>
    obtain ⟨hfirst, hrest⟩ := List.forall_mem_cons.mp ho
    exact .bind (agrees_onOutputs h fun hxy => Scatter.agrees_process hr hsingle hxy hfirst)
      fun _ _ _ hdone h' => (ih hrest h').mono fun _ hothers =>
        List.forall_mem_cons.mpr ⟨hdone, hothers⟩

/-- All that is wanted of the outputs of a batch is wanted on the host. -/
def WantsHost (b : Batch) : Prop :=
  ∀ o ∈ b.outputs, ∀ r ∈ b.requests, ∀ place, r.wants o.name = some place → place.1 = .host

/-- The outputs are handed out if they are wanted on the host only. -/
theorem agrees_flush (h : TwinBeside p q (Hosted p q) x y) :
    (DeviceBatch.Batch.flush exchange).Agrees p q (TwinBeside p q (Hosted p q)) x y
      fun _ => x.2.WantsHost := by
  obtain ⟨m, b⟩ := x
  obtain ⟨m', y⟩ := y
  obtain ⟨h, rfl, hb⟩ := h
  have hscattered : (DeviceBatch.Batch.onOutputs (DeviceBatch.Batch.scatterAll exchange b.requests
      b.outputs)).Agrees p q (TwinBeside p q (Hosted p q)) (m, b) (m', b)
      fun _ => b.WantsHost := by
    refine .within (Q := TwinBeside p q (Handing b.requests.length b.held.outputs.maximum
      b.held.inputs)) (agrees_scatterAll hb.requests hb.single hb.outputs
        ⟨h, rfl, rfl, rfl, hb.count, hb.responses⟩) fun z z' hz => ?_
    obtain ⟨n, sides, responses⟩ := z
    obtain ⟨n', z'⟩ := z'
    obtain ⟨hn, rfl, hinputs, hserves⟩ := hz
    exact ⟨hn, rfl, { hb with
      responses := hserves.responses
      staging := hinputs ▸ hb.staging
      count := hserves.length
      single := fun hz => hb.single (hserves.maximum.symm.trans hz) }⟩
  rcases hscattered.cases with ⟨waiting, ⟨n, c⟩, ⟨n', c'⟩, hs, ht, hwanted, hn, rfl, hc⟩ |
    ⟨e, e', ⟨n, c⟩, ⟨n', c'⟩, hs, ht, he, hn, rfl, hc⟩
  · have hleft : TwinBeside p q (Hosted p q) (if waiting then n.synchronize c.stream else n, c)
        (if waiting then n'.synchronize c.stream else n', c) := by
      cases waiting with
      | true => exact ⟨hn.synchronize _, rfl, hc⟩
      | false => exact ⟨hn, rfl, hc⟩
    exact .of_ok (flush_of_ok hs) (flush_of_ok ht) hwanted hleft
  · exact .of_error (flush_of_error hs) (flush_of_error ht) he ⟨hn.synchronize _, rfl, hc⟩

theorem twin_reportSuccess (h : m.Twin p q m') (requests outputs : Nat) (synchronized : Bool) :
    (DeviceBatch.Batch.reportSuccess requests outputs synchronized m).Twin p q
      (DeviceBatch.Batch.reportSuccess requests outputs synchronized m') :=
  (((h.emit _).emit _).map (fun m => { m with
    metrics := m.metrics.recordFinalized requests synchronized }) (fun _ _ => rfl)
    ⟨rfl, rfl, rfl, rfl⟩).emit _

theorem twin_reportFailure (h : m.Twin p q m') {e e' : Error} (he : e.Alike p q e') :
    (DeviceBatch.Batch.reportFailure e m).Twin p q (DeviceBatch.Batch.reportFailure e' m') :=
  (((h.emit _).emit' (.errorMessage he)).map (fun m => { m with
    metrics := m.metrics.recordFailure }) (fun _ _ => rfl) ⟨rfl, rfl, rfl, rfl⟩).emit'
    (.finalizeFailed he)

/-- A batch is finalized if all that is wanted is wanted on the host. -/
theorem agrees_finalize (h : TwinBeside p q (Hosted p q) x y) :
    (DeviceBatch.Batch.finalize exchange).Agrees p q (TwinBeside p q (Hosted p q)) x y
      fun _ => x.2.WantsHost := by
  obtain ⟨m, b⟩ := x
  obtain ⟨m', y⟩ := y
  obtain ⟨h, rfl, hb⟩ := h
  cases hstate : b.state with
  | finalized =>
    have hrefused : ∀ m, DeviceBatch.Batch.finalize exchange (m, b) =
        .error .doubleFinalize (m, b) := by
      intro m
      unfold DeviceBatch.Batch.finalize
      simp only [hstate]
    exact .of_error (hrefused m) (hrefused m') (.same _) ⟨h, rfl, hb⟩
  | opened =>
    have hdone : TwinBeside p q (Hosted p q) (m, { b with state := .finalized })
        (m', { b with state := .finalized }) := ⟨h, rfl, { hb with }⟩
    rcases (agrees_flush hdone).cases with
      ⟨waited, ⟨n, c⟩, ⟨n', c'⟩, hs, ht, hwanted, hn, rfl, hc⟩ |
      ⟨e, e', ⟨n, c⟩, ⟨n', c'⟩, hs, ht, he, hn, rfl, hc⟩
    · exact .of_ok (finalize_of_ok hstate hs) (finalize_of_ok hstate ht) hwanted
        ⟨twin_reportSuccess hn .., rfl, hc⟩
    · exact .of_error (finalize_of_error hstate hs) (finalize_of_error hstate ht) he
        ⟨twin_reportFailure hn he, rfl, hc⟩

/-! The end of a batch. -/

theorem Hosted.twin_releaseRest {b : Batch} (hb : b.Hosted p q) (h : m.Twin p q m') :
    (b.releaseRest exchange m).Twin p q (b.releaseRest exchange m') :=
  (Gather.twin_close h hb.staging).foldl fun o ho _ _ hm =>
    Buffer.twin_release hm (hb.outputs o ho)

theorem Hosted.twin_release {b : Batch} (hb : b.Hosted p q) (h : m.Twin p q m') :
    (b.release exchange m).Twin p q (b.release exchange m') :=
  hb.twin_releaseRest (h.foldl fun r hr _ _ hm =>
    Response.OnHost.twin_release (hb.responses r hr) hm)

end Batch

end Local

end DeviceBatch
