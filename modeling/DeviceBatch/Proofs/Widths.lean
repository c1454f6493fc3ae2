import Mathlib.Algebra.Order.BigOperators.Group.List
import Mathlib.Algebra.Order.Group.Nat
import DeviceBatch.Proofs.Copying
import DeviceBatch.Proofs.Grounded
import DeviceBatch.Proofs.Reachable
import DeviceBatch.Proofs.Transparency

/-!
# Widths of inputs

A stored input keeps its bytes and its shape, not its element type, so its elements may be of
another width than what a batch is asked for. What a batch compares is the byte length of all parts together
with what the combined shape takes. So an input that is given out has as many bytes as it should
(`Local.Batch.Fits`); each part lies in its own rows, unless one request stored too little and
another one too much (`Session.getInput_lines_up`). Otherwise the input is refused as a shape
mismatch, if nothing else stands in the way (`Local.Batch.Withheld`).
-/

namespace DeviceBatch

open Local

/-- The error says how shapes, counts or byte lengths disagree. -/
def Error.IsShapeMismatch (e : Error) : Prop := ∃ fault, e = .shapeMismatch fault

/-! ## Lists of sizes -/

section Sums

variable {α : Type} {f g : α → Nat} {as : List α}

theorem eq_of_le_of_sum_le (hle : ∀ a ∈ as, f a ≤ g a) (h : (as.map g).sum ≤ (as.map f).sum) :
    ∀ a ∈ as, f a = g a := by
  induction as with
  | nil => nofun
  | cons a as ih =>
    rw [List.forall_mem_cons] at hle ⊢
    simp only [List.map_cons, List.sum_cons] at h
    have hrest : (as.map f).sum ≤ (as.map g).sum := List.sum_le_sum hle.2
    exact ⟨by omega, ih hle.2 (by omega)⟩

/-- Where the sums are the same, a smaller one is made up for by a larger one. -/
theorem eq_or_exists_of_sum_eq (h : (as.map f).sum = (as.map g).sum) :
    (∀ a ∈ as, f a = g a) ∨ (∃ a ∈ as, f a < g a) ∧ ∃ a ∈ as, g a < f a := by
  by_cases hlow : ∃ a ∈ as, f a < g a
  · by_cases hhigh : ∃ a ∈ as, g a < f a
    · exact .inr ⟨hlow, hhigh⟩
    · push Not at hhigh
      exact .inl (eq_of_le_of_sum_le hhigh h.ge)
  · push Not at hlow
    exact .inl fun a ha => (eq_of_le_of_sum_le hlow h.le a ha).symm

end Sums

/-! ## Shapes -/

namespace Shape

variable {input : String} {shape : Shape} {shapes : List Shape} {e : Error}

theorem extend_eq_error {index : Nat} {combined : Option (Nat × Shape)}
    (h : extend input index combined shape = .error e) : e.IsShapeMismatch := by
  unfold extend at h
  split at h
  · cases h
    exact ⟨_, rfl⟩
  · cases h
  · split at h
    · cases h
      exact ⟨_, rfl⟩
    · split at h
      · cases h
      · cases h
        exact ⟨_, rfl⟩

theorem combineFrom_eq_error {index : Nat} {combined : Option (Nat × Shape)}
    (h : combineFrom input index combined shapes = .error e) :
    e.IsShapeMismatch ∨ combined = none ∧ shapes = [] ∧ e = .emptyBatch := by
  induction shapes generalizing index combined with
  | nil =>
    cases combined with
    | none =>
      cases h
      exact .inr ⟨rfl, rfl, rfl⟩
    | some p => cases h
  | cons shape shapes ih =>
    unfold combineFrom at h
    split at h
    · next hext =>
      cases h
      exact .inl (extend_eq_error hext)
    · rcases ih h with hshape | ⟨hnone, -, -⟩
      · exact .inl hshape
      · cases hnone

/-- Shapes are not combined if they do not fit, or if there are none. -/
theorem combine_eq_error (h : combine input shapes = .error e) :
    e.IsShapeMismatch ∨ shapes = [] ∧ e = .emptyBatch :=
  (combineFrom_eq_error h).imp_right fun h => h.2

end Shape

theorem Tensor.ofBuffer_eq_error {shape : Shape} {b : Buffer} {e : Error}
    (h : ofBuffer shape b = .error e) : e.IsShapeMismatch := by
  unfold ofBuffer at h
  split at h
  · cases h
    exact ⟨_, rfl⟩
  · split at h
    · cases h
    · cases h
      exact ⟨_, rfl⟩

/-- An action on every element of a list fails on one of them. -/
theorem exists_of_mapM_error {α β ε : Type} {f : α → Except ε β} {as : List α} {e : ε}
    (h : as.mapM f = .error e) : ∃ a ∈ as, f a = .error e := by
  induction as with
  | nil => cases h
  | cons a as ih =>
    rw [List.mapM_cons] at h
    cases ha : f a with
    | error e' =>
      rw [ha] at h
      cases h
      exact ⟨a, List.mem_cons_self, ha⟩
    | ok b =>
      cases has : as.mapM f with
      | error e' =>
        rw [ha, has] at h
        cases h
        obtain ⟨a', ha', he⟩ := ih has
        exact ⟨a', List.mem_cons_of_mem a ha', he⟩
      | ok bs =>
        rw [ha, has] at h
        cases h

/-! ## Filling a staging buffer -/

namespace Buffer

variable {m : Machine} {src dst : Buffer} {dstOffset srcOffset srcEnd : Nat}

/-- Storage of its own is given out from its start. -/
theorem offset_of_isOwned {b : Buffer} (h : b.storage.isOwned = true) : b.data.offset = 0 := by
  unfold data
  cases hb : b.storage with
  | borrowed location data =>
    rw [hb] at h
    cases h
  | owned a => rfl

/-- A copy of ranges that fit is done, or the platform refuses it. -/
theorem copyRange_of_fits (m : Machine)
    (hin : inRange dst src dstOffset srcOffset srcEnd = true) :
    (∃ m', src.copyRange dstOffset srcOffset srcEnd (m, dst) =
      .ok () (m', { dst with stream := src.stream })) ∨
    ∃ e p, e.RefusesCopy ∧ src.copyRange dstOffset srcOffset srcEnd (m, dst) = .error e p := by
  rw [copyRange_of_inRange m hin]
  cases ht : transfer dst.location (dst.position dstOffset) src.location (src.position srcOffset)
      ((srcEnd - srcOffset) * src.dtype.width) src.stream (joined dst src m) with
  | ok u m' => exact .inl ⟨m', Action.onFirst_of_ok ht _⟩
  | error e m' => exact .inr ⟨e, _, (transfer_eq_error ht).1, Action.onFirst_of_error ht _⟩

end Buffer

namespace Local

variable {m : Machine} {n : Nat}

namespace Gather

variable {parts : List StoredInput} {stream : Stream}

/-- What is looked for elsewhere than it was asked for is looked for on the host, for the platform
has no device memory. -/
theorem target_of_misplaced {query : InputQuery}
    (h : (target m query).1 ≠ query.location ∨
      query.location = .device ∧ (target m query).2 ≠ query.device) :
    query.location = .device ∧ m.platform.hasDeviceMemory = false ∧
      target m query = (.host, 0) := by
  unfold target at h ⊢
  cases hlocation : query.location with
  | host =>
    rw [hlocation] at h
    simp [Location.isDevice] at h
  | device =>
    cases hmemory : m.platform.hasDeviceMemory with
    | true =>
      rw [hlocation, hmemory] at h
      simp [Location.isDevice] at h
    | false => exact ⟨rfl, rfl, rfl⟩

theorem fillFrom_answers {b : Buffer} {offset : Nat}
    (hfit : offset + (parts.map fun part => part.data.size).sum ≤ b.size) (m : Machine) :
    (fillFrom stream offset parts).Answers (m, b) (fun _ => True) Error.RefusesCopy := by
  induction parts generalizing b offset m with
  | nil => trivial
  | cons part rest ih =>
    simp only [List.map_cons, List.sum_cons] at hfit
    have hin : Buffer.inRange b (source stream part) offset 0 part.data.size = true :=
      Buffer.inRange_eq_true.mpr ⟨Nat.zero_le _, Nat.le_refl _, by omega, by omega⟩
    unfold Action.Answers
    rcases Buffer.copyRange_of_fits m hin with ⟨m', hrun⟩ | ⟨e, p, he, hrun⟩
    · have hall : fillFrom stream offset (part :: rest) (m, b) =
          fillFrom stream (offset + part.data.size) rest (m', { b with stream }) :=
        Action.bind_of_ok hrun
      rw [hall]
      exact ih (b := { b with stream }) (by show _ ≤ b.size; omega) m'
    · have hall : fillFrom stream offset (part :: rest) (m, b) = .error e p :=
        Action.bind_of_error hrun
      rw [hall]
      exact he

/-- Parts are put one behind the other unless there is no storage, or the platform refuses. -/
theorem concatenate_answers (hparts : ∀ part ∈ parts, part.Grounded n) (location : Location)
    (device : Nat) (stream : Stream) (m : Machine) :
    (concatenate parts location device stream).Answers m (fun _ => True)
      fun e => e.IsAllocation ∨ e.RefusesCopy := by
  have hsizes : (parts.map fun part => part.data.byteSize) = parts.map fun part => part.data.size :=
    List.map_congr_left fun part hpart => (hparts part hpart).byteSize
  have halloc : (Buffer.allocate .uint8 (Size.total (parts.map fun part => part.data.byteSize))
      location device stream).Answers m (fun b => b.size = (parts.map fun part =>
        part.data.size).sum) fun e => e.IsAllocation ∨ e.RefusesCopy :=
    .bind (P := fun _ => True)
      (.attempt (fun _ _ _ => trivial) fun e he => .inl (Machine.acquire_eq_error he))
      fun _ _ _ _ => .change_bind (congrArg List.sum hsizes)
  refine halloc.bind fun b m' _ hb => ?_
  have hfill : (fillFrom stream 0 parts).Answers (m', b) (fun _ => True) Error.RefusesCopy :=
    fillFrom_answers (by rw [Nat.zero_add, hb]) m'
  unfold Action.Answers at hfill ⊢
  dsimp only
  cases hrun : fillFrom stream 0 parts (m', b) with
  | ok u p => trivial
  | error e p =>
    rw [hrun] at hfill
    exact .inr hfill

/-- What is collected lies where it was looked for, from the start of a block on. -/
theorem collect_answers (h : m.Grounded) {requests : List Request}
    (hr : ∀ r ∈ requests, r.Grounded m.memory.next) (query : InputQuery) (gather : Gather) :
    (collect requests query).Answers (m, gather)
      (fun c => ∃ parts p, requests.mapM (fun r => r.input query.name) = .ok parts ∧ p.offset = 0 ∧
        c = ⟨some p, (parts.map fun part => part.data.byteSize).sum, (target m query).1,
          (target m query).2⟩)
      fun e => (∃ r ∈ requests, r.input query.name = .error e) ∨ e.IsAllocation ∨
        e.RefusesCopy := by
  have haim : m.Grows (aimed m query) := by
    unfold aimed
    split
    · exact (Machine.Grows.refl h).emit _
    · exact .refl h
  unfold Action.Answers
  cases hparts : requests.mapM (fun r => r.input query.name) with
  | error e =>
    rw [collect_of_missing hparts]
    exact .inl (exists_of_mapM_error hparts)
  | ok parts =>
    have hstored : ∀ part ∈ parts, part.Grounded m.memory.next := fun part hpart => by
      obtain ⟨r, hmem, hi⟩ := mem_inputs_of_part hparts hpart
      exact hr r hmem part hi
    cases hin : inPlace? parts (target m query).1 (target m query).2 with
    | some single =>
      rw [collect_of_inPlace hparts hin]
      obtain ⟨rfl, -⟩ := eq_of_inPlace? hin
      refine ⟨[single], single.data.data, rfl, ?_, by rw [List.map_singleton, List.sum_singleton]⟩
      exact Buffer.offset_of_isOwned (hstored single (List.mem_singleton_self _)).owned
    | none =>
      have hnew := grows_concatenate haim.grounded (fun part hpart =>
        (hstored part hpart).data.mono haim.next) (target m query).1 (target m query).2 query.stream
      have hanswers := concatenate_answers hstored (target m query).1 (target m query).2
        query.stream (aimed m query)
      unfold Action.Answers at hanswers
      cases hc : concatenate parts (target m query).1 (target m query).2 query.stream
          (aimed m query) with
      | ok staging m' =>
        obtain ⟨-, hmade⟩ := hnew.of_ok hc
        rw [collect_of_ok hparts hin hc]
        exact ⟨parts, staging.data, rfl, Buffer.offset_of_isOwned hmade.owned,
          by rw [hmade.size_eq]; rfl⟩
      | error e m' =>
        rw [hc] at hanswers
        rw [collect_of_error hparts hin hc]
        exact .inr hanswers

end Gather

end Local

/-! ## What is given out -/

namespace CollectedInput

variable {c : CollectedInput} {dtype : ElementType} {query : InputQuery}

theorem toBuffer_eq_ok {b : Buffer} (h : c.toBuffer dtype query = .ok b) :
    b.dtype = dtype ∧ b.byteSize = c.byteSize := by
  unfold toBuffer at h
  split at h
  · cases h
  · split at h
    · next hz =>
      cases h
      exact ⟨rfl, (Nat.zero_mul _).trans hz.symm⟩
    · split at h
      · cases h
      · split at h
        · cases h
        · split at h
          · cases h
          · next hwhole =>
            cases h
            exact ⟨rfl, Nat.div_mul_cancel (Nat.dvd_of_mod_eq_zero (not_not.mp hwhole))⟩

/-- What lies at the start of a block is not given out if it lies elsewhere than it was asked for,
or if it is no whole number of elements. -/
theorem toBuffer_eq_error {p : Pointer} {e : Error} (hdata : c.data = some p) (hp : p.offset = 0)
    (h : c.toBuffer dtype query = .error e) :
    (c.byteSize % dtype.width ≠ 0 ∧
      e = .shapeMismatch (.partialElement query.name c.byteSize dtype)) ∨
      (c.location ≠ query.location ∨ query.location = .device ∧ c.device ≠ query.device) ∧
      e = .internalConsistency
        (.misplacedInput query.name c.location c.device query.location query.device) := by
  unfold toBuffer at h
  split at h
  · next hplace =>
    cases h
    exact .inr ⟨hplace, rfl⟩
  · split at h
    · cases h
    · rw [hdata] at h
      dsimp only at h
      rw [hp, Nat.zero_mod, if_neg (not_not.mpr rfl)] at h
      split at h
      · next hpartial =>
        cases h
        exact .inl ⟨hpartial, rfl⟩
      · cases h

end CollectedInput

namespace Local

variable {m : Machine} {n : Nat}

/-- The bytes that an input of this shape takes if its elements are of the given type. -/
def StoredInput.room (i : StoredInput) (dtype : ElementType) : Nat := i.shape.prod * dtype.width

/-- What a request stores takes the bytes of elements of some type. -/
theorem StoredInput.Grounded.exists_room {i : StoredInput} (h : i.Grounded n) :
    ∃ dtype, i.data.byteSize = i.room dtype := by
  obtain ⟨dtype, count, hcount, hsize⟩ := h.typed
  refine ⟨dtype, ?_⟩
  rw [room, Shape.prod_of_product? hcount, ← hsize, Buffer.byteSize, h.bytes]
  exact Nat.mul_one _

namespace Batch

variable {b : Batch} {name : String} {dtype : ElementType} {location : Location} {device : Nat}
  {t : Tensor} {parts : List StoredInput} {rows : List Nat} {row : Shape} {e : Error}

/-- What the requests of a batch have stored for an input. -/
def stored (b : Batch) (name : String) : Except Error (List StoredInput) :=
  b.requests.mapM fun r => r.input name

/-- What keeps a batch from giving out an input, whatever was stored for it. -/
inductive Withheld (m : Machine) (b : Batch) (name : String) (location : Location) (device : Nat) :
    Error → Prop where
  | finalized : b.state = .finalized → Withheld m b name location device .batchFinalized
  | empty : b.requests = [] → Withheld m b name location device .emptyBatch
  | missing {r : Request} : r ∈ b.requests → (∀ i ∈ r.inputs, i.name ≠ name) →
      Withheld m b name location device (.missingInput name (some r.id))
  | allocation {e : Error} : e.IsAllocation → Withheld m b name location device e
  | refused {e : Error} : e.RefusesCopy → Withheld m b name location device e
  | misplaced : location = .device → m.platform.hasDeviceMemory = false →
      Withheld m b name location device
        (.internalConsistency (.misplacedInput name .host 0 .device device))

/-- An input that was given out: what the requests stored for it, the rows of each of them, and the
shape of a row. All in all there are as many bytes as the rows take. -/
structure Fits (b : Batch) (name : String) (dtype : ElementType) (t : Tensor)
    (parts : List StoredInput) (rows : List Nat) (row : Shape) : Prop where
  found : b.stored name = .ok parts
  shapes : parts.map StoredInput.shape = rows.map (· :: row)
  combined : t.shape = rows.sum :: row
  reads : t.buffer.dtype = dtype
  bytes : t.buffer.byteSize = (parts.map fun i => i.data.byteSize).sum
  whole : t.buffer.byteSize = (parts.map fun i => i.room dtype).sum

theorem withheld_of_input {r : Request} (hr : r ∈ b.requests) (h : r.input name = .error e) :
    Withheld m b name location device e := by
  unfold Request.input at h
  split at h
  · cases h
  · next hnone =>
    cases h
    refine .missing hr fun i hi heq => ?_
    exact List.find?_eq_none.mp hnone i hi (beq_iff_eq.mpr heq)

theorem withheld_of_target {query : InputQuery}
    (h : (Gather.target m query).1 ≠ query.location ∨
      query.location = .device ∧ (Gather.target m query).2 ≠ query.device) :
    Withheld m b query.name query.location query.device (.internalConsistency (.misplacedInput
      query.name (Gather.target m query).1 (Gather.target m query).2 query.location
      query.device)) := by
  obtain ⟨hlocation, hmemory, htarget⟩ := Gather.target_of_misplaced h
  rw [htarget, hlocation]
  exact .misplaced rfl hmemory

theorem map_shape_of_inputs {requests : List Request} {shapes : List Shape}
    (hparts : List.Forall₂ (fun r i => r.input name = .ok i) requests parts)
    (hshapes : List.Forall₂ (fun r shape => r.inputShape name = .ok shape) requests shapes) :
    parts.map StoredInput.shape = shapes := by
  induction hparts generalizing shapes with
  | nil =>
    cases hshapes
    rfl
  | cons hi _ ih =>
    cases hshapes with
    | cons hs hrest =>
      rw [Request.inputShape, hi] at hs
      cases hs
      rw [List.map_cons, ih hrest]

theorem combinedShape_eq_error (h : b.combinedShape exchange name = .error e) :
    e.IsShapeMismatch ∨ Withheld m b name location device e := by
  cases hstate : b.state with
  | finalized =>
    rw [DeviceBatch.Batch.combinedShape_of_finalized hstate] at h
    cases h
    exact .inr (.finalized hstate)
  | opened =>
    rw [DeviceBatch.Batch.combinedShape_of_opened hstate] at h
    cases hshapes : b.requests.mapM fun r => exchange.inputShape r name with
    | error e' =>
      rw [hshapes] at h
      cases h
      obtain ⟨r, hr, he⟩ := exists_of_mapM_error hshapes
      refine .inr (withheld_of_input hr ?_)
      cases hi : r.input name with
      | error e' =>
        rw [show exchange.inputShape r name = (r.input name).map _ from rfl, hi] at he
        cases he
        rfl
      | ok i =>
        rw [show exchange.inputShape r name = (r.input name).map _ from rfl, hi] at he
        cases he
    | ok shapes =>
      rw [hshapes] at h
      rcases Shape.combine_eq_error h with hshape | ⟨rfl, rfl⟩
      · exact .inl hshape
      · exact .inr (.empty (List.forall₂_nil_right_iff.mp (forall₂_of_mapM_ok hshapes)))

theorem inputBytes_eq_error {shape : Shape}
    (h : DeviceBatch.Batch.inputBytes name dtype shape = .error e) : e.IsShapeMismatch := by
  unfold DeviceBatch.Batch.inputBytes at h
  split at h
  · cases h
    exact ⟨_, rfl⟩
  · split at h
    · cases h
      exact ⟨_, rfl⟩
    · cases h

/-- The rooms of the parts are those of their rows. -/
theorem map_room (h : parts.map StoredInput.shape = rows.map (· :: row)) (dtype : ElementType) :
    (parts.map fun i => i.room dtype) = rows.map (· * (row.prod * dtype.width)) := by
  calc (parts.map fun i => i.room dtype)
      = (parts.map StoredInput.shape).map (List.prod · * dtype.width) := by
        rw [List.map_map]
        rfl
    _ = rows.map (· * (row.prod * dtype.width)) := by
        rw [h, List.map_map]
        refine List.map_congr_left fun k _ => ?_
        show (k :: row).prod * dtype.width = _
        rw [List.prod_cons, Nat.mul_assoc]

/-- An input that is given out has as many bytes as its rows take. If it is not given out, shapes or
byte lengths do not agree, or it is withheld. -/
theorem getInput_answers (hm : m.Grounded) (hb : b.Grounded m.memory.next) (name : String)
    (dtype : ElementType) (location : Location) (device : Nat) :
    (DeviceBatch.Batch.getInput Local.exchange name dtype location device).Answers (m, b)
      (fun t => ∃ parts rows row, b.Fits name dtype t parts rows row)
      fun e => e.IsShapeMismatch ∨ Withheld m b name location device e := by
  refine .get_bind (.ofExcept_bind (fun shape hshape => .ofExcept_bind (fun bytes _ => ?_) ?_) ?_)
  · have hcollect := Gather.collect_answers hm hb.requests
      ⟨name, bytes, location, device, b.stream⟩ b.held.inputs
    refine .bind (.within (.within (hcollect.mono (fun _ h => h) fun e he => ?_)))
      fun c s' _ hc => ?_
    · rcases he with ⟨r, hr, he⟩ | he | he
      · exact .inr (withheld_of_input hr he)
      · exact .inr (.allocation he)
      · exact .inr (.refused he)
    · obtain ⟨parts, p, hparts, hp, rfl⟩ := hc
      refine .ofExcept_bind (fun buffer hbuffer => .change_bind (.ofExcept (fun t ht => ?_)
        fun e he => .inl (Tensor.ofBuffer_eq_error he))) fun e he => ?_
      · obtain ⟨shapes, hshapes, rows, row, rfl, hcombined⟩ := combinedShape_eq_ok hshape
        obtain ⟨hdtype, hbytes⟩ := CollectedInput.toBuffer_eq_ok hbuffer
        obtain rfl := Tensor.buffer_of_ofBuffer ht
        have hmap : parts.map StoredInput.shape = rows.map (· :: row) :=
          map_shape_of_inputs (forall₂_of_mapM_ok hparts) hshapes
        have hrows : t.shape = rows.sum :: row := (Tensor.shape_of_ofBuffer ht).trans hcombined
        refine ⟨parts, rows, row, hparts, hmap, hrows, hdtype, hbytes, ?_⟩
        have hsize := Shape.prod_of_product? t.holds
        rw [map_room hmap, List.sum_map_mul_right, List.map_id', Buffer.byteSize, ← hsize, hrows,
          hdtype, List.prod_cons, Nat.mul_assoc]
      · rcases CollectedInput.toBuffer_eq_error rfl hp he with ⟨-, rfl⟩ | ⟨hplace, rfl⟩
        · exact .inl ⟨_, rfl⟩
        · exact .inr (withheld_of_target hplace)
  · exact fun e he => .inl (inputBytes_eq_error he)
  · exact fun e he => combinedShape_eq_error he

/-- Either each part has the bytes of its rows, or one is too short and another one too long. -/
theorem Fits.even_or (h : b.Fits name dtype t parts rows row) :
    (parts.map fun i => i.data.byteSize) = rows.map (· * (row.prod * dtype.width)) ∨
      (∃ i ∈ parts, i.data.byteSize < i.room dtype) ∧
        ∃ i ∈ parts, i.room dtype < i.data.byteSize := by
  rcases eq_or_exists_of_sum_eq (h.bytes.symm.trans h.whole) with heven | huneven
  · refine .inl ?_
    rw [← map_room h.shapes]
    exact List.map_congr_left heven
  · exact .inr huneven

end Batch

end Local

/-! ## In every session -/

namespace Session

variable {s : Session} {b : Local.Batch}

/-- Once the stream of the batch has been waited for, an input shows what was stored, one request
behind the other. -/
theorem Sound.bytes_getInput (hs : s.Sound) (hb : s.batch = some b) {name : String}
    {dtype : ElementType} {location : Location} {device : Nat} {t : Tensor}
    {p : Machine × Local.Batch} {parts : List StoredInput}
    (hrun : Batch.getInput Local.exchange name dtype location device (s.machine, b) = .ok t p)
    (hparts : b.stored name = .ok parts) :
    t.buffer.bytes (p.1.synchronize b.stream) =
        (parts.map fun i => i.data.bytes s.machine).flatten ∧
      ∀ i ∈ parts, (i.data.bytes s.machine).length = i.data.byteSize := by
  have hstored : ∀ i ∈ parts, ∃ r ∈ s.requests, i ∈ r.inputs := fun i hi => by
    obtain ⟨r, hr, hmem⟩ := Gather.mem_inputs_of_part hparts hi
    exact ⟨r, (hs.batch b hb).requests.subset hr, hmem⟩
  have hbytes : ∀ i ∈ parts, i.data.bytes s.machine = i.data.outlookBytes s.machine.outlook :=
    fun i hi => by
      obtain ⟨r, hr, hmem⟩ := hstored i hi
      exact hs.bytes_stored hr hmem
  constructor
  · rcases Local.Batch.getInput_cases hs.keeps (hs.storedAll hb) name dtype location device with
      ⟨e, m, new, -, he, -⟩ | ⟨t', m, new, parts', hrun', hgiven⟩
    · rw [hrun] at he
      cases he
    · rw [hrun] at hrun'
      cases hrun'
      cases hparts.symm.trans hgiven.found
      have hstaged := (hs.retains_staged hb hgiven.staged).sound
      have hshown : t.buffer.bytes (m.synchronize b.stream) = t.buffer.outlookBytes m.outlook :=
        (Leads.refl hstaged).shows_view hstaged
          (show Session.batchAt _ .inProgress = some (b.withStaging new) from rfl) rfl hgiven.views
      rw [List.map_congr_left hbytes, ← List.flatMap_def, ← hgiven.bytes]
      exact hshown
  · intro i hi
    obtain ⟨r, hr, hmem⟩ := hstored i hi
    rw [hbytes i hi]
    exact (hs.requests r hr i hmem).1.length_outlookBytes hs.keeps fun t ht =>
      mem_holdings_of_requests hr (List.mem_flatMap.mpr ⟨i, hmem, ht⟩)

/-- In every session, if a batch gives out an input, all requests have stored it, as elements of any
types, with shapes that differ in their numbers of rows only, and it has as many bytes as all rows
take together. Either each request has stored the bytes of its own rows, and they lie in these rows,
or one has stored too few and another one too many. If the input is not given out, shapes or byte
lengths do not agree, or it is withheld for another reason. It is never given out if what was stored
differs in length from what all rows take. -/
theorem getInput_lines_up (platform : Platform) (device : Nat) (steps : List Step)
    (hb : (steps.foldl after (start platform device)).batch = some b) (name : String)
    (dtype : ElementType) (location : Location) (target : Nat) :
    let s := steps.foldl after (start platform device)
    let given := Batch.getInput Local.exchange name dtype location target (s.machine, b)
    (∀ t p, given = .ok t p → ∃ parts rows row, b.Fits name dtype t parts rows row ∧
      (∀ i ∈ parts, ∃ u, i.data.byteSize = i.room u) ∧
      let size := row.prod * dtype.width
      ((parts.map fun i => i.data.byteSize) = rows.map (· * size) ∧
          (Reachable platform device s → ∀ k (hk : k < parts.length),
            ((t.buffer.bytes (p.1.synchronize b.stream)).drop ((rows.take k).sum * size)).take
              (rows.getD k 0 * size) = parts[k].data.bytes s.machine) ∨
        (∃ i ∈ parts, i.data.byteSize < i.room dtype) ∧
          ∃ i ∈ parts, i.room dtype < i.data.byteSize)) ∧
    (∀ e p, given = .error e p →
      e.IsShapeMismatch ∨ Local.Batch.Withheld s.machine b name location target e) ∧
    (∀ parts, b.stored name = .ok parts →
      (parts.map fun i => i.data.byteSize).sum ≠ (parts.map fun i => i.room dtype).sum →
      ∃ e p, given = .error e p) := by
  intro s given
  have hs : s.Grounded := grounded_after platform device steps
  have hanswers := Local.Batch.getInput_answers hs.machine (hs.known.batch b hb) name dtype location
    target
  unfold Action.Answers at hanswers
  refine ⟨fun t p hgiven => ?_, fun e p hgiven => ?_, fun parts hparts hsums => ?_⟩
  · rw [show Batch.getInput _ _ _ _ _ _ = .ok t p from hgiven] at hanswers
    obtain ⟨parts, rows, row, hfits⟩ := hanswers
    refine ⟨parts, rows, row, hfits, fun i hi => ?_, ?_⟩
    · obtain ⟨r, hr, hmem⟩ := Gather.mem_inputs_of_part hfits.found hi
      exact ((hs.known.batch b hb).requests r hr i hmem).exists_room
    · refine hfits.even_or.imp_left fun heven => ⟨heven, fun hreachable k hk => ?_⟩
      obtain ⟨hbytes, hlengths⟩ := hreachable.sound.bytes_getInput hb hgiven hfits.found
      have hrows : (parts.map fun i => i.data.bytes s.machine).map List.length =
          rows.map (· * (row.prod * dtype.width)) := by
        rw [← heven, List.map_map]
        exact List.map_congr_left hlengths
      rw [hbytes, take_drop_flatten_rows hrows (by rwa [List.length_map]), List.getElem_map]
  · rw [show Batch.getInput _ _ _ _ _ _ = .error e p from hgiven] at hanswers
    exact hanswers
  · cases hgiven : given with
    | error e p => exact ⟨e, p, rfl⟩
    | ok t p =>
      rw [show Batch.getInput _ _ _ _ _ _ = .ok t p from hgiven] at hanswers
      obtain ⟨parts', rows, row, hfits⟩ := hanswers
      cases hparts.symm.trans hfits.found
      exact absurd (hfits.bytes.symm.trans hfits.whole) hsums

/-- Two requests that store elements of two bytes, the second one two rows of them. -/
def pairing : List Command := [
  .batch (.request 1 [⟨"x", .uint16, [1, 2], [1, 2], .host, 0⟩] [] []),
  .batch (.request 2 [⟨"x", .uint16, [2, 2], [3, 4, 5, 6], .device, 0⟩] [] []),
  .batch (.create none {} ⟨3⟩)]

/-- As such elements the input is given out, and each request finds its own bytes in its rows; as
elements of four bytes it is not. -/
theorem pairing_lines_up :
    let s := (pairing.map .perform).foldl after (start (.simulated ⟨1, 64, true⟩) 0)
    ∃ b, s.batch = some b ∧
      (∃ t p parts rows row,
        Batch.getInput Local.exchange "x" .uint16 .device 0 (s.machine, b) = .ok t p ∧
        b.Fits "x" .uint16 t parts rows row ∧
        ∀ k (hk : k < parts.length),
          ((t.buffer.bytes (p.1.synchronize b.stream)).drop
            ((rows.take k).sum * (row.prod * 2))).take (rows.getD k 0 * (row.prod * 2)) =
              parts[k].data.bytes s.machine) ∧
      ∃ e p, Batch.getInput Local.exchange "x" .uint32 .device 0 (s.machine, b) = .error e p ∧
        (e.IsShapeMismatch ∨ Local.Batch.Withheld s.machine b "x" .device 0 e) := by
  intro s
  have hpermits : (start (.simulated ⟨1, 64, true⟩) 0).Permits pairing :=
    ⟨trivial, trivial, rfl, trivial⟩
  have hreachable : Reachable (.simulated ⟨1, 64, true⟩) 0 s := Reachable.start.performAll hpermits
  have hfacts : s.batch.map (fun b =>
      ((Batch.getInput Local.exchange "x" .uint16 .device 0).outcome (s.machine, b)).1.isOk) =
        some true := by
    decide +kernel
  have hsizes : s.batch.map (fun b => (b.stored "x").toOption.map fun parts =>
      (parts.map fun i => i.data.byteSize, parts.map fun i => i.room .uint16,
        parts.map fun i => i.room .uint32)) = some (some ([4, 8], [4, 8], [8, 16])) := by
    decide +kernel
  cases hb : s.batch with
  | none =>
    rw [hb] at hfacts
    cases hfacts
  | some b =>
    rw [hb] at hfacts hsizes
    refine ⟨b, rfl, ?_⟩
    cases hparts : b.stored "x" with
    | error e => simp [hparts, Except.toOption] at hsizes
    | ok parts =>
      obtain ⟨hheld, hrooms, hwide⟩ : (parts.map fun i => i.data.byteSize) = [4, 8] ∧
          (parts.map fun i => i.room .uint16) = [4, 8] ∧
          (parts.map fun i => i.room .uint32) = [8, 16] := by
        simpa [hparts, Except.toOption] using hsizes
      constructor
      · obtain ⟨hgives, -, -⟩ := getInput_lines_up (.simulated ⟨1, 64, true⟩) 0
          (pairing.map .perform) hb "x" .uint16 .device 0
        cases hrun : Batch.getInput Local.exchange "x" .uint16 .device 0 (s.machine, b) with
        | error e p => simp [Action.outcome_of_error hrun, Except.isOk, Except.toBool] at hfacts
        | ok t p =>
          obtain ⟨parts', rows, row, hfits, -, ⟨-, hreads⟩ | ⟨⟨i, hi, hlow⟩, -⟩⟩ := hgives t p hrun
          · exact ⟨t, p, parts', rows, row, rfl, hfits, hreads hreachable⟩
          · cases hparts.symm.trans hfits.found
            exact absurd (List.map_inj_left.mp (hheld.trans hrooms.symm) i hi) (Nat.ne_of_lt hlow)
      · obtain ⟨-, hfails, hrefused⟩ := getInput_lines_up (.simulated ⟨1, 64, true⟩) 0
          (pairing.map .perform) hb "x" .uint32 .device 0
        obtain ⟨e, p, he⟩ := hrefused parts hparts (by rw [hheld, hwide]; decide)
        exact ⟨e, p, he, hfails e p he⟩

/-- Two requests that store for one input two elements of one byte, and one element of four. -/
def mixing : List Command := [
  .batch (.request 1 [⟨"x", .uint8, [2], [1, 2], .host, 0⟩] [] []),
  .batch (.request 2 [⟨"x", .uint32, [1], [3], .host, 0⟩] [] []),
  .batch (.create none {} .standard)]

/-- As three elements of two bytes the input is given out, though neither request has stored the
bytes of its rows. -/
theorem mixing_given :
    let s := (mixing.map .perform).foldl after (start .host 0)
    ∃ b t p parts, s.batch = some b ∧
      Batch.getInput Local.exchange "x" .uint16 .host 0 (s.machine, b) = .ok t p ∧ t.shape = [3] ∧
      b.stored "x" = .ok parts ∧ (parts.map fun i => i.data.byteSize) = [2, 4] ∧
      (parts.map fun i => i.room .uint16) = [4, 2] := by
  intro s
  have hshape : s.batch.map (fun b => ((Batch.getInput Local.exchange "x" .uint16 .host 0).outcome
      (s.machine, b)).1.toOption.map Tensor.shape) = some (some [3]) := by
    decide +kernel
  have hsizes : s.batch.map (fun b => (b.stored "x").toOption.map fun parts =>
      (parts.map fun i => i.data.byteSize, parts.map fun i => i.room .uint16)) =
        some (some ([2, 4], [4, 2])) := by
    decide +kernel
  cases hb : s.batch with
  | none =>
    rw [hb] at hshape
    cases hshape
  | some b =>
    rw [hb] at hshape hsizes
    cases hparts : b.stored "x" with
    | error e => simp [hparts, Except.toOption] at hsizes
    | ok parts =>
      cases hrun : Batch.getInput Local.exchange "x" .uint16 .host 0 (s.machine, b) with
      | error e p => simp [Action.outcome_of_error hrun, Except.toOption] at hshape
      | ok t p =>
        refine ⟨b, t, p, parts, rfl, hrun, ?_, hparts, ?_⟩
        · simpa [Action.outcome_of_ok hrun, Except.toOption] using hshape
        · simpa [hparts, Except.toOption] using hsizes

end Session

end DeviceBatch
