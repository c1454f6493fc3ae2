import Mathlib.Algebra.Order.BigOperators.Group.List
import Mathlib.Algebra.Order.Group.Nat
import DeviceBatch.Proofs.Finalizing
import DeviceBatch.Session

/-!
# How outputs are tiled

An output is refused if it has no rows, or not as many as the requests brought together. Otherwise
its slices lie one behind the other from its first byte to its last, and handing them out gives one
entry to each response whose request wants the output (`Local.Scatter.process_tiles`).
-/

namespace DeviceBatch

namespace Local.Scatter

/-! ## Slices cover an output -/

/-- The slices lie one behind the other from `start` to `stop`. -/
def Consecutive : Nat → List Slice → Nat → Prop
  | start, [], stop => start = stop
  | start, slice :: rest, stop => slice.start = start ∧ Consecutive (start + slice.length) rest stop

theorem consecutive_slicesFrom (rowBytes : Nat) (row : Shape) (start : Nat) (rows : List Nat) :
    Consecutive start (slicesFrom rowBytes row start rows) (start + rows.sum * rowBytes) := by
  induction rows generalizing start with
  | nil => rw [List.sum_nil, Nat.zero_mul]; rfl
  | cons k rows ih =>
    refine ⟨rfl, ?_⟩
    rw [List.sum_cons, Nat.add_mul, ← Nat.add_assoc]
    exact ih _

/-- The slices of an output for requests that brought so many rows each. -/
structure Tiles (maximum : Nat) (rows : List Nat) (y : Tensor) (cut : List Slice) : Prop where
  count : cut.length = rows.length
  consecutive : Consecutive 0 cut y.buffer.byteSize
  /-- The bytes of a slice can be copied into any buffer of their number. -/
  inRange : ∀ slice ∈ cut, ∀ d : Buffer, d.size = slice.length →
    Buffer.inRange d (bytesView y.buffer) 0 slice.start (slice.start + slice.length) = true
  filled : ∀ slice ∈ cut, ∃ n, Shape.product? slice.shape = some n ∧
    slice.length = n * y.buffer.dtype.width
  shapes : maximum ≠ 0 → cut.map Slice.shape = rows.map (· :: y.shape.tail)
  whole : maximum = 0 → cut = [⟨0, y.buffer.byteSize, y.shape⟩]

theorem map_shape_slicesFrom (rowBytes : Nat) (row : Shape) (start : Nat) (rows : List Nat) :
    (slicesFrom rowBytes row start rows).map Slice.shape = rows.map (· :: row) := by
  induction rows generalizing start with
  | nil => rfl
  | cons k rows ih => rw [slicesFrom, List.map_cons, List.map_cons, ih]

/-- A slice that was cut is as long as its shape says. -/
theorem filled_of_mem_slicesFrom {rows : List Nat} {row : Shape} {n width : Nat}
    (h : Shape.product? (rows.sum :: row) = some n) {start : Nat} {slice : Slice}
    (hs : slice ∈ slicesFrom ((Shape.product? row).getD 0 * width) row start rows) :
    ∃ k, Shape.product? slice.shape = some k ∧ slice.length = k * width := by
  obtain ⟨i, hi, rfl⟩ := List.getElem_of_mem hs
  have hget := getElem?_slicesFrom ((Shape.product? row).getD 0 * width) row start rows i
  rw [length_slicesFrom] at hi
  rw [List.getElem?_eq_getElem hi, List.getElem?_eq_getElem (by rw [length_slicesFrom]; exact hi),
    Option.map_some, Option.some.injEq] at hget
  rw [hget]
  have hle : rows[i] ≤ rows.sum :=
    List.single_le_sum (fun k _ => Nat.zero_le k) _ (List.getElem_mem hi)
  exact ⟨_, Shape.product?_cons_of_le hle h, (Nat.mul_assoc ..).symm⟩

/-- What fits into an output can be copied into a buffer of its size. -/
theorem inRange_of_fits {y : Buffer} {slice : Slice} {d : Buffer}
    (hfits : slice.start + slice.length ≤ y.byteSize) (hd : d.size = slice.length) :
    Buffer.inRange d (bytesView y) 0 slice.start (slice.start + slice.length) = true :=
  Buffer.inRange_eq_true.mpr ⟨Nat.le_add_right _ _, hfits, Nat.zero_le _,
    by rw [hd]; exact Nat.le_of_eq (Nat.add_sub_cancel_left _ _)⟩

/-- The one slice of a model that does not batch. -/
theorem tiles_whole {maximum : Nat} {rows : List Nat} (hmax : maximum = 0)
    (hone : rows.length = 1) (y : Tensor) :
    Tiles maximum rows y [⟨0, y.buffer.byteSize, y.shape⟩] where
  count := hone.symm
  consecutive := ⟨rfl, Nat.zero_add _⟩
  inRange slice hs d hd := by
    refine inRange_of_fits ?_ hd
    rw [List.mem_singleton.mp hs]
    exact Nat.le_of_eq (Nat.zero_add _)
  filled slice hs := by
    rw [List.mem_singleton.mp hs]
    exact ⟨_, y.holds, rfl⟩
  shapes hne := absurd hmax hne
  whole _ := rfl

/-- The slices of an output that has the rows of the requests. -/
theorem tiles_slicesFrom {maximum : Nat} {rows : List Nat} {y : Tensor} {row : Shape}
    (hmax : maximum ≠ 0) (hshape : y.shape = rows.sum :: row) :
    Tiles maximum rows y
      (slicesFrom ((Shape.product? row).getD 0 * y.buffer.dtype.width) row 0 rows) where
  count := length_slicesFrom ..
  consecutive := by
    rw [byteSize_of_rows hshape, ← Nat.zero_add (rows.sum * _)]
    exact consecutive_slicesFrom ..
  inRange slice hs d hd := by
    refine inRange_of_fits ?_ hd
    rw [byteSize_of_rows hshape, ← Nat.zero_add (rows.sum * _)]
    exact fits_of_mem_slicesFrom hs
  filled slice hs := by
    have hholds := y.holds
    rw [hshape] at hholds
    exact filled_of_mem_slicesFrom hholds hs
  shapes _ := by rw [map_shape_slicesFrom, hshape]; rfl
  whole h := absurd h hmax

/-- An output is refused, or it may be cut and its slices tile it. -/
theorem slices_tile (scatter : Scatter) (rows : List Nat) (name : String) (y : Tensor)
    (hsingle : scatter.maximum = 0 → rows.length = 1) :
    (scatter.maximum ≠ 0 ∧ y.shape.head? ≠ some rows.sum ∧
      ∃ fault, scatter.slices rows (.ofTensor name y) = .error (.shapeMismatch fault)) ∨
    (scatter.maximum = 0 ∨ y.shape.head? = some rows.sum) ∧
      ∃ cut, scatter.slices rows (.ofTensor name y) = .ok cut ∧
        Tiles scatter.maximum rows y cut := by
  rcases slices_cases scatter rows name y with
    ⟨hmax, hcut⟩ | hfault | ⟨hmax, row, hshape, hcut⟩
  · exact .inr ⟨.inl hmax, _, hcut, tiles_whole hmax (hsingle hmax) y⟩
  · exact .inl hfault
  · exact .inr ⟨.inr (congrArg List.head? hshape), _, hcut, tiles_slicesFrom hmax hshape⟩

/-! ## What a response gains -/

/-- A slice of an output in a new buffer at a place. -/
structure Gained (o : RecordedOutput) (slice : Slice) (place : Location × Nat)
    (d : DeliveredOutput) : Prop where
  name : d.name = o.name
  shape : d.shape = slice.shape
  dtype : d.dtype = o.tensor.buffer.dtype
  placed : (d.data.location, d.data.device) = place
  size : d.data.byteSize = slice.length
  /-- It was filled from the bytes of the slice. -/
  copied : ∃ m m', copySlice (bytesView o.tensor.buffer) slice place.1 place.2 m = .ok d.data m'

/-- One more entry in a response for an output that is wanted, and none for any other. -/
def Gains (o : RecordedOutput) (slice : Slice) (r r' : Response) : Option (Location × Nat) → Prop
  | none => r' = r
  | some place => ∃ d, Gained o slice place d ∧ r' = { r with outputs := r.outputs ++ [d] }

/-- The responses after an output was handed out in these slices. -/
structure Dealt (requests : List Request) (o : RecordedOutput) (cut : List Slice)
    (responses responses' : List Response) : Prop where
  count : responses'.length = responses.length
  gains : ∀ (i : Nat) (request : Request) (slice : Slice) (r : Response),
    requests[i]? = some request → cut[i]? = some slice → responses[i]? = some r →
      ∃ r', responses'[i]? = some r' ∧ Gains o slice r r' (request.wants o.name)

/-- What responses gained of an output will hold the bytes of their slices. -/
def Fills (m : Machine) (o : RecordedOutput) (cut : List Slice) (responses : List Response)
    (p : Machine × Scatter × List Response) : Prop :=
  ∀ (i : Nat) (slice : Slice) (r : Response) (d : DeliveredOutput), cut[i]? = some slice →
    responses[i]? = some r → p.2.2[i]? = some { r with outputs := r.outputs ++ [d] } →
      d.data.outlookBytes p.1.outlook = part m o.tensor.buffer slice d.data.location

variable {m m' : Machine} {o : RecordedOutput} {slice : Slice} {request : Request}
  {p p' : Machine × Scatter × List Response} {i : Nat}

theorem gains_of_deliver (h : deliver (.ofTensor o.name o.tensor) (bytesView o.tensor.buffer) i
      request slice p = .ok () p') :
    ∃ f : Response → Response, p'.2.2 = p.2.2.modify i f ∧
      ∀ r, Gains o slice r (f r) (request.wants o.name) := by
  rcases deliver_eq_ok h with ⟨hwant, rfl⟩ | ⟨location, device, d, m, hwant, hcopy, rfl⟩
  · rw [hwant]
    exact ⟨id, (List.modify_id ..).symm, fun r => rfl⟩
  · obtain ⟨⟨hlocation, hdevice, hsize⟩, -⟩ := copySlice_eq_ok hcopy
    rw [hwant]
    exact ⟨_, rfl, fun r => ⟨_, ⟨rfl, rfl, rfl, Prod.ext hlocation hdevice, hsize, _, m, hcopy⟩,
      rfl⟩⟩

/-- Responses before number `index` gain nothing, those from there on what is meant for them. -/
theorem gains_of_deliverFrom {index : Nat} {pairs : List (Request × Slice)}
    (h : deliverFrom (.ofTensor o.name o.tensor) (bytesView o.tensor.buffer) index pairs p =
      .ok () p') :
    p'.2.2.length = p.2.2.length ∧ (∀ k < index, p'.2.2[k]? = p.2.2[k]?) ∧
      ∀ k (hk : k < pairs.length) r, p.2.2[index + k]? = some r →
        ∃ r', p'.2.2[index + k]? = some r' ∧
        Gains o pairs[k].2 r r' (pairs[k].1.wants o.name) := by
  induction pairs generalizing index p with
  | nil =>
    cases h
    exact ⟨rfl, fun _ _ => rfl, fun k hk => absurd hk (Nat.not_lt_zero k)⟩
  | cons pair rest ih =>
    obtain ⟨request, slice⟩ := pair
    cases hd : deliver (.ofTensor o.name o.tensor) (bytesView o.tensor.buffer) index request slice
        p with
    | error e q => cases (Action.bind_of_error hd).symm.trans h
    | ok u q =>
      have h := (Action.bind_of_ok hd).symm.trans h
      obtain ⟨f, hq, hf⟩ := gains_of_deliver hd
      obtain ⟨hlength, hbefore, hafter⟩ := ih h
      refine ⟨by rw [hlength, hq, List.length_modify], fun k hk => ?_, fun k hk r hr => ?_⟩
      · rw [hbefore k (Nat.lt_succ_of_lt hk), hq, List.getElem?_modify_ne _ _ (Nat.ne_of_gt hk)]
      · cases k with
        | zero =>
          refine ⟨f r, ?_, hf r⟩
          rw [Nat.add_zero] at hr ⊢
          rw [hbefore _ (Nat.lt_succ_self _), hq, List.getElem?_modify_eq, hr]
          rfl
        | succ k =>
          have hk' : k < rest.length := Nat.lt_of_succ_lt_succ hk
          obtain ⟨r', hr', hgains⟩ := hafter k hk' r (by
            rw [hq, List.getElem?_modify_ne _ _ (by omega), Nat.add_assoc, Nat.add_comm 1 k]
            exact hr)
          rw [Nat.add_assoc, Nat.add_comm 1 k] at hr'
          exact ⟨r', hr', hgains⟩

theorem gains_of_process {responses : List Response} {scatter : Scatter} {requests : List Request}
    {cut : List Slice}
    (hcut : scatter.slices (requests.map Request.rows) (.ofTensor o.name o.tensor) = .ok cut)
    (h : process requests (.ofTensor o.name o.tensor) (m, scatter, responses) = .ok () p') :
    Dealt requests o cut responses p'.2.2 := by
  obtain ⟨cut', q, hcut', hd, rfl⟩ := process_eq_ok h
  cases hcut.symm.trans hcut'
  obtain ⟨hlength, -, hgains⟩ := gains_of_deliverFrom hd
  refine ⟨hlength, fun i request slice r hrequest hslice hr => ?_⟩
  obtain ⟨hi, hrequest⟩ := List.getElem?_eq_some_iff.mp hrequest
  obtain ⟨hi', hslice⟩ := List.getElem?_eq_some_iff.mp hslice
  obtain ⟨hi'', -⟩ := List.getElem?_eq_some_iff.mp hr
  have hlt : i < ((requests.zip cut).take responses.length).length := by
    rw [List.length_take, List.length_zip]
    omega
  obtain ⟨r', hr', hgain⟩ := hgains i hlt r (by rw [Nat.zero_add]; exact hr)
  rw [Nat.zero_add] at hr'
  rw [List.getElem_take, List.getElem_zip, hrequest, hslice] at hgain
  exact ⟨r', hr', hgain⟩

/-- Where all storage in use is accounted for, only storage for a response can be lacking, and what
a response gains will hold the bytes of its slice. -/
theorem bytes_of_process {T : List Holding} {responses : List Response} {scatter : Scatter}
    {requests : List Request} {cut : List Slice}
    (hk : m.Keeps (responses.flatMap Response.holdings ++ T)) (hsound : ∀ r ∈ responses, r.Sound)
    (hy : o.tensor.buffer.Readable T) (hcount : responses.length = requests.length)
    (hsingle : scatter.maximum = 0 → requests.length ≤ 1)
    (hcut : scatter.slices (requests.map Request.rows) (.ofTensor o.name o.tensor) = .ok cut) :
    (∃ e p', e.IsAllocation ∧
      process requests (.ofTensor o.name o.tensor) (m, scatter, responses) = .error e p') ∨
    ∃ p', process requests (.ofTensor o.name o.tensor) (m, scatter, responses) = .ok () p' ∧
      Fills m o cut responses p' := by
  obtain ⟨hslices, -⟩ := slices_eq_ok hcut fun h => by rw [List.length_map]; exact hsingle h
  rcases process_cases (p := (m, scatter, responses)) (D := []) (S := fun _ => True) hk hy trivial
      hsingle ⟨.refl hk, hsound, fun _ _ _ _ => trivial, rfl, hcount, .refl _⟩
      (fun i r hr => ⟨r, [], hr, by rw [List.append_nil], .nil⟩) with
    ⟨e, he, -⟩ | ⟨e, p', n, halloc, he, -⟩ | ⟨p', hrun, hspread, hhanded⟩
  · cases hcut.symm.trans he
  · exact .inl ⟨e, p', halloc, he⟩
  · refine .inr ⟨p', hrun, fun i slice r d hslice hr hr' => ?_⟩
    obtain ⟨r₀, ds, hr₀, heq, hds⟩ := hhanded i _ hr'
    cases hr₀.symm.trans hr
    -- Exactly one entry was added, and it can only be for this output.
    have hds' : ds = [d] := (List.append_cancel_left (congrArg Response.outputs heq)).symm
    rw [hds', List.nil_append] at hds
    obtain ⟨o', rest, hgot, -, hfilter⟩ := List.forall₂_cons_right_iff.mp hds
    have hmem : o' ∈ [o].filter fun o => (wanted requests i o.name).isSome :=
      hfilter ▸ List.mem_cons_self
    obtain rfl : o' = o := List.mem_singleton.mp (List.mem_filter.mp hmem).1
    have hi : i < (requests.map Request.rows).length := by
      rw [List.length_map, ← hcount]
      exact (List.getElem?_eq_some_iff.mp hr).1
    cases hslice.symm.trans (hslices i hi)
    exact hgot.bytes

/-- An output is refused before anything happens, exactly if the model batches and the output is a
scalar or has not as many rows as the requests together. Otherwise its slices tile it, and handing
them out gives each response whose request wants the output one entry with its slice, and the others
nothing. -/
theorem process_tiles {requests : List Request} {responses : List Response} {scatter : Scatter}
    (m : Machine) (o : RecordedOutput) (hcount : responses.length = requests.length)
    (hsingle : scatter.maximum = 0 → requests.length = 1) :
    let rows := requests.map Request.rows
    let run := process requests (.ofTensor o.name o.tensor) (m, scatter, responses)
    (scatter.maximum ≠ 0 ∧ o.tensor.shape.head? ≠ some rows.sum ∧
      ∃ fault, run = .error (.shapeMismatch fault) (m, scatter, responses)) ∨
    (scatter.maximum = 0 ∨ o.tensor.shape.head? = some rows.sum) ∧
      ∃ cut, scatter.slices rows (.ofTensor o.name o.tensor) = .ok cut ∧
        Tiles scatter.maximum rows o.tensor cut ∧
        (∀ p', run = .ok () p' → Dealt requests o cut responses p'.2.2) ∧
        ∀ T, m.Keeps (responses.flatMap Response.holdings ++ T) → (∀ r ∈ responses, r.Sound) →
          o.tensor.buffer.Readable T →
            (∃ e p', e.IsAllocation ∧ run = .error e p') ∨
            ∃ p', run = .ok () p' ∧ Fills m o cut responses p' := by
  intro rows run
  rcases slices_tile scatter rows o.name o.tensor (by rw [List.length_map]; exact hsingle) with
    ⟨hmax, hhead, fault, hcut⟩ | ⟨hfits, cut, hcut, htiles⟩
  · exact .inl ⟨hmax, hhead, fault, Action.ofExcept_bind_of_error hcut _ _⟩
  · exact .inr ⟨hfits, cut, hcut, htiles, fun p' h => gains_of_process hcut h,
      fun T hk hsound hy => bytes_of_process hk hsound hy hcount (fun h => (hsingle h).le) hcut⟩

end Local.Scatter

namespace Session

open Local Local.Scatter

/-- Two requests, of two rows and of one, and an output that only the first of them wants. -/
def uneven : List Command := [
  .batch (.request 1 [⟨"x", .uint8, [2], [7, 8], .host, 0⟩] [⟨"y", .device, 1⟩] []),
  .batch (.request 2 [⟨"x", .uint8, [1], [9], .host, 0⟩] [⟨"z", .host, 0⟩] []),
  .batch (.create none {} ⟨3⟩),
  .batch (.getOutput "y" .uint16 [3, 2] .host 0)]

/-- It is cut behind the second row, and the first response gains what is before. -/
theorem uneven_tiles :
    let s := ((start (.simulated ⟨2, 256, true⟩) 0).performAll uneven).2
    ∃ b o p', s.batch = some b ∧ o ∈ b.outputs ∧
      process b.requests (.ofTensor o.name o.tensor) (s.machine, b.held.outputs, b.responses) =
        .ok () p' ∧
      b.requests.map (fun r => (r.rows, r.wants o.name)) = [(2, some (.device, 1)), (1, none)] ∧
      Tiles 8 [2, 1] o.tensor [⟨0, 8, [2, 2]⟩, ⟨8, 4, [1, 2]⟩] ∧
      Dealt b.requests o [⟨0, 8, [2, 2]⟩, ⟨8, 4, [1, 2]⟩] b.responses p'.2.2 := by
  intro s
  have hfacts : (s.batch.any fun b => b.outputs.any fun o =>
      (Action.outcome (process b.requests (.ofTensor o.name o.tensor))
        (s.machine, b.held.outputs, b.responses)).1.isOk &&
      decide (o.tensor.shape.head? = some 3 ∧ b.held.outputs.maximum = 8 ∧
        b.responses.length = b.requests.length ∧ b.requests.map Request.rows = [2, 1] ∧
        b.requests.map (fun r => (r.rows, r.wants o.name)) = [(2, some (.device, 1)), (1, none)] ∧
        (b.held.outputs.slices [2, 1] (.ofTensor o.name o.tensor)).toOption =
          some [⟨0, 8, [2, 2]⟩, ⟨8, 4, [1, 2]⟩])) = true := by
    decide +kernel
  obtain ⟨b, hb, h⟩ := Option.any_eq_true _ _ |>.mp hfacts
  obtain ⟨o, ho, h⟩ := List.any_eq_true.mp h
  rw [Bool.and_eq_true, decide_eq_true_iff] at h
  obtain ⟨hok, hhead, hmax, hcount, hrows, hwants, hslices⟩ := h
  rcases process_tiles s.machine o hcount (fun hzero => absurd (hmax.symm.trans hzero) (by decide))
    with ⟨-, hrefused, -⟩ | ⟨-, cut, hcut, htiles, hdealt, -⟩
  · rw [hrows] at hrefused
    exact absurd hhead hrefused
  · rw [hrows] at hcut htiles
    rw [hcut] at hslices
    cases hslices
    rw [hmax] at htiles
    cases hrun : process b.requests (.ofTensor o.name o.tensor)
        (s.machine, b.held.outputs, b.responses) with
    | error e p' =>
      rw [Action.outcome_of_error hrun] at hok
      cases hok
    | ok u p' => exact ⟨b, o, p', hb, ho, hrun, hwants, htiles, hdealt p' hrun⟩

end Session

end DeviceBatch
