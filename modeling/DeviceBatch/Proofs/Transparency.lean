import Mathlib.Algebra.BigOperators.Ring.List
import Mathlib.Algebra.Ring.Nat
import DeviceBatch.Proofs.Delivery
import DeviceBatch.Proofs.Inputs
import DeviceBatch.Proofs.Rows

/-!
# Batching is not noticed

A model that treats rows one by one gives to each request what it makes of the rows that this
request was given, whatever other requests are in the batch and wherever inputs and outputs lie
(`Session.batching_transparent`).
-/

namespace DeviceBatch

open Local

/-- The number of elements of a row. -/
def Shape.rowSize (shape : Shape) : Nat := (Shape.product? shape.tail).getD 0

/-- The values that a request was given. -/
def InputSpec.values (i : InputSpec) (dtype : ElementType) : List dtype.Value :=
  i.elements.map dtype.ofInt

/-! ## What requests bring -/

section Requests

variable {o : Outlook} {name : String} {dtype : ElementType}

/-- The first input of a request is the one of that name and type. -/
def LeadsWith (name : String) (dtype : ElementType) (given : List InputSpec) (spec : InputSpec) :
    Prop :=
  given.head? = some spec ∧ spec.name = name ∧ spec.dtype = dtype

/-- What a request stores for its first input. -/
theorem input_of_leadsWith {r : Request} {given : List InputSpec} {spec : InputSpec}
    (hr : r.Stores given o) (h : LeadsWith name dtype given spec) :
    ∃ i, r.input name = .ok i ∧ r.inputShape name = .ok spec.shape ∧
      r.rows = spec.shape.headD 1 ∧ spec.shape.product? = some spec.elements.length ∧
      i.data.outlookBytes o = dtype.encode (spec.values dtype) := by
  obtain ⟨hhead, hname, rfl⟩ := h
  cases given with
  | nil => cases hhead
  | cons first more =>
    cases hhead
    obtain ⟨id, inputs, wanted⟩ := r
    cases hr with
    | @cons i _ is _ hi _ =>
      obtain ⟨hiname, hshape, hcount, hbytes⟩ := hi
      have hfind : (i :: is).find? (fun i => i.name == name) = some i := by
        rw [List.find?_cons_of_pos]
        rw [hiname, hname]
        exact beq_self_eq_true _
      have hinput : (Request.mk id (i :: is) wanted).input name = .ok i := by
        unfold Request.input
        rw [hfind]
      refine ⟨i, hinput, ?_, ?_, hcount, hbytes⟩
      · unfold Request.inputShape
        rw [hinput, ← hshape]
        rfl
      · rw [← hshape]
        obtain ⟨iname, shape, data⟩ := i
        cases shape <;> rfl

/-- What several requests store for their first inputs. -/
theorem inputs_of_leadsWith {rs : List Request} {given : List (List InputSpec)}
    {specs : List InputSpec} {parts : List StoredInput} {shapes : List Shape}
    (hr : List.Forall₂ (fun r given => r.Stores given o) rs given)
    (h : List.Forall₂ (LeadsWith name dtype) given specs)
    (hparts : List.Forall₂ (fun r i => r.input name = .ok i) rs parts)
    (hshapes : List.Forall₂ (fun r shape => r.inputShape name = .ok shape) rs shapes) :
    shapes = specs.map InputSpec.shape ∧
      rs.map Request.rows = specs.map (fun spec => spec.shape.headD 1) ∧
      (∀ spec ∈ specs, spec.shape.product? = some spec.elements.length) ∧
      parts.flatMap (fun i => i.data.outlookBytes o) =
        dtype.encode (specs.map (·.values dtype)).flatten := by
  induction hr generalizing specs parts shapes with
  | nil =>
    cases h
    cases hparts
    cases hshapes
    exact ⟨rfl, rfl, nofun, rfl⟩
  | cons hr _ ih =>
    cases h with
    | cons h hrest =>
      cases hparts with
      | cons hi hirest =>
        cases hshapes with
        | cons hs hsrest =>
          obtain ⟨i, hi', hs', hrows, hcount, hbytes⟩ := input_of_leadsWith hr h
          cases hi'.symm.trans hi
          cases hs'.symm.trans hs
          obtain ⟨hshapes, hallrows, hcounts, hall⟩ := ih hrest hirest hsrest
          refine ⟨by rw [hshapes]; rfl, by rw [List.map_cons, List.map_cons, hrows, hallrows],
            List.forall_mem_cons.mpr ⟨hcount, hcounts⟩, ?_⟩
          rw [List.flatMap_cons, hbytes, hall, List.map_cons, List.flatten_cons]
          exact List.flatMap_append.symm

/-- Inputs whose shapes differ in their numbers of rows only consist of that many rows. -/
theorem length_values {specs : List InputSpec} {rows : List Nat} {row : Shape}
    (hshapes : specs.map InputSpec.shape = rows.map (· :: row))
    (hcounts : ∀ spec ∈ specs, spec.shape.product? = some spec.elements.length) :
    List.Forall₂ (fun k (block : List dtype.Value) =>
      block.length = k * (Shape.product? row).getD 0) rows (specs.map (·.values dtype)) := by
  induction rows generalizing specs with
  | nil =>
    rw [List.map_nil, List.map_eq_nil_iff] at hshapes
    rw [hshapes]
    exact .nil
  | cons k rows ih =>
    cases specs with
    | nil => cases hshapes
    | cons spec specs =>
      obtain ⟨hshape, hrest⟩ := List.cons.inj hshapes
      obtain ⟨hcount, hcounts⟩ := List.forall_mem_cons.mp hcounts
      refine .cons ?_ (ih hrest hcounts)
      rw [show spec.shape = k :: row from hshape] at hcount
      exact (List.length_map _).trans (Shape.product?_cons hcount)

end Requests

/-- What becomes of the rows of each request. -/
theorem length_mapped {α β : Type} {f : List α → List β} {width width' : Nat} {rows : List Nat}
    {blocks : List (List α)} (hf : ∀ row, row.length = width → (f row).length = width')
    (h : List.Forall₂ (fun k block => block.length = k * width) rows blocks) :
    List.Forall₂ (fun k block => block.length = k * width') rows
      (List.zipWith (mapRows f width) rows blocks) := by
  induction h with
  | nil => exact .nil
  | cons hk _ ih => exact .cons (length_mapRows hf hk) ih

/-! ## Cutting rows out of bytes -/

/-- The slice of a request if the model batches: its rows, behind those before them. -/
theorem sliceOf_of_ne {maximum : Nat} (h : maximum ≠ 0) (rows : List Nat) (y : Tensor) (i : Nat) :
    Scatter.sliceOf maximum rows y i =
      ⟨(rows.take i).sum * (y.shape.rowSize * y.buffer.dtype.width),
        rows.getD i 0 * (y.shape.rowSize * y.buffer.dtype.width),
        rows.getD i 0 :: y.shape.tail⟩ := by
  unfold Scatter.sliceOf
  rw [if_neg h]
  rfl

/-- The slice of a request that brought so many rows has the bytes of its own values. -/
theorem cut_encode {u : ElementType} {width : Nat} {rows : List Nat} {blocks : List (List u.Value)}
    (h : List.Forall₂ (fun k block => block.length = k * width) rows blocks) {i : Nat}
    (hi : i < blocks.length) (shape : Shape) :
    Scatter.cut ⟨(rows.take i).sum * (width * u.width), rows.getD i 0 * (width * u.width), shape⟩
      (u.encode blocks.flatten) = u.encode blocks[i] := by
  have hlengths : (blocks.map u.encode).map List.length = rows.map (· * (width * u.width)) := by
    clear hi
    induction h with
    | nil => rfl
    | cons hk _ ih =>
      rw [List.map_cons, List.map_cons, List.map_cons, ih, u.length_encode, hk, Nat.mul_assoc]
  have hi' : i < (blocks.map u.encode).length := by rwa [List.length_map]
  have hcut := take_drop_flatten_rows hlengths hi'
  unfold Scatter.cut
  rw [u.encode_flatten, hcut, List.getElem_map]

/-- The combined shape of an input has the rows of all requests. -/
theorem combinedShape_eq_ok {b : Local.Batch} {name : String} {shape : Shape}
    (h : b.combinedShape exchange name = .ok shape) :
    ∃ shapes, List.Forall₂ (fun r shape => r.inputShape name = .ok shape) b.requests shapes ∧
      ∃ (rows : List Nat) (row : Shape), shapes = rows.map (· :: row) ∧
        shape = rows.sum :: row := by
  rw [Batch.combinedShape_of_opened (Batch.opened_of_combinedShape h)] at h
  cases hshapes : b.requests.mapM (fun r => exchange.inputShape r name) with
  | error e =>
    rw [hshapes] at h
    cases h
  | ok shapes =>
    rw [hshapes] at h
    exact ⟨shapes, forall₂_of_mapM_ok hshapes, Shape.combine_eq_ok h⟩

/-- An input consists of the rows that the requests were given. -/
theorem Local.Batch.Given.rows {m m' : Machine} {T : List Holding} {b : Local.Batch} {name : String}
    {dtype : ElementType} {location : Location} {device : Nat} {new : List Buffer}
    {parts : List StoredInput} {t : Tensor} {given : List (List InputSpec)} {specs : List InputSpec}
    (h : Batch.Given m T b name dtype location device m' new parts t)
    (hst : List.Forall₂ (fun r given => r.Stores given m.outlook) b.requests given)
    (hfirst : List.Forall₂ (LeadsWith name dtype) given specs) :
    b.requests.map Request.rows = specs.map (fun spec => spec.shape.headD 1) ∧
      t.shape.headD 0 = (specs.map fun spec => spec.shape.headD 1).sum ∧
      List.Forall₂ (fun k block => block.length = k * t.shape.rowSize)
        (specs.map fun spec => spec.shape.headD 1) (specs.map (·.values dtype)) ∧
      parts.flatMap (fun part => part.data.outlookBytes m.outlook) =
        dtype.encode (specs.map (·.values dtype)).flatten := by
  obtain ⟨shapes, hshapes, rows, row, hrows, hshape⟩ := combinedShape_eq_ok h.shape
  obtain ⟨rfl, hcounts, hlengths, hparts⟩ :=
    inputs_of_leadsWith hst hfirst (forall₂_of_mapM_ok h.found) hshapes
  have hheads : specs.map (fun spec => spec.shape.headD 1) = rows := by
    have hheads := congrArg (List.map (List.headD · 1)) hrows
    rw [List.map_map, List.map_map] at hheads
    exact hheads.trans (List.map_id _)
  have hblocks : List.Forall₂ (fun k (block : List dtype.Value) =>
      block.length = k * t.shape.rowSize) rows (specs.map (·.values dtype)) := by
    rw [show t.shape.rowSize = (Shape.product? row).getD 0 by rw [hshape]; rfl]
    exact length_values hrows hlengths
  refine ⟨hcounts, ?_, ?_, hparts⟩
  · rw [hheads, hshape]
    rfl
  · rw [hheads]
    exact hblocks

namespace Session

/-- If an output consists of blocks of rows, one for each request, then a request that wants it
reads its own block. -/
theorem Sound.delivers_block {s : Session} (hs : s.Sound) {b : Local.Batch}
    (hb : s.batch = some b) (hmax : b.held.outputs.maximum ≠ 0) {o : RecordedOutput}
    (ho : o ∈ b.outputs)
    (hidle : o.tensor.buffer.byteSize ≠ 0 → s.machine.Unwritten o.tensor.buffer.data.block)
    {blocks : List (List o.tensor.buffer.dtype.Value)}
    (hblocks : List.Forall₂ (fun k block => block.length = k * o.tensor.shape.rowSize)
      (b.requests.map Request.rows) blocks)
    (hheld : o.tensor.buffer.bytes s.machine = o.tensor.buffer.dtype.encode blocks.flatten)
    (hok : (s.perform (.batch .finalize)).1.isOk) {i : Nat} (hi : i < blocks.length)
    (hwant : (Scatter.wanted b.requests i o.name).isSome) :
    let s' := (s.perform (.batch .finalize)).2
    ∃ d, s'.delivered i o.name = some d ∧
      d.shape = (b.requests.map Request.rows).getD i 0 :: o.tensor.shape.tail ∧
      (s'.perform (.batch (.response i o.name o.tensor.buffer.dtype))).1 =
        .ok (.elements o.tensor.buffer.dtype blocks[i]) := by
  intro s'
  have hsettled := (hs.readable_output hb ho).bytes_of_unwritten hs.keeps hidle
  have hslice : Scatter.sliceOf b.held.outputs.maximum (b.requests.map Request.rows) o.tensor i =
      _ := sliceOf_of_ne hmax _ _ _
  obtain ⟨place, hwant⟩ := Option.isSome_iff_exists.mp hwant
  obtain ⟨d, hd, hgot⟩ := hs.delivers hb ho hok hwant
  have hbytes := hgot.bytes
  rw [Scatter.part, ← hsettled, ite_self, hheld, hslice, cut_encode hblocks hi] at hbytes
  refine ⟨d, hd, by rw [hgot.shape, hslice], ?_⟩
  have hs' : s'.Sound := (hs.leads (c := .batch .finalize) trivial).sound
  have hreads := hs'.reads_delivered hd hgot.limit
  rw [show d.data.outlookBytes s'.machine.outlook = _ from hbytes, hgot.dtype,
    ElementType.decode_encode] at hreads
  exact hreads

/-- What a request reads of an output that was filled row by row from an input is what comes of its
own rows. The input may be read at any time as long as the batch lasts, once its stream has been
waited for. -/
theorem batching_transparent {platform : Platform} {device : Nat} {before mid rest : List Command}
    {slot name : String} {dtype u : ElementType} {location : Location} {target : Nat} {t : Tensor}
    {seat : Seat} {b : Local.Batch} {o : RecordedOutput} {specs : List InputSpec}
    {f : List dtype.Value → List u.Value}
    (hcs : (start platform device).Permits
      (before ++ .batch (.getInput slot name dtype location target) :: (mid ++ rest)))
    (hok : (((start platform device).performAll before).2.perform
      (.batch (.getInput slot name dtype location target))).1 = .ok (.tensor t))
    (hmid : Seat.inProgress.after mid = some seat)
    (hrest : Seat.inProgress.after (mid ++ rest) = some .inProgress)
    (hfirst : List.Forall₂ (LeadsWith name dtype)
      (((start platform device).supplied before).take b.requests.length) specs) :
    let s₁ := ((start platform device).performAll
      (before ++ .batch (.getInput slot name dtype location target) :: mid)).2
    let s₂ := ((start platform device).performAll
      (before ++ .batch (.getInput slot name dtype location target) :: (mid ++ rest))).2
    let s₃ := (s₂.perform (.batch .finalize)).2
    s₂.batch = some b → b.held.outputs.maximum ≠ 0 → o ∈ b.outputs → o.tensor.buffer.dtype = u →
    (o.tensor.buffer.byteSize ≠ 0 → s₂.machine.Unwritten o.tensor.buffer.data.block) →
    (∀ row, row.length = t.shape.rowSize → (f row).length = o.tensor.shape.rowSize) →
    u.decode (o.tensor.buffer.bytes s₂.machine) = mapRows f t.shape.rowSize (t.shape.headD 0)
      (dtype.decode (t.buffer.bytes (s₁.machine.synchronize b.stream))) →
    (s₂.perform (.batch .finalize)).1.isOk →
    ∀ i spec, specs[i]? = some spec → (Scatter.wanted b.requests i o.name).isSome →
      ∃ d, s₃.delivered i o.name = some d ∧
        d.shape = spec.shape.headD 1 :: o.tensor.shape.tail ∧
        (s₃.perform (.batch (.response i o.name u))).1 = .ok (.elements u
          (mapRows f t.shape.rowSize (spec.shape.headD 1) (spec.values dtype))) := by
  intro s₁ s₂ s₃ hb hmax ho hu hidle hf hfilled hfinalize i spec hspec hwant
  subst hu
  obtain ⟨hbefore, hget, hafter⟩ := permits_append hcs
  have hfirstrun := (start_sound platform device).leads_performAll hbefore
  obtain ⟨b₀, m, new, parts, hb₀, hgiven, hlater⟩ := hfirstrun.sound.given_lasts hget hok
  obtain ⟨-, -, -, hbytes⟩ := hlater mid seat (permits_append hafter).1 hmid
  obtain ⟨b₂, hb₂, hcontinues, -⟩ := hlater (mid ++ rest) .inProgress hafter hrest
  have hs₁ : s₁ = _ := performAll_append (start platform device) before _
  have hs₂ : s₂ = _ := performAll_append (start platform device) before _
  have hsound : s₂.Sound := ((start_sound platform device).leads_performAll hcs).sound
  have hsame : s₂.batch = some b₂ := by rw [hs₂]; exact hb₂
  cases hsame.symm.trans hb
  rw [hcontinues.requests] at hfirst
  obtain ⟨hrows, htotal, hblocks, hparts⟩ := hgiven.rows
    (hfirstrun.requests.of_prefix rfl (hfirstrun.sound.batch b₀ hb₀).requests) hfirst
  rw [← hcontinues.requests] at hrows
  -- What the input reads is the values of the requests one behind the other,
  have hread : dtype.decode (t.buffer.bytes (s₁.machine.synchronize b.stream)) =
      (specs.map (·.values dtype)).flatten := by
    rw [hs₁, hcontinues.stream]
    exact (congrArg dtype.decode (hbytes.trans hparts)).trans (dtype.decode_encode _)
  -- so the output is what comes of the blocks, one behind the other,
  rw [hread, htotal, mapRows_flatten hblocks] at hfilled
  have hmapped : List.Forall₂ (fun k block => block.length = k * o.tensor.shape.rowSize)
      (b.requests.map Request.rows) (List.zipWith (mapRows f t.shape.rowSize)
        (specs.map fun spec => spec.shape.headD 1) (specs.map (·.values dtype))) := by
    rw [hrows]
    exact length_mapped hf hblocks
  have hheld := ElementType.encode_decode _
    ((hsound.readable_output hb ho).length_bytes hsound.keeps)
  rw [hfilled] at hheld
  -- and a request gets the block with its number.
  obtain ⟨hi, rfl⟩ := List.getElem?_eq_some_iff.mp hspec
  obtain ⟨d, hd, hshape, hreads⟩ := hsound.delivers_block hb hmax ho hidle hmapped hheld.symm
    hfinalize (i := i) (by simpa using hi) hwant
  refine ⟨d, hd, ?_, ?_⟩
  · rw [hshape, hrows, List.getD_eq_getElem?_getD, List.getElem?_map, List.getElem?_eq_getElem hi]
    rfl
  · rw [hreads, List.getElem_zipWith, List.getElem_map, List.getElem_map]

/-- Requests of two rows and of one, and a batch over them. -/
def shared : List Command := [
  .batch (.request 1 [⟨"x", .uint8, [2], [1, 2], .host, 0⟩] [⟨"y", .device, 1⟩] []),
  .batch (.request 2 [⟨"x", .uint8, [1], [3], .device, 1⟩] [⟨"y", .host, 0⟩] []),
  .batch (.create none {} ⟨3⟩)]

/-- Twice the rows of the input become an output. -/
def doubling : List Command := [
  .batch (.getOutput "y" .uint16 [3] .device 0),
  .buffer (.ofList "doubled" .uint16 [2, 4, 6] .device 0 ⟨3⟩),
  .buffer (.copy (.output "y") (.slot "doubled") 0 none),
  .platform (.synchronize ⟨3⟩)]

theorem permits_doubling : (start (.simulated ⟨2, 256, true⟩) 0).Permits
    (shared ++ .batch (.getInput "in" "x" .uint8 .device 0) :: ([] ++ doubling)) := by
  refine ⟨trivial, trivial, rfl, List.not_mem_nil, trivial, ⟨?_, trivial⟩,
    permitted_copy nofun (by decide +kernel), trivial, trivial⟩
  show "doubled" ∉ _
  decide +kernel

/-- Each request reads twice its own rows. -/
theorem doubling_transparent :
    let s := ((start (.simulated ⟨2, 256, true⟩) 0).performAll
      (shared ++ .batch (.getInput "in" "x" .uint8 .device 0) :: ([] ++ doubling))).2
    let s' := (s.perform (.batch .finalize)).2
    (start (.simulated ⟨2, 256, true⟩) 0).Permits
        (shared ++ .batch (.getInput "in" "x" .uint8 .device 0) :: ([] ++ doubling)) ∧
      (s.perform (.batch .finalize)).1.isOk ∧
      (s'.perform (.batch (.response 0 "y" .uint16))).1 = .ok (.elements .uint16 [2, 4]) ∧
      (s'.perform (.batch (.response 1 "y" .uint16))).1 = .ok (.elements .uint16 [6]) := by
  intro s s'
  have hinput : ((((start (.simulated ⟨2, 256, true⟩) 0).performAll shared).2.perform
      (.batch (.getInput "in" "x" .uint8 .device 0))).1.toOption.any fun
      | .tensor t => decide (t.shape = [3] ∧ t.buffer.bytes
          (((start (.simulated ⟨2, 256, true⟩) 0).performAll (shared ++ .batch (.getInput "in" "x"
            .uint8 .device 0) :: [])).2.machine.synchronize ⟨3⟩) = [1, 2, 3])
      | _ => false) = true := by
    decide +kernel
  have houtput : (((start (.simulated ⟨2, 256, true⟩) 0).performAll (shared ++
      .batch (.getInput "in" "x" .uint8 .device 0) :: ([] ++ doubling))).2.batch.any fun b =>
      decide (b.requests.length = 2 ∧ b.stream = ⟨3⟩ ∧ b.held.outputs.maximum ≠ 0) &&
      b.outputs.any fun o => decide (o.name = "y" ∧ o.tensor.buffer.dtype = .uint16 ∧
        o.tensor.shape = [3] ∧ (Scatter.wanted b.requests 0 "y").isSome ∧
        (Scatter.wanted b.requests 1 "y").isSome ∧ o.tensor.buffer.bytes
          ((start (.simulated ⟨2, 256, true⟩) 0).performAll (shared ++ .batch (.getInput "in" "x"
            .uint8 .device 0) :: ([] ++ doubling))).2.machine = [2, 0, 4, 0, 6, 0])) = true := by
    decide +kernel
  have hqueues : ((start (.simulated ⟨2, 256, true⟩) 0).performAll (shared ++
      .batch (.getInput "in" "x" .uint8 .device 0) :: ([] ++ doubling))).2.machine.queues = [] := by
    decide +kernel
  have hfinalize : (((start (.simulated ⟨2, 256, true⟩) 0).performAll (shared ++ .batch (.getInput
      "in" "x" .uint8 .device 0) :: ([] ++ doubling))).2.perform (.batch .finalize)).1.isOk := by
    decide +kernel
  cases hrun : (((start (.simulated ⟨2, 256, true⟩) 0).performAll shared).2.perform
      (.batch (.getInput "in" "x" .uint8 .device 0))).1 with
  | error e =>
    rw [hrun] at hinput
    cases hinput
  | ok reply =>
    rw [hrun] at hinput
    cases reply with
    | tensor t =>
      obtain ⟨hshape, hbytes⟩ := of_decide_eq_true hinput
      obtain ⟨b, hb, h⟩ := Option.any_eq_true _ _ |>.mp houtput
      rw [Bool.and_eq_true, decide_eq_true_iff] at h
      obtain ⟨⟨hcount, hstream, hmax⟩, h⟩ := h
      obtain ⟨o, ho, h⟩ := List.any_eq_true.mp h
      obtain ⟨hname, hdtype, hout, hfirst, hsecond, hheld⟩ := of_decide_eq_true h
      have hleads : List.Forall₂ (LeadsWith "x" .uint8)
          (((start (.simulated ⟨2, 256, true⟩) 0).supplied shared).take b.requests.length)
          [⟨"x", .uint8, [2], [1, 2], .host, 0⟩, ⟨"x", .uint8, [1], [3], .device, 1⟩] := by
        rw [hcount]
        exact .cons ⟨rfl, rfl, rfl⟩ (.cons ⟨rfl, rfl, rfl⟩ .nil)
      have hall := batching_transparent (u := .uint16)
        (f := fun row => row.map fun v => ElementType.ofInt .uint16 (2 * v.toNat))
        permits_doubling hrun rfl rfl hleads hb hmax ho hdtype
        (fun _ _ _ ⟨q, hq, _⟩ => absurd (hqueues ▸ hq) List.not_mem_nil)
        (fun row hrow => by rw [List.length_map, hrow, hshape, hout])
        (by rw [hheld, hshape, hstream, hbytes]; rfl) hfinalize
      obtain ⟨-, -, -, hzero⟩ := hall 0 _ rfl (by rw [hname]; exact hfirst)
      obtain ⟨-, -, -, hone⟩ := hall 1 _ rfl (by rw [hname]; exact hsecond)
      rw [hname, hshape] at hzero hone
      exact ⟨permits_doubling, hfinalize, hzero, hone⟩
    | _ => cases hinput

end Session

end DeviceBatch
