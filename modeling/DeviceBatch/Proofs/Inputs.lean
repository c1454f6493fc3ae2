import DeviceBatch.Proofs.Addresses

/-!
# Gathered inputs

The tensor that a batch gives out for an input holds the bytes that its requests were given, one
request behind the other. It lies in storage that no command writes, so it holds these bytes as long
as the batch lasts, be it in progress or set aside (`Session.input_holds`).

A move or the adoption of a buffer by a tensor that fails while a copy waits for what it drops is
not among the commands that are permitted here. After it a copy can meet an input that was put where
the dropped storage was, and overwrite it (`Session.failedMove_overwrites`).
-/

namespace DeviceBatch

open Local

/-- The first input of a name among those that a request was given. -/
def firstInput (name : String) (specs : List InputSpec) : Option InputSpec :=
  specs.find? fun spec => spec.name == name

/-- The inputs that a request stores now are those that it was given. -/
def Local.Request.Holds (r : Request) (specs : List InputSpec) (m : Machine) : Prop :=
  List.Forall₂ (fun i spec => i.name = spec.name ∧ i.shape = spec.shape ∧
    spec.shape.product? = some spec.elements.length ∧ i.data.bytes m = spec.bytes) r.inputs specs

namespace Session

variable {s s' : Session} {new : List (List InputSpec)} {moves : Seat → Option Seat}
  {seat seat' : Seat} {b : Local.Batch}

/-! ## Runs in parts -/

theorem performAll_append (s : Session) (cs ds : List Command) :
    (s.performAll (cs ++ ds)).2 = ((s.performAll cs).2.performAll ds).2 := by
  induction cs generalizing s with
  | nil => rfl
  | cons c cs ih => exact ih (s.perform c).2

theorem permits_append {cs ds : List Command} (h : s.Permits (cs ++ ds)) :
    s.Permits cs ∧ (s.performAll cs).2.Permits ds := by
  induction cs generalizing s with
  | nil => exact ⟨trivial, h⟩
  | cons c cs ih =>
    obtain ⟨hcs, hds⟩ := ih h.2
    exact ⟨⟨h.1, hcs⟩, hds⟩

/-! ## What a batch sees -/

theorem Sound.batch_at (hs : s.Sound) (hb : s.batchAt seat = some b) : b.Sound s.requests := by
  cases seat with
  | inProgress => exact hs.batch b hb
  | aside label =>
    obtain ⟨rest, hrest, rfl⟩ := Option.map_eq_some_iff.mp hb
    exact (hs.aside _ (Named.mem_of_lookup hrest)).batch

/-- The bytes that a batch can see stay as long as it lasts. -/
theorem Leads.preserves_seen (h : s.Leads moves new s') (hs : s.Sound)
    (hb : s.batchAt seat = some b) (hseat : moves seat = some seat') :
    ∀ t ∈ b.seen, s.Preserves s' t := by
  intro t ht
  rcases List.mem_append.mp ht with ht | ht
  · obtain ⟨r, hr, ht⟩ := List.mem_flatMap.mp ht
    exact h.stored t (mem_holdings_of_requests ((hs.batch_at hb).requests.subset hr) ht)
      (use_of_mem_request ht)
  · obtain ⟨-, -, -, hkept⟩ := h.batch seat seat' b hseat hb
    exact hkept t ht

/-- A view of these bytes shows the same as long as the batch lasts. -/
theorem Leads.shows_view (h : s.Leads moves new s') (hs : s.Sound) (hb : s.batchAt seat = some b)
    (hseat : moves seat = some seat') {view : Buffer} (hview : view.Views b.stream b.seen) :
    view.bytes (s'.machine.synchronize b.stream) = view.outlookBytes s.machine.outlook := by
  have hseen := h.preserves_seen hs hb hseat
  have hreadable : view.Readable s'.holdings := by
    intro hn
    obtain ⟨t, ht, -, hspan, hloc, hgive⟩ := hview.lies hn
    exact ⟨t, (hseen t ht).1, hspan, hloc, hgive⟩
  rw [← hview.stream, hreadable.bytes_synchronize h.sound.keeps]
  refine Memory.read_congr_of_ne_zero fun hn => ?_
  obtain ⟨t, ht, -, hspan, -⟩ := hview.lies hn
  exact hspan.1 ▸ (hseen t ht).2

/-! ## What requests store -/

/-- Stored inputs are there at once: no copy writes them. -/
theorem Sound.bytes_stored (hs : s.Sound) {r : Request} (hr : r ∈ s.requests) {i : StoredInput}
    (hi : i ∈ r.inputs) : i.data.bytes s.machine = i.data.outlookBytes s.machine.outlook := by
  obtain ⟨hproper, -⟩ := hs.requests r hr i hi
  have hheld : i.data.holdings .stored ⊆ s.holdings := fun t ht =>
    mem_holdings_of_requests hr (List.mem_flatMap.mpr ⟨i, hi, ht⟩)
  have hreadable : i.data.Readable s.holdings := by
    intro hn
    obtain ⟨t, ht, huse, hloc, hspan, -⟩ := hproper.holding hheld hn
    exact ⟨t, ht, hspan, hloc, by rw [huse]; trivial⟩
  refine hreadable.bytes_of_unwritten hs.keeps fun hn => ?_
  obtain ⟨t, ht, huse, -, -, hdata⟩ := hproper.holding hheld hn
  rw [hdata]
  exact Machine.Orderly.unwritten_of_stored hs.keeps (Machine.Keeps.mem ht) huse

/-- All requests hold what they were given. -/
theorem Leads.holds (h : s.Leads moves new s') (hnone : s.requests = []) :
    List.Forall₂ (fun r specs => r.Holds specs s'.machine) s'.requests new := by
  obtain ⟨rs, hrs, hall⟩ := h.requests
  rw [hnone, List.nil_append] at hrs
  subst hrs
  refine forall₂_imp_of_mem hall fun r hr specs _ hst => ?_
  refine forall₂_imp_of_mem hst fun i hi spec _ ⟨hname, hshape, hcount, hbytes⟩ => ?_
  exact ⟨hname, hshape, hcount, (h.sound.bytes_stored hr hi).trans hbytes⟩

/-- The first stored input of a name is the first that was given. -/
theorem find?_of_stores {r : Request} {specs : List InputSpec} {o : Outlook}
    (h : r.Stores specs o) {name : String} {i : StoredInput} (hi : r.input name = .ok i) :
    ∃ spec, firstInput name specs = some spec ∧ i.shape = spec.shape ∧
      i.data.outlookBytes o = spec.bytes := by
  have hfind : r.inputs.find? (fun i => i.name == name) = some i := by
    unfold Request.input at hi
    split at hi
    · next hfind =>
      cases hi
      exact hfind
    · cases hi
  unfold Request.Stores at h
  unfold firstInput
  clear hi
  generalize r.inputs = is at h hfind
  induction h with
  | nil => cases hfind
  | @cons j spec is specs hj _ ih =>
    obtain ⟨hname, hshape, -, hbytes⟩ := hj
    rw [List.find?_cons] at hfind ⊢
    rw [← hname]
    cases heq : j.name == name with
    | true =>
      rw [heq] at hfind
      cases hfind
      exact ⟨spec, rfl, hshape, hbytes⟩
    | false =>
      rw [heq] at hfind
      exact ih hfind

/-- Requests that all have an input of a name were all given one. -/
theorem mapM_firstInput {o : Outlook} {rs : List Request} {given : List (List InputSpec)}
    (h : List.Forall₂ (fun r specs => r.Stores specs o) rs given) {name : String}
    {parts : List StoredInput} (hp : rs.mapM (fun r => r.input name) = .ok parts) :
    ∃ specs, given.mapM (firstInput name) = some specs ∧
      List.Forall₂ (fun part spec => part.shape = spec.shape ∧
        part.data.outlookBytes o = spec.bytes) parts specs := by
  have hall := forall₂_of_mapM_ok hp
  clear hp
  induction h generalizing parts with
  | nil =>
    cases hall
    exact ⟨[], rfl, .nil⟩
  | cons hst _ ih =>
    cases hall with
    | cons hi hrest =>
      obtain ⟨spec, hspec, hpart⟩ := find?_of_stores hst hi
      obtain ⟨specs, hspecs, hparts⟩ := ih hrest
      refine ⟨spec :: specs, ?_, .cons hpart hparts⟩
      rw [List.mapM_cons, hspec, hspecs]
      rfl

theorem flatMap_of_forall₂ {α β γ : Type} {f : α → List γ} {g : β → List γ} {as : List α}
    {bs : List β} (h : List.Forall₂ (fun a b => f a = g b) as bs) :
    as.flatMap f = bs.flatMap g := by
  induction h with
  | nil => rfl
  | cons hab _ ih => rw [List.flatMap_cons, List.flatMap_cons, hab, ih]

/-- Of what was given to requests, that which the requests of a batch were given. -/
theorem Supplies.of_prefix (h : s.Supplies new s') (hnone : s.requests = []) {rs : List Request}
    (hrs : rs <+: s'.requests) :
    List.Forall₂ (fun r specs => r.Stores specs s'.machine.outlook) rs (new.take rs.length) := by
  obtain ⟨all, hall, hstores⟩ := h
  rw [hnone, List.nil_append] at hall
  rw [hall] at hrs
  rw [List.prefix_iff_eq_take.mp hrs]
  have htake := List.forall₂_take rs.length hstores
  rwa [List.length_take, Nat.min_eq_left hrs.length_le]

/-! ## Inputs -/

/-- An input that a batch gave out shows the same bytes as long as the batch lasts. -/
theorem Sound.given_lasts (hs : s.Sound) {slot name : String} {dtype : ElementType}
    {location : Location} {target : Nat} {t : Tensor}
    (hget : Command.Permitted s (.batch (.getInput slot name dtype location target)))
    (hok : (s.perform (.batch (.getInput slot name dtype location target))).1 = .ok (.tensor t)) :
    let s₁ := (s.perform (.batch (.getInput slot name dtype location target))).2
    ∃ b m new parts, s.batch = some b ∧
      Batch.Given s.machine s.holdings b name dtype location target m new parts t ∧
      ∀ after seat, s₁.Permits after → Seat.inProgress.after after = some seat →
        ∃ b', (s₁.performAll after).2.batchAt seat = some b' ∧ b.Continues b' ∧
          t.buffer.bytes ((s₁.performAll after).2.machine.synchronize b.stream) =
            parts.flatMap fun part => part.data.outlookBytes s.machine.outlook := by
  intro s₁
  rcases hs.retains_getInput hget name dtype location target with
    ⟨e, s', -, hrun, -⟩ | ⟨b, t', m, new, parts, hb, hrun, hgiven, hretains⟩
  · rw [hrun] at hok
    cases hok
  · have hs₁ : s₁ = _ := congrArg Prod.snd hrun
    rw [hrun] at hok
    cases hok
    refine ⟨b, m, new, parts, hb, hgiven, fun after seat hafter hlasts => ?_⟩
    rw [hs₁] at hafter ⊢
    have hlast := hretains.sound.leads_performAll hafter
    obtain ⟨b', hb', hcontinues, -⟩ := hlast.batch .inProgress seat _ hlasts rfl
    have hstaged : b.Continues (b.withStaging new) := ⟨rfl, rfl, rfl, List.prefix_append _ _⟩
    refine ⟨b', hb', hstaged.trans hcontinues, ?_⟩
    rw [← hgiven.bytes]
    exact hlast.shows_view (b := b.withStaging new) hretains.sound rfl hlasts hgiven.views

/-- An input that a batch gave out has the shape of all its requests together and lies where it was
asked for, on the stream of the batch. As long as the batch lasts, once its stream has been waited
for, the input holds the bytes that the requests were given, one request behind the other; and what
the requests were given they hold at any time. Wherever blocks lie, what waits is for the storage it
was issued for.

No command that is permitted is a move or a tensor adoption that fails and drops host storage while
a waiting copy touches it. -/
theorem input_holds {platform : Platform} {device : Nat} {before after : List Command}
    {slot name : String} {dtype : ElementType} {location : Location} {target : Nat} {t : Tensor}
    (hcs : (start platform device).Permits
      (before ++ .batch (.getInput slot name dtype location target) :: after))
    (hok : (((start platform device).performAll before).2.perform
      (.batch (.getInput slot name dtype location target))).1 = .ok (.tensor t))
    (hlasts : Seat.inProgress.after after = some seat) :
    let cs := before ++ .batch (.getInput slot name dtype location target) :: after
    let s := ((start platform device).performAll before).2
    let s' := ((start platform device).performAll cs).2
    ∃ b b' parts specs, s.batch = some b ∧ s'.batchAt seat = some b' ∧ b.Continues b' ∧
      b.requests.mapM (fun r => r.input name) = .ok parts ∧
      (((start platform device).supplied before).take b.requests.length).mapM (firstInput name) =
        some specs ∧
      b.combinedShape Local.exchange name = .ok t.shape ∧ t.buffer.dtype = dtype ∧
      t.buffer.location = location ∧ (location = .device → t.buffer.device = target) ∧
      t.buffer.stream = b.stream ∧
      t.buffer.byteSize = (parts.map fun part => part.data.byteSize).sum ∧
      t.buffer.bytes (s'.machine.synchronize b.stream) = specs.flatMap InputSpec.bytes ∧
      List.Forall₂ (fun r given => r.Holds given s'.machine) s'.requests
        ((start platform device).supplied cs) ∧
      ∀ address, s'.machine.memory.Placed address → s'.machine.readdressed address = s'.machine := by
  intro cs s s'
  obtain ⟨hbefore, hget, hafter⟩ := permits_append hcs
  have hstart : (start platform device).Sound := start_sound platform device
  have hfirst := hstart.leads_performAll hbefore
  have hs : s.Sound := hfirst.sound
  obtain ⟨b, m, new, parts, hb, hgiven, hlater⟩ := hs.given_lasts hget hok
  obtain ⟨b', hb', hcontinues, hbytes⟩ := hlater after seat hafter hlasts
  have hs' : s' = ((s.perform (.batch (.getInput slot name dtype location target))).2.performAll
    after).2 := performAll_append (start platform device) before _
  obtain ⟨specs, hspecs, hparts⟩ := mapM_firstInput
    (hfirst.requests.of_prefix rfl (hs.batch b hb).requests) hgiven.found
  refine ⟨b, b', parts, specs, hb, by rw [hs']; exact hb', hcontinues, hgiven.found, hspecs,
    hgiven.shape, hgiven.dtype, hgiven.placed.1, hgiven.placed.2, hgiven.views.stream, hgiven.size,
    ?_, (hstart.leads_performAll hcs).holds rfl,
    fun _ => (Reachable.start.performAll hcs).readdressed_eq⟩
  rw [← flatMap_of_forall₂ (hparts.imp fun _ _ h => h.2), hs']
  exact hbytes

/-- Two requests, one of which stores its input on a device, and a batch over them. -/
def crossing : List Command := [
  .batch (.request 1 [⟨"x", .uint16, [1, 2], [1, 2], .host, 0⟩] [] []),
  .batch (.request 2 [⟨"x", .uint16, [1, 2], [3, 4], .device, 1⟩] [] []),
  .batch (.create none {} ⟨3⟩)]

/-- Another batch over the same requests, on another stream, while the first one is set aside. -/
def meanwhile : List Command := [
  .batch (.setAside "first"),
  .batch (.create none {} ⟨4⟩),
  .batch (.getInput "other" "x" .uint16 .host 0),
  .batch .finalize,
  .batch (.setAside "second"),
  .batch (.resume "first")]

theorem free_of_slots_nil {slot : String} (h : s.slots.map Prod.fst = []) : s.Free slot := by
  unfold Free
  rw [h]
  exact List.not_mem_nil

theorem permits_crossing : (start (.simulated ⟨2, 256, true⟩) 0).Permits
    (crossing ++ .batch (.getInput "in" "x" .uint16 .device 1) :: meanwhile) := by
  refine ⟨trivial, trivial, rfl, List.not_mem_nil, List.not_mem_nil, rfl, List.not_mem_nil,
    trivial, ?_, ⟨rfl, fun _ _ p _ => ?_⟩, trivial⟩
  · show "second" ∉ _
    decide +kernel
  · exact free_of_slots_nil (by decide +kernel)

/-- The input of the first batch holds the bytes of both requests after all that. -/
theorem crossing_holds :
    let s := ((start (.simulated ⟨2, 256, true⟩) 0).performAll crossing).2
    let s' := ((start (.simulated ⟨2, 256, true⟩) 0).performAll
      (crossing ++ .batch (.getInput "in" "x" .uint16 .device 1) :: meanwhile)).2
    (start (.simulated ⟨2, 256, true⟩) 0).Permits
        (crossing ++ .batch (.getInput "in" "x" .uint16 .device 1) :: meanwhile) ∧
      Seat.inProgress.after meanwhile = some .inProgress ∧
      ∃ t, (s.perform (.batch (.getInput "in" "x" .uint16 .device 1))).1 = .ok (.tensor t) ∧
        t.shape = [2, 2] ∧ t.buffer.location = .device ∧ t.buffer.device = 1 ∧
        t.buffer.bytes (s'.machine.synchronize ⟨3⟩) = [1, 0, 2, 0, 3, 0, 4, 0] := by
  intro s s'
  have hlasts : Seat.inProgress.after meanwhile = some .inProgress := rfl
  have hfacts : s.batch.map (fun b => (b.requests.length, b.stream,
      (b.combinedShape Local.exchange "x").toOption)) = some (2, ⟨3⟩, some [2, 2]) := by
    decide +kernel
  have hgiven : (((start (.simulated ⟨2, 256, true⟩) 0).supplied crossing).take 2).mapM
      (firstInput "x") = some [⟨"x", .uint16, [1, 2], [1, 2], .host, 0⟩,
        ⟨"x", .uint16, [1, 2], [3, 4], .device, 1⟩] := by
    decide +kernel
  have hreply : ((s.perform (.batch (.getInput "in" "x" .uint16 .device 1))).1.toOption.any fun
      | .tensor _ => true
      | _ => false) = true := by
    decide +kernel
  cases hrun : (s.perform (.batch (.getInput "in" "x" .uint16 .device 1))).1 with
  | error e =>
    rw [hrun] at hreply
    cases hreply
  | ok reply =>
    rw [hrun] at hreply
    cases reply with
    | tensor t =>
      obtain ⟨b, b', parts, specs, hb, -, -, -, hspecs, hshape, -, hlocation, hdevice, -, -, hbytes,
        -⟩ := input_holds permits_crossing hrun hlasts
      rw [show s.batch = some b from hb] at hfacts
      obtain ⟨hcount, hstream, hcombined⟩ : b.requests.length = 2 ∧ b.stream = ⟨3⟩ ∧
          (b.combinedShape Local.exchange "x").toOption = some [2, 2] := by
        simpa using hfacts
      rw [hcount, hgiven] at hspecs
      cases hspecs
      rw [hshape] at hcombined
      rw [hstream] at hbytes
      exact ⟨permits_crossing, hlasts, t, rfl, Option.some.inj hcombined, hlocation, hdevice rfl,
        hbytes⟩
    | _ => cases hreply

/-- A copy into a host buffer waits, a move of the buffer fails, and a batch gives out the input
that its only request stores on the host. -/
def intruded : List Command := [
  .buffer (.ofList "far" .uint8 [9] .device 0 ⟨5⟩),
  .platform (.synchronize ⟨5⟩),
  .buffer (.allocate "near" .uint8 1 .host 0 ⟨5⟩),
  .buffer (.copy (.slot "near") (.slot "far") 0 none),
  .buffer (.moveTo "moved" "near" .device),
  .batch (.request 1 [⟨"x", .uint8, [1], [7], .host, 0⟩] [] []),
  .batch (.create none {} ⟨3⟩),
  .batch (.getInput "in" "x" .uint8 .host 0)]

/-- The stored input may lie where the buffer was that the move dropped. Then the input is right
once the stream of the batch was waited for, and overwritten once the stream of the copy was. -/
theorem failedMove_overwrites :
    let start := Session.start (.simulated ⟨1, 1, true⟩) 0
    let address := Memory.reusing 3 4
    let s := (start.performAll intruded).2
    let m := s.machine.readdressed address
    start.CallerPermits address intruded ∧ ∃ t, s.held "in" = .ok (.input t) ∧
      t.buffer.bytes (m.synchronize ⟨3⟩) = [7] ∧ t.buffer.bytes (m.synchronize ⟨5⟩) = [9] := by
  intro start address s m
  have hpermits : start.CallerPermits address intruded :=
    ⟨by decide +kernel, ⟨show Free _ "far" by decide +kernel, trivial⟩,
      by decide +kernel, trivial,
      by decide +kernel, ⟨show Free _ "near" by decide +kernel, trivial⟩,
      by decide +kernel, permitted_copy (by decide) (by decide +kernel),
      by decide +kernel, callerPermitted_moveTo (by decide +kernel) (by decide +kernel),
      by decide +kernel, trivial,
      by decide +kernel,
      show Session.batch _ = none from Option.isNone_iff_eq_none.mp (by decide +kernel),
      by decide +kernel, show Free _ "in" by decide +kernel,
      show Memory.Placed address _ by decide +kernel⟩
  have hfound : ((s.held "in").toOption.any fun r => r.isInput &&
      (r.data.bytes (m.synchronize ⟨3⟩) == [7] && r.data.bytes (m.synchronize ⟨5⟩) == [9])) = true := by
    decide +kernel
  cases hin : s.held "in" with
  | error e =>
    rw [hin] at hfound
    cases hfound
  | ok r =>
    rw [hin] at hfound
    obtain ⟨hinput, hboth⟩ := Bool.and_eq_true_iff.mp hfound
    obtain ⟨hbefore, hafter⟩ := Bool.and_eq_true_iff.mp hboth
    cases r with
    | input t => exact ⟨hpermits, t, rfl, eq_of_beq hbefore, eq_of_beq hafter⟩
    | buffer b => cases hinput
    | tensor t => cases hinput

end Session

end DeviceBatch
