import DeviceBatch.Proofs.Refusals
import DeviceBatch.Proofs.Sites

/-!
# Requests and what they store

A request that could be made holds the bytes of every input that it was given
(`Local.Request.Stores`), in storage that no copy will ever write. One that could not be made leaves
nothing behind (`BatchCommand.storeInputs_cases`).
-/

namespace DeviceBatch

theorem forall₂_imp_of_mem {α β : Type} {R S : α → β → Prop} {as : List α} {bs : List β}
    (h : List.Forall₂ R as bs) (hi : ∀ a ∈ as, ∀ b ∈ bs, R a b → S a b) : List.Forall₂ S as bs := by
  induction h with
  | nil => exact .nil
  | cons hab _ ih =>
    exact .cons (hi _ List.mem_cons_self _ List.mem_cons_self hab)
      (ih fun a ha b hb => hi a (List.mem_cons_of_mem _ ha) b (List.mem_cons_of_mem _ hb))

/-! ## Storage left alone -/

namespace Machine

variable {m m' m'' : Machine} {T T' T'' U : List Holding} {es : List Effect} {p : Prop}

/-- From one machine to another, with all storage of the first one left alone. While `T` was held
before, `T'` is held now. -/
structure Extends (m : Machine) (T : List Holding) (m' : Machine) (T' : List Holding) : Prop where
  keeps : m'.Keeps T'
  platform : m'.platform = m.platform
  next : m.memory.next ≤ m'.memory.next
  /-- Storage that only the library writes stays, and with it what it will hold. -/
  fixed : ∀ t ∈ T, t.use.IsFixed →
    t ∈ T' ∧ m'.outlook.memory.block? t.block = m.outlook.memory.block? t.block
  pending : ∀ s c, m'.Pending s c → m.Pending s c ∨ m.memory.next ≤ c.dst.block
  strays : m'.strays = m.strays

theorem Progress.extends (h : m.Progress T es p m' T') (hk : m.Keeps T)
    (hes : Effect.KeepsBelow m.memory.next es) : m.Extends T m' T' where
  keeps := h.keeps
  platform := h.platform
  next := h.next
  fixed t ht hf := h.fixed t ht hf fun e he => hes e he t.block (hk.block_lt (Keeps.mem ht))
  pending s c hc := by
    rcases h.pending s c hc with hc | hc
    · exact .inl hc
    · refine .inr (Nat.le_of_not_lt fun hlt => hes _ hc c.dst.block hlt rfl)
  strays := h.strays

namespace Extends

theorem refl (h : m.Keeps T) : m.Extends T m T where
  keeps := h
  platform := rfl
  next := Nat.le_refl _
  fixed _ ht _ := ⟨ht, rfl⟩
  pending _ _ hc := .inl hc
  strays := rfl

theorem trans (h : m.Extends T m' T') (h' : m'.Extends T' m'' T'') : m.Extends T m'' T'' where
  keeps := h'.keeps
  platform := h'.platform.trans h.platform
  next := Nat.le_trans h.next h'.next
  fixed t ht hf := by
    obtain ⟨ht', heq⟩ := h.fixed t ht hf
    obtain ⟨ht'', heq'⟩ := h'.fixed t ht' hf
    exact ⟨ht'', heq'.trans heq⟩
  pending s c hc := by
    rcases h'.pending s c hc with hc | hc
    · exact h.pending s c hc
    · exact .inr (Nat.le_trans h.next hc)
  strays := h'.strays.trans h.strays

theorem perm (h : m.Extends T m' T') (hp : T'.Perm U) : m.Extends T m' U :=
  { h with
    keeps := h.keeps.perm hp
    fixed := fun t ht hf => (h.fixed t ht hf).imp_left hp.mem_iff.mp }

theorem emit (h : m.Extends T m' T') (e : Event) : m.Extends T (m'.emit e) T' :=
  ⟨h.keeps.emit e, h.platform, h.next, h.fixed, h.pending, h.strays⟩

theorem withMetrics (h : m.Extends T m' T') (metrics : Metrics) :
    m.Extends T { m' with metrics } T' :=
  ⟨Orderly.congr h.keeps rfl rfl rfl rfl rfl rfl rfl rfl, h.platform, h.next, h.fixed, h.pending,
    h.strays⟩

/-- More can be done to storage that was not there at first. -/
theorem progress (h : m.Extends T m' T') (hk : m.Keeps T) (hp : m'.Progress T' es p m'' T'')
    (hes : Effect.KeepsBelow m.memory.next es) : m.Extends T m'' T'' where
  keeps := hp.keeps
  platform := hp.platform.trans h.platform
  next := Nat.le_trans h.next hp.next
  fixed t ht hf := by
    obtain ⟨ht', heq⟩ := h.fixed t ht hf
    have hlt := hk.block_lt (Keeps.mem ht)
    obtain ⟨ht'', heq'⟩ := hp.fixed t ht' hf fun e he => hes e he t.block hlt
    exact ⟨ht'', heq'.trans heq⟩
  pending s c hc := by
    rcases hp.pending s c hc with hc | hc
    · exact h.pending s c hc
    · exact .inr (Nat.le_of_not_lt fun hlt => hes _ hc c.dst.block hlt rfl)
  strays := hp.strays.trans h.strays

end Extends

/-- The same, and nothing but new blocks is written at all, now or later. -/
structure Adds (m : Machine) (T : List Holding) (m' : Machine) (T' : List Holding) : Prop
    extends m.Extends T m' T' where
  outlook : ∀ b < m.memory.next, m'.outlook.memory.block? b = m.outlook.memory.block? b
  memory : ∀ b < m.memory.next, m'.memory.block? b = m.memory.block? b

namespace Adds

theorem refl (h : m.Keeps T) : m.Adds T m T := ⟨.refl h, fun _ _ => rfl, fun _ _ => rfl⟩

theorem trans (h : m.Adds T m' T') (h' : m'.Adds T' m'' T'') : m.Adds T m'' T'' where
  toExtends := h.toExtends.trans h'.toExtends
  outlook b hb := (h'.outlook b (Nat.lt_of_lt_of_le hb h.next)).trans (h.outlook b hb)
  memory b hb := (h'.memory b (Nat.lt_of_lt_of_le hb h.next)).trans (h.memory b hb)

theorem perm (h : m.Adds T m' T') (hp : T'.Perm U) : m.Adds T m' U :=
  ⟨h.toExtends.perm hp, h.outlook, h.memory⟩

theorem emit (h : m.Adds T m' T') (e : Event) : m.Adds T (m'.emit e) T' :=
  ⟨h.toExtends.emit e, h.outlook, h.memory⟩

end Adds

end Machine

/-! ## Storing one input -/

/-- The bytes that an input is given as. -/
def InputSpec.bytes (i : InputSpec) : List UInt8 :=
  i.dtype.encode (i.elements.map i.dtype.ofInt)

namespace Local.Request

variable {m m' : Machine} {T : List Holding} {r : Request} {n : Nat}

theorem holdings_eq (r : Request) :
    r.holdings = (r.inputs.map StoredInput.data).flatMap fun b => b.holdings .stored := by
  rw [List.flatMap_map]
  rfl

theorem holdings_addInput (r : Request) (i : StoredInput) :
    ({ r with inputs := r.inputs ++ [i] } : Request).holdings.Perm
      (i.data.holdings .stored ++ r.holdings) := by
  unfold holdings
  rw [List.flatMap_append, List.flatMap_cons, List.flatMap_nil, List.append_nil]
  exact List.perm_append_comm

/-- A request is given up, if no waiting copy touches what it stores on the host. -/
theorem release_progress (h : m.Keeps (r.holdings ++ T))
    (hu : ∀ t ∈ r.holdings, t.location = .host → m.Untouched t.block) :
    m.Progress (r.holdings ++ T) (Effect.frees r.holdings) True (r.release m) T := by
  unfold release
  rw [holdings_eq] at h hu ⊢
  have hp := Buffer.releaseAll_progress (fun _ => .stored) (r.inputs.map StoredInput.data) h hu
  rw [List.foldl_map] at hp
  exact hp

/-- One more input is stored, or the request is given up. What was there before stays as it was but
for the request, whose blocks have numbers from `n` on. -/
theorem addInput_cases (h : m.Keeps (r.holdings ++ T)) (hu : ∀ t ∈ r.holdings, m.Untouched t.block)
    (hr : ∀ t ∈ r.holdings, n ≤ t.block) (hn : n ≤ m.memory.next) (name : String)
    (dtype : ElementType) (shape : Shape) (xs : List dtype.Value) (location : Location)
    (device : Nat) :
    (∃ e m' es, ¬ e.RefusesCopy ∧ r.addInput name dtype shape xs location device m = .error e m' ∧
      m.Progress (r.holdings ++ T) es True m' T ∧ Effect.KeepsBelow n es) ∨
    ∃ data m', r.addInput name dtype shape xs location device m =
        .ok { r with inputs := r.inputs ++ [⟨name, shape, data⟩] } m' ∧
      shape.product? = some xs.length ∧ data.Proper ∧ data.dtype = .uint8 ∧
      data.outlookBytes m'.outlook = dtype.encode xs ∧ data.size = (dtype.encode xs).length ∧
      m.Extends (r.holdings ++ T) m' (data.holdings .stored ++ (r.holdings ++ T)) ∧
      (∀ t ∈ data.holdings .stored, m'.Untouched t.block ∧ m.memory.next ≤ t.block) ∧
      ∀ t ∈ r.holdings, m'.Untouched t.block := by
  have hfrees : Effect.KeepsBelow n (Effect.frees r.holdings) :=
    (Effect.sparesBelow_frees hr).keepsBelow
  by_cases hshape : shape.product? = some xs.length
  · have hlen : (dtype.encode xs).length =
        (dtype.encode xs).length * ElementType.uint8.width := (Nat.mul_one _).symm
    let data := Buffer.ofBytesResult m.memory.next .uint8 (dtype.encode xs).length location device
      .standard
    rcases Buffer.ofBytes_cases h hlen location device .standard with
      ⟨e, m₁, es, halloc, ha, hp, hes⟩ | ⟨m₁, ha, hp⟩
    · left
      -- What failed has touched new blocks only, so the inputs stored before can be given back.
      have hdone := release_progress hp.keeps fun t ht _ => hp.untouched (hu t ht) fun e he =>
        (hes e he t.block (h.block_lt (Machine.Keeps.mem (List.mem_append_left _ ht)))).2
      refine ⟨e, _, _, halloc.not_refusesCopy, ?_, (hp.trans hdone).imp fun _ => ⟨trivial, trivial⟩,
        (hes.le hn).keepsBelow.append hfrees⟩
      refine Action.orElseTidy_of_error ?_
      rw [if_neg (not_not.mpr hshape)]
      exact Action.bind_of_error ha
    · right
      obtain ⟨hp₂, hnone⟩ := Machine.progress_synchronize hp.keeps .standard
      have hstored := Buffer.progress_rebound (b := data) (hp.trans hp₂) hnone .stored
      have hspare := Buffer.sparesBelow_ofBytesEffects m.memory.next .uint8 _ hlen location device
        .standard
      have hproper : data.Proper := Buffer.ofBytesResult_proper ..
      refine ⟨data, m₁.synchronize .standard, ?_, hshape, hproper,
        Buffer.ofBytesResult_dtype .., ?_, Buffer.ofBytesResult_size ..,
        hstored.extends h (hspare.keepsBelow.append Effect.keepsBelow_wait), fun t ht => ?_,
        fun t ht => ?_⟩
      · refine Action.orElseTidy_of_ok ?_
        rw [if_neg (not_not.mpr hshape)]
        refine (Action.bind_of_ok ha).trans ?_
        rw [Action.change_bind, Buffer.ofBytesResult_stream]
        rfl
      · have hbytes := Buffer.outlookBytes_ofBytesResult m.outlook hlen location device .standard
        rw [Machine.next_outlook] at hbytes
        rw [hp₂.outlook trivial, hp.outlook trivial]
        exact hbytes
      · exact ⟨Buffer.untouched_of_idle hp₂.keeps (List.subset_append_left _ _) hnone ht,
          Buffer.block_of_mem_ofBytesResult ht⟩
      · exact (hp.trans hp₂).untouched (hu t ht) fun e he => by
          rcases List.mem_append.mp he with he | he
          · exact (hspare e he t.block (h.block_lt
              (Machine.Keeps.mem (List.mem_append_left _ ht)))).2
          · rw [List.mem_singleton.mp he]
            intro hat
            cases hat
  · left
    refine ⟨.shapeMismatch (.inputData name shape xs.length), _, _, nofun, ?_,
      release_progress h fun t ht _ => hu t ht, hfrees⟩
    refine Action.orElseTidy_of_error ?_
    rw [if_pos hshape]
    rfl

/-! ## Storing several -/

/-- The stored inputs are what the request was given. -/
def Stores (r : Request) (specs : List InputSpec) (o : Outlook) : Prop :=
  List.Forall₂ (fun i spec => i.name = spec.name ∧ i.shape = spec.shape ∧
    spec.shape.product? = some spec.elements.length ∧ i.data.outlookBytes o = spec.bytes)
    r.inputs specs

theorem Stores.congr {specs : List InputSpec} {o o' : Outlook} (h : r.Stores specs o)
    (hr : r.Sound) (ho : ∀ t ∈ r.holdings, o'.memory.block? t.block = o.memory.block? t.block) :
    r.Stores specs o' := by
  refine forall₂_imp_of_mem h fun i hi spec _ ⟨hname, hshape, hcount, hbytes⟩ => ?_
  refine ⟨hname, hshape, hcount, ?_⟩
  rw [← hbytes]
  exact (hr i hi).1.outlookBytes_congr .stored fun t ht =>
    ho t (List.mem_flatMap.mpr ⟨i, hi, ht⟩)

end Local.Request

namespace BatchCommand

open Local

variable {m m₀ : Machine} {T : List Holding} {r : Request}

/-- A request is made with all its inputs, or there is no trace of it. The machine at the beginning
is `m₀`; some of the inputs may have been stored already. -/
theorem storeInputs_cases (specs : List InputSpec) {done : List InputSpec} (hk : m₀.Keeps T)
    (h : m₀.Extends T m (r.holdings ++ T)) (hr : r.Sound)
    (hfresh : ∀ t ∈ r.holdings, m.Untouched t.block ∧ m₀.memory.next ≤ t.block)
    (hs : r.Stores done m.outlook) :
    (∃ e m', ¬ e.RefusesCopy ∧ storeInputs r specs m = .error e m' ∧ m₀.Extends T m' T) ∨
    ∃ r' m', storeInputs r specs m = .ok r' m' ∧ m₀.Extends T m' (r'.holdings ++ T) ∧ r'.Sound ∧
      r'.id = r.id ∧ r'.wanted = r.wanted ∧ r'.Stores (done ++ specs) m'.outlook := by
  induction specs generalizing r m done with
  | nil => exact .inr ⟨r, m, rfl, h, hr, rfl, rfl, by rwa [List.append_nil]⟩
  | cons spec specs ih =>
    rcases Request.addInput_cases h.keeps (fun t ht => (hfresh t ht).1)
      (fun t ht => (hfresh t ht).2) h.next spec.name spec.dtype spec.shape
      (spec.elements.map spec.dtype.ofInt) spec.location spec.device with
      ⟨e, m', es, hcause, ha, hp, hes⟩ |
      ⟨data, m', ha, hcount, hproper, hdtype, hbytes, -, hext, hnew, hold⟩
    · exact .inl ⟨e, m', hcause, Action.bind_of_error ha, h.progress hk hp hes⟩
    · rw [List.length_map] at hcount
      let r' : Request := { r with inputs := r.inputs ++ [⟨spec.name, spec.shape, data⟩] }
      have hperm : (data.holdings .stored ++ (r.holdings ++ T)).Perm (r'.holdings ++ T) := by
        rw [← List.append_assoc]
        exact (Request.holdings_addInput r ⟨spec.name, spec.shape, data⟩).symm.append_right _
      have hsound : r'.Sound := by
        intro i hi
        rcases List.mem_append.mp hi with hi | hi
        · exact hr i hi
        · rw [List.mem_singleton.mp hi]
          exact ⟨hproper, hdtype⟩
      have hfixed : ∀ t ∈ r.holdings,
          m'.outlook.memory.block? t.block = m.outlook.memory.block? t.block := by
        intro t ht
        refine (hext.fixed t (List.mem_append_left _ ht) ?_).2
        obtain ⟨i, -, hti⟩ := List.mem_flatMap.mp ht
        rw [Buffer.use_of_mem_holdings hti]
        trivial
      have hstores : r'.Stores (done ++ [spec]) m'.outlook :=
        List.rel_append (hs.congr hr hfixed) (.cons ⟨rfl, rfl, hcount, hbytes⟩ .nil)
      have hfresh' : ∀ t ∈ r'.holdings, m'.Untouched t.block ∧ m₀.memory.next ≤ t.block := by
        intro t ht
        rcases List.mem_append.mp ((Request.holdings_addInput r _).mem_iff.mp ht) with ht | ht
        · obtain ⟨hu, hle⟩ := hnew t ht
          exact ⟨hu, Nat.le_trans h.next hle⟩
        · exact ⟨hold t ht, (hfresh t ht).2⟩
      rcases ih ((h.trans hext).perm hperm) hsound hfresh' hstores with
        ⟨e, m'', hcause, hrun, hdone⟩ | ⟨r'', m'', hrun, hdone, hsound', hid, hwanted, hstores'⟩
      · exact .inl ⟨e, m'', hcause, (Action.bind_of_ok ha).trans hrun, hdone⟩
      · refine .inr ⟨r'', m'', (Action.bind_of_ok ha).trans hrun, hdone, hsound', hid, hwanted, ?_⟩
        rwa [List.append_assoc] at hstores'

end BatchCommand

end DeviceBatch
