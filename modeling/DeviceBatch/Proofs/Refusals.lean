import DeviceBatch.Proofs.Action
import DeviceBatch.Proofs.Storage
import DeviceBatch.Session

/-!
# Refused copies

A platform refuses a copy whose range lies in no live device allocation, and one that touches device
memory it does not have (`Error.RefusesCopy`). Nothing else fails like that: what is found before a
copy is issued (shapes, counts, names, places, the state of a batch) fails in its own words, and so
does storage that is not given out. An action that issues no copy, or only copies that are accepted,
is `Unrefused`.
-/

namespace DeviceBatch

/-- The error is that of a copy which the platform has refused. -/
def Error.RefusesCopy (e : Error) : Prop := ∃ fault, e = .platform fault

theorem Error.IsAllocation.not_refusesCopy {e : Error} (h : e.IsAllocation) : ¬ e.RefusesCopy := by
  obtain ⟨bytes, location, device, fault, rfl⟩ := h
  rintro ⟨_, he⟩
  cases he

/-- If the computation fails, it is not for a copy that was refused. -/
def Unrefused {α : Type} (x : Except Error α) : Prop := ∀ e, x = .error e → ¬ e.RefusesCopy

namespace Unrefused

variable {α β : Type} {x : Except Error α} {f : α → Except Error β} {a : α} {e : Error}

theorem ok (a : α) : Unrefused (.ok a) := nofun

theorem error (h : ¬ e.RefusesCopy) : Unrefused (.error e : Except Error α) := by
  rintro _ ⟨⟩
  exact h

theorem bind (h : Unrefused x) (hf : ∀ a, x = .ok a → Unrefused (f a)) : Unrefused (x >>= f) := by
  cases hx : x with
  | ok a => exact hf a hx
  | error e => exact .error (h e hx)

theorem map (h : Unrefused x) (g : α → β) : Unrefused (x.map g) := by
  cases hx : x with
  | ok a => exact .ok _
  | error e => exact .error (h e hx)

theorem mapM {as : List α} (h : ∀ a ∈ as, Unrefused (f a)) : Unrefused (as.mapM f) := by
  induction as with
  | nil => exact .ok _
  | cons a as ih =>
    rw [List.mapM_cons]
    refine (h a List.mem_cons_self).bind fun b _ => ?_
    exact (ih fun a ha => h a (List.mem_cons_of_mem _ ha)).bind fun bs _ => .ok _

end Unrefused

section Actions

variable {σ α β : Type} {act : Action σ α} {f : α → Action σ β} {s : σ}

theorem Action.unrefused_bind (h : Unrefused (act.outcome s).1)
    (hf : ∀ a s', act s = .ok a s' → Unrefused ((f a).outcome s').1) :
    Unrefused ((act >>= f).outcome s).1 := by
  cases ha : act s with
  | ok a s' =>
    have hrest : (act >>= f).outcome s = (f a).outcome s' := by
      unfold outcome
      rw [bind_of_ok ha]
    rw [hrest]
    exact hf a s' ha
  | error e s' =>
    rw [outcome_of_error ha] at h
    rw [outcome_of_error (bind_of_error ha)]
    exact .error (h e rfl)

theorem Action.unrefused_ofExcept {x : Except Error α} (h : Unrefused x) :
    Unrefused ((ofExcept x : Action σ α).outcome s).1 := by
  cases x with
  | ok a => exact .ok a
  | error e => exact h

end Actions

/-! ## What is found before a copy is issued -/

theorem Named.find_unrefused {α : Type} (things : Named α) (name : String) :
    Unrefused (things.find name) := by
  unfold find
  split
  · exact .ok _
  · exact .error nofun

theorem Shape.extend_unrefused (input : String) (index : Nat)
    (combined : Option (Nat × Shape)) (shape : Shape) :
    Unrefused (extend input index combined shape) := by
  unfold extend
  split
  · exact .error nofun
  · exact .ok _
  · split
    · exact .error nofun
    · split
      · exact .ok _
      · exact .error nofun

theorem Shape.combineFrom_unrefused (input : String) (shapes : List Shape) (index : Nat)
    (combined : Option (Nat × Shape)) :
    Unrefused (combineFrom input index combined shapes) := by
  induction shapes generalizing index combined with
  | nil =>
    cases combined with
    | none => exact .error nofun
    | some p => exact .ok _
  | cons shape shapes ih =>
    unfold combineFrom
    cases hx : extend input index combined shape with
    | error e => exact .error (extend_unrefused input index combined shape e hx)
    | ok next => exact ih _ _

theorem Shape.combine_unrefused (input : String) (shapes : List Shape) :
    Unrefused (Shape.combine input shapes) := combineFrom_unrefused input shapes 0 none

theorem Buffer.ensureHost_unrefused (b : Buffer) : Unrefused b.ensureHost := by
  unfold ensureHost
  split
  · exact .ok _
  · exact .error nofun

theorem Tensor.ofBuffer_unrefused (shape : Shape) (buffer : Buffer) :
    Unrefused (Tensor.ofBuffer shape buffer) := by
  unfold ofBuffer
  split
  · exact .error nofun
  · split
    · exact .ok _
    · exact .error nofun

theorem CollectedInput.toBuffer_unrefused (c : CollectedInput) (dtype : ElementType)
    (query : InputQuery) : Unrefused (c.toBuffer dtype query) := by
  unfold toBuffer
  split
  · exact .error nofun
  · split
    · exact .ok _
    · split
      · exact .error nofun
      · split
        · exact .error nofun
        · split
          · exact .error nofun
          · exact .ok _

namespace Local

theorem Request.input_unrefused (r : Request) (name : String) : Unrefused (r.input name) := by
  unfold input
  split
  · exact .ok _
  · exact .error nofun

theorem Scatter.slices_unrefused (scatter : Scatter) (rows : List Nat) (output : OutputView) :
    Unrefused (scatter.slices rows output) := by
  unfold slices
  split
  · exact .ok _
  · split
    · exact .error nofun
    · split
      · exact .error nofun
      · exact .ok _

namespace Batch

theorem ensureOpen_unrefused (b : Batch) : Unrefused b.ensureOpen := by
  unfold DeviceBatch.Batch.ensureOpen
  split
  · exact .ok _
  · exact .error nofun

theorem combinedShape_unrefused (b : Batch) (name : String) :
    Unrefused (b.combinedShape exchange name) :=
  (ensureOpen_unrefused b).bind fun _ _ =>
    (Unrefused.mapM fun r _ => (r.input_unrefused name).map _).bind fun shapes _ =>
      Shape.combine_unrefused name shapes

theorem inputBytes_unrefused (name : String) (dtype : ElementType) (shape : Shape) :
    Unrefused (DeviceBatch.Batch.inputBytes name dtype shape) := by
  unfold DeviceBatch.Batch.inputBytes
  split
  · exact .error nofun
  · split
    · exact .error nofun
    · exact .ok _

end Batch

end Local

namespace Session

variable {s : Session} {α : Type}

theorem unrefused_consult {f : Session → Except Error α} (h : Unrefused (f s)) :
    Unrefused ((consult f).outcome s).1 := by
  unfold consult Action.outcome
  dsimp only
  cases hf : f s with
  | ok a => exact .ok a
  | error e => exact .error (h e hf)

theorem unrefused_onMachine {act : Action Machine α} (h : Unrefused (act.outcome s.machine).1) :
    Unrefused ((onMachine act).outcome s).1 := by
  unfold onMachine Action.within Action.outcome at *
  dsimp only at *
  cases ha : act s.machine with
  | ok a m => exact .ok a
  | error e m =>
    rw [ha] at h
    exact h

theorem currentBatch_unrefused (s : Session) : Unrefused s.currentBatch := by
  unfold currentBatch
  split
  · exact .ok _
  · exact .error nofun

theorem openedBatch_unrefused (s : Session) : Unrefused (BatchCommand.openedBatch s) :=
  s.currentBatch_unrefused.bind fun b _ => b.ensureOpen_unrefused.bind fun _ _ => .ok _

theorem resourceAt_unrefused (place : Place) (s : Session) : Unrefused (s.resourceAt place) := by
  cases place with
  | slot name => exact Named.find_unrefused s.slots name
  | output name =>
    refine s.currentBatch_unrefused.bind fun b _ => b.ensureOpen_unrefused.bind fun _ _ => ?_
    cases b.output? name with
    | some t => exact .ok _
    | none => exact .error nofun

end Session

end DeviceBatch
