import DeviceBatch.Action

/-!
# Running actions

How actions that are put together run, given how their parts run. A composite action is followed by
rewriting with these, one part after the other. One that has succeeded is taken apart again: all of
its parts have.

Where it does not matter how far an action got, `Action.Leaves` says what it leaves behind in either
case, and is proved along the parts of the action. So is `Action.Answers`, which says what it
answers or fails with.
-/

namespace DeviceBatch.Action

variable {σ τ α β : Type} {act : Action σ α} {f : α → Action σ β} {a : α} {e : Error} {s s' : σ}

theorem bind_of_ok (h : act s = .ok a s') : (act >>= f) s = f a s' := by
  show EStateM.bind act f s = _
  unfold EStateM.bind
  rw [h]

theorem bind_of_error (h : act s = .error e s') : (act >>= f) s = .error e s' := by
  show EStateM.bind act f s = _
  unfold EStateM.bind
  rw [h]

theorem change_bind (g : σ → σ) (f : Unit → Action σ β) (s : σ) :
    (change g >>= f) s = f () (g s) := rfl

theorem get_bind (f : σ → Action σ β) (s : σ) : (get >>= f) s = f s s := rfl

theorem ofExcept_bind_of_ok {x : Except Error α} (h : x = .ok a) (f : α → Action σ β) (s : σ) :
    (ofExcept x >>= f) s = f a s := by
  rw [h]
  rfl

theorem ofExcept_bind_of_error {x : Except Error α} (h : x = .error e) (f : α → Action σ β)
    (s : σ) : (ofExcept x >>= f) s = .error e s := by
  rw [h]
  rfl

theorem step_of_ok {f : σ → Except Error σ} (h : f s = .ok s') : step f s = .ok () s' := by
  unfold step
  rw [h]

theorem step_of_error {f : σ → Except Error σ} (h : f s = .error e) : step f s = .error e s := by
  unfold step
  rw [h]

theorem attempt_of_ok {f : σ → Except Error (α × σ)} (h : f s = .ok (a, s')) :
    attempt f s = .ok a s' := by
  unfold attempt
  rw [h]

theorem attempt_of_error {f : σ → Except Error (α × σ)} (h : f s = .error e) :
    attempt f s = .error e s := by
  unfold attempt
  rw [h]

theorem orElseTidy_of_ok {tidy : σ → σ} (h : act s = .ok a s') :
    act.orElseTidy tidy s = .ok a s' := by
  unfold orElseTidy
  rw [h]

theorem orElseTidy_of_error {tidy : σ → σ} (h : act s = .error e s') :
    act.orElseTidy tidy s = .error e (tidy s') := by
  unfold orElseTidy
  rw [h]

theorem within_of_ok {g : σ → τ} {p : τ → σ → σ} {act : Action τ α} {t : τ}
    (h : act (g s) = .ok a t) : act.within g p s = .ok a (p t s) := by
  unfold within
  rw [h]

theorem within_of_error {g : σ → τ} {p : τ → σ → σ} {act : Action τ α} {t : τ}
    (h : act (g s) = .error e t) : act.within g p s = .error e (p t s) := by
  unfold within
  rw [h]

theorem onFirst_of_ok (h : act s = .ok a s') (t : τ) : act.onFirst (s, t) = .ok a (s', t) := by
  unfold onFirst within
  rw [h]

theorem onFirst_of_error (h : act s = .error e s') (t : τ) :
    act.onFirst (s, t) = .error e (s', t) := by
  unfold onFirst within
  rw [h]

theorem outcome_of_ok (h : act s = .ok a s') : act.outcome s = (.ok a, s') := by
  unfold outcome
  rw [h]

theorem outcome_of_error (h : act s = .error e s') : act.outcome s = (.error e, s') := by
  unfold outcome
  rw [h]

/-! ## Actions that have succeeded -/

/-- If two actions one after the other succeed, each of them does. -/
theorem bind_eq_ok {b : β} {s'' : σ} (h : (act >>= f) s = .ok b s'') :
    ∃ a s', act s = .ok a s' ∧ f a s' = .ok b s'' := by
  cases hact : act s with
  | ok a s' => exact ⟨a, s', rfl, (bind_of_ok hact).symm.trans h⟩
  | error e s' =>
    rw [bind_of_error hact] at h
    cases h

theorem ofExcept_eq_ok {x : Except Error α} (h : ofExcept x s = .ok a s') :
    x = .ok a ∧ s' = s := by
  cases x with
  | ok a =>
    cases h
    exact ⟨rfl, rfl⟩
  | error e => cases h

theorem attempt_eq_ok {f : σ → Except Error (α × σ)} (h : attempt f s = .ok a s') :
    f s = .ok (a, s') := by
  unfold attempt at h
  split at h
  · next hf =>
    cases h
    exact hf
  · cases h

theorem orElseTidy_eq_ok {tidy : σ → σ} (h : act.orElseTidy tidy s = .ok a s') :
    act s = .ok a s' := by
  cases hact : act s with
  | ok a s' => exact (orElseTidy_of_ok hact).symm.trans h
  | error e s' =>
    rw [orElseTidy_of_error hact] at h
    cases h

theorem onFirst_eq_ok {t : τ} {p : σ × τ} (h : act.onFirst (s, t) = .ok a p) :
    act s = .ok a p.1 ∧ p.2 = t := by
  cases hact : act s with
  | ok a s' =>
    rw [onFirst_of_ok hact] at h
    cases h
    exact ⟨rfl, rfl⟩
  | error e s' =>
    rw [onFirst_of_error hact] at h
    cases h

/-! ## Whatever comes of an action -/

/-- What the action leaves behind is as `P` says if it answers, and as `Q` says if it fails. -/
def Leaves (act : Action σ α) (s : σ) (P : α → σ → Prop) (Q : σ → Prop) : Prop :=
  match act s with
  | .ok a s' => P a s'
  | .error _ s' => Q s'

namespace Leaves

variable {P P' : α → σ → Prop} {Q Q' : σ → Prop} {R : β → σ → Prop}

theorem mono (h : act.Leaves s P Q) (hP : ∀ a s', P a s' → P' a s') (hQ : ∀ s', Q s' → Q' s') :
    act.Leaves s P' Q' := by
  unfold Leaves at h ⊢
  cases hact : act s with
  | ok a s' => rw [hact] at h; exact hP a s' h
  | error e s' => rw [hact] at h; exact hQ s' h

theorem of_ok (h : act.Leaves s P Q) (hact : act s = .ok a s') : P a s' := by
  unfold Leaves at h
  rw [hact] at h
  exact h

theorem of_error (h : act.Leaves s P Q) (hact : act s = .error e s') : Q s' := by
  unfold Leaves at h
  rw [hact] at h
  exact h

theorem of_forall (hP : ∀ a s', P a s') (hQ : ∀ s', Q s') : act.Leaves s P Q := by
  unfold Leaves
  cases act s with
  | ok a s' => exact hP a s'
  | error e s' => exact hQ s'

theorem bind (h : act.Leaves s P Q) (hf : ∀ a s', P a s' → (f a).Leaves s' R Q) :
    Leaves (act >>= f) s R Q := by
  unfold Leaves at h ⊢
  cases hact : act s with
  | ok a s' => rw [hact] at h; rw [bind_of_ok hact]; exact hf a s' h
  | error e s' => rw [hact] at h; rw [bind_of_error hact]; exact h

theorem change_bind {g : σ → σ} {f : Unit → Action σ β} {P : β → σ → Prop}
    (h : (f ()).Leaves (g s) P Q) : Leaves (change g >>= f) s P Q := h

theorem get_bind {f : σ → Action σ β} {P : β → σ → Prop} (h : (f s).Leaves s P Q) :
    Leaves (get >>= f) s P Q := h

theorem ofExcept_bind {x : Except Error α} (hok : ∀ a, x = .ok a → (f a).Leaves s R Q) (h : Q s) :
    Leaves (ofExcept x >>= f) s R Q := by
  cases x with
  | ok a => exact hok a rfl
  | error e => exact h

theorem pure (h : P a s) : Leaves (pure a) s P Q := h

theorem throw (h : Q s) : Leaves (throw e) s P Q := h

theorem change {g : σ → σ} {P : Unit → σ → Prop} (h : P () (g s)) : (change g).Leaves s P Q := h

theorem ofExcept {x : Except Error α} (hok : ∀ a, x = .ok a → P a s) (h : Q s) :
    (ofExcept x).Leaves s P Q := by
  cases x with
  | ok a => exact hok a rfl
  | error e => exact h

theorem step {g : σ → Except Error σ} {P : Unit → σ → Prop} (hok : ∀ s', g s = .ok s' → P () s')
    (h : Q s) : (step g).Leaves s P Q := by
  unfold Leaves Action.step
  cases hg : g s with
  | ok s' => exact hok s' hg
  | error e => exact h

theorem attempt {g : σ → Except Error (α × σ)} (hok : ∀ a s', g s = .ok (a, s') → P a s')
    (h : Q s) : (attempt g).Leaves s P Q := by
  unfold Leaves Action.attempt
  cases hg : g s with
  | ok p => exact hok p.1 p.2 hg
  | error e => exact h

theorem orElseTidy {tidy : σ → σ} (h : act.Leaves s P Q') (ht : ∀ s', Q' s' → Q (tidy s')) :
    (act.orElseTidy tidy).Leaves s P Q := by
  unfold Leaves at h ⊢
  cases hact : act s with
  | ok a s' => rw [hact] at h; rw [orElseTidy_of_ok hact]; exact h
  | error e s' => rw [hact] at h; rw [orElseTidy_of_error hact]; exact ht s' h

theorem within {g : σ → τ} {p : τ → σ → σ} {act : Action τ α}
    (h : act.Leaves (g s) (fun a t => P a (p t s)) fun t => Q (p t s)) :
    (act.within g p).Leaves s P Q := by
  unfold Leaves at h ⊢
  cases hact : act (g s) with
  | ok a t => rw [hact] at h; rw [within_of_ok hact]; exact h
  | error e t => rw [hact] at h; rw [within_of_error hact]; exact h

theorem onFirst {t : τ} {P : α → σ × τ → Prop} {Q : σ × τ → Prop}
    (h : act.Leaves s (fun a s' => P a (s', t)) fun s' => Q (s', t)) :
    Leaves act.onFirst (s, t) P Q := within h

theorem outcome (h : act.Leaves s (fun _ => Q) Q) : Q (act.outcome s).2 := by
  unfold Leaves at h
  cases hact : act s with
  | ok a s' => rw [hact] at h; rw [outcome_of_ok hact]; exact h
  | error e s' => rw [hact] at h; rw [outcome_of_error hact]; exact h

end Leaves

/-- The answer of the action is as `P` says, and if it fails, the error is as `E` says. -/
def Answers (act : Action σ α) (s : σ) (P : α → Prop) (E : Error → Prop) : Prop :=
  match act s with
  | .ok a _ => P a
  | .error e _ => E e

namespace Answers

variable {P P' : α → Prop} {E E' : Error → Prop} {R : β → Prop}

theorem mono (h : act.Answers s P E) (hP : ∀ a, P a → P' a) (hE : ∀ e, E e → E' e) :
    act.Answers s P' E' := by
  unfold Answers at h ⊢
  cases hact : act s with
  | ok a s' => rw [hact] at h; exact hP a h
  | error e s' => rw [hact] at h; exact hE e h

theorem bind (h : act.Answers s P E) (hf : ∀ a s', act s = .ok a s' → P a → (f a).Answers s' R E) :
    Answers (act >>= f) s R E := by
  unfold Answers at h ⊢
  cases hact : act s with
  | ok a s' => rw [hact] at h; rw [bind_of_ok hact]; exact hf a s' hact h
  | error e s' => rw [hact] at h; rw [bind_of_error hact]; exact h

theorem change_bind {g : σ → σ} {f : Unit → Action σ β} {P : β → Prop}
    (h : (f ()).Answers (g s) P E) : Answers (change g >>= f) s P E := h

theorem get_bind {f : σ → Action σ β} {P : β → Prop} (h : (f s).Answers s P E) :
    Answers (get >>= f) s P E := h

theorem ofExcept_bind {x : Except Error α} (hok : ∀ a, x = .ok a → (f a).Answers s R E)
    (herr : ∀ e, x = .error e → E e) : Answers (ofExcept x >>= f) s R E := by
  cases x with
  | ok a => exact hok a rfl
  | error e => exact herr e rfl

theorem ofExcept {x : Except Error α} (hok : ∀ a, x = .ok a → P a)
    (herr : ∀ e, x = .error e → E e) : (ofExcept x).Answers s P E := by
  cases x with
  | ok a => exact hok a rfl
  | error e => exact herr e rfl

theorem attempt {g : σ → Except Error (α × σ)} (hok : ∀ a s', g s = .ok (a, s') → P a)
    (herr : ∀ e, g s = .error e → E e) : (attempt g).Answers s P E := by
  unfold Answers Action.attempt
  cases hg : g s with
  | ok p => exact hok p.1 p.2 hg
  | error e => exact herr e hg

theorem within {g : σ → τ} {p : τ → σ → σ} {act : Action τ α} (h : act.Answers (g s) P E) :
    (act.within g p).Answers s P E := by
  unfold Answers at h ⊢
  cases hact : act (g s) with
  | ok a t => rw [hact] at h; rw [within_of_ok hact]; exact h
  | error e t => rw [hact] at h; rw [within_of_error hact]; exact h

end Answers

end DeviceBatch.Action
