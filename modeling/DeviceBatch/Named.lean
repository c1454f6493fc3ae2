import DeviceBatch.Error

/-!
# Named things

A short list of things under names. `put` leaves one thing under a name, so a name stands for what
was put there last.
-/

namespace DeviceBatch

/-- Things under names. -/
abbrev Named (α : Type) := List (String × α)

namespace Named

variable {α : Type}

/-- The thing of that name. -/
def find (things : Named α) (name : String) : Except Error α :=
  match things.lookup name with
  | some thing => .ok thing
  | none => .error (.internalConsistency (.unknownName name))

/-- The things without the one of that name. -/
def remove (things : Named α) (name : String) : Named α := things.filter fun p => p.1 ≠ name

/-- The things with one more, in place of one of the same name. -/
def put (things : Named α) (name : String) (thing : α) : Named α :=
  things.remove name ++ [(name, thing)]

theorem lookup_remove (things : Named α) (name other : String) :
    (things.remove name).lookup other = if other = name then none else things.lookup other := by
  induction things with
  | nil => simp [remove]
  | cons p rest ih =>
    obtain ⟨n, a⟩ := p
    unfold remove at ih ⊢
    by_cases hn : n = name
    · subst hn
      by_cases ho : other = n
      · subst ho; simpa using ih
      · simpa [List.lookup_cons, beq_false_of_ne ho, ho] using ih
    · by_cases ho : other = n
      · subst ho; simp [hn]
      · simpa [List.lookup_cons, beq_false_of_ne ho, hn] using ih

/-- A thing that was put under a name is found there, and all others are where they were. -/
theorem lookup_put (things : Named α) (name other : String) (thing : α) :
    (things.put name thing).lookup other =
      if other = name then some thing else things.lookup other := by
  unfold put
  rw [List.lookup_append, lookup_remove]
  by_cases h : other = name
  · simp [h]
  · simp [List.lookup_cons, beq_false_of_ne h, h]

end Named

end DeviceBatch
