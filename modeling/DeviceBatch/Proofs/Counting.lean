import DeviceBatch.Proofs.Allocating

/-!
# Counting the elements of a shape

`Shape.product?` multiplies from the left and gives up at the first product that is no size. A zero
dimension makes the whole product zero, but it comes too late if the dimensions before it overflow
already (`Shape.Stumbles`). In every other case the product is found exactly if it is a size
(`Shape.count_exact`), and then the order of the dimensions makes no difference to what is accepted
for a shape: a buffer, new storage or the elements of an input.
-/

namespace DeviceBatch

namespace Shape

variable {shape other : Shape} {n : Nat}

/-- A dimension of zero comes after dimensions whose product is no size. -/
def Stumbles (shape : Shape) : Prop :=
  ∃ front back, shape = front ++ 0 :: back ∧ Size.wordLimit ≤ front.prod

theorem beforeZero_eq_self (h : 0 ∉ shape) : beforeZero shape = shape := by
  induction shape with
  | nil => rfl
  | cons d shape ih =>
    rw [List.mem_cons, not_or] at h
    rw [beforeZero_cons (Ne.symm h.1), ih h.2]

theorem beforeZero_append {front : Shape} (h : 0 ∉ front) (back : Shape) :
    beforeZero (front ++ 0 :: back) = front := by
  induction front with
  | nil => simp
  | cons d front ih =>
    rw [List.mem_cons, not_or] at h
    rw [List.cons_append, beforeZero_cons (Ne.symm h.1), ih h.2]

theorem exists_beforeZero (h : 0 ∈ shape) : ∃ back, shape = beforeZero shape ++ 0 :: back := by
  induction shape with
  | nil => simp at h
  | cons d shape ih =>
    by_cases hd : d = 0
    · subst hd
      exact ⟨shape, by simp⟩
    · obtain ⟨back, hback⟩ := ih (by simpa [Ne.symm hd] using h)
      refine ⟨back, ?_⟩
      rw [beforeZero_cons hd, List.cons_append, ← hback]

/-- A product that is no size has no factor zero. -/
theorem zero_notMem_of_wordLimit_le (h : Size.wordLimit ≤ shape.prod) : 0 ∉ shape := by
  intro hmem
  rw [List.prod_eq_zero hmem] at h
  exact absurd h (by decide)

/-- The dimensions before the first zero overflow if all of them do, or if the zero comes too late. -/
theorem wordLimit_le_beforeZero :
    Size.wordLimit ≤ (beforeZero shape).prod ↔ Size.wordLimit ≤ shape.prod ∨ shape.Stumbles := by
  constructor
  · intro h
    by_cases hzero : 0 ∈ shape
    · obtain ⟨back, hback⟩ := exists_beforeZero hzero
      exact .inr ⟨_, back, hback, h⟩
    · rw [beforeZero_eq_self hzero] at h
      exact .inl h
  · rintro (h | ⟨front, back, rfl, h⟩)
    · rwa [beforeZero_eq_self (zero_notMem_of_wordLimit_le h)]
    · rwa [beforeZero_append (zero_notMem_of_wordLimit_le h)]

theorem product?_eq_none_iff :
    shape.product? = none ↔ Size.wordLimit ≤ shape.prod ∨ shape.Stumbles := by
  rw [product?_eq, ← wordLimit_le_beforeZero]
  simp

theorem product?_eq_some_iff :
    shape.product? = some n ↔ shape.prod = n ∧ n < Size.wordLimit ∧ ¬ shape.Stumbles := by
  constructor
  · intro h
    have hnone : ¬ (Size.wordLimit ≤ shape.prod ∨ shape.Stumbles) := by
      rw [← product?_eq_none_iff, h]
      simp
    obtain rfl := prod_of_product? h
    simpa using hnone
  · rintro ⟨rfl, hlt, hstumbles⟩
    have hover : ¬ Size.wordLimit ≤ (beforeZero shape).prod := by
      rw [wordLimit_le_beforeZero]
      simp [hlt, hstumbles]
    rw [product?_eq, if_pos (by omega)]

/-- Shapes with the same dimensions in another order have the same count, if none stumbles. -/
theorem product?_perm (hperm : other.Perm shape) (h : ¬ shape.Stumbles) (h' : ¬ other.Stumbles) :
    other.product? = shape.product? := by
  ext n
  rw [product?_eq_some_iff, product?_eq_some_iff, hperm.prod_eq]
  simp [h, h']

end Shape

/-! ## What is accepted for a shape -/

/-- A buffer is accepted if it has as many elements as the shape. -/
theorem Tensor.ofBuffer_accepts {shape : Shape} {b : Buffer} :
    (∃ t, ofBuffer shape b = .ok t) ↔ shape.product? = some b.size := by
  constructor
  · rintro ⟨t, ht⟩
    obtain rfl := Tensor.buffer_of_ofBuffer ht
    obtain rfl := Tensor.shape_of_ofBuffer ht
    exact t.holds
  · intro h
    unfold ofBuffer
    split
    · next hnone => simp [h] at hnone
    · next count hcount =>
      rw [h] at hcount
      rw [dif_pos (Option.some.inj hcount).symm]
      exact ⟨_, rfl⟩

/-- A tensor is given out as a buffer for its elements is. -/
theorem Tensor.allocate_accepts {dtype : ElementType} {shape : Shape} {location : Location}
    {device : Nat} {stream : Stream} {m m' : Machine} {b : Buffer} :
    (∃ t, allocate dtype shape location device stream m = .ok t m' ∧ t.buffer = b) ↔
      ∃ n, shape.product? = some n ∧
        Buffer.allocate dtype n location device stream m = .ok b m' := by
  constructor
  · rintro ⟨t, ht, rfl⟩
    cases hcount : shape.product? with
    | none =>
      rw [allocate_of_overflow hcount] at ht
      cases ht
    | some n => exact ⟨n, rfl, (((allocate_of_product hcount).2 t m').mp ht).2⟩
  · rintro ⟨n, hcount, hb⟩
    have hsize : shape.product? = some b.size := by
      rw [hcount, (Buffer.allocate_eq_ok hb).1]
    exact ⟨⟨shape, b, hsize⟩, ((allocate_of_product hcount).2 _ m').mpr ⟨rfl, hb⟩, rfl⟩

/-- The elements of an input are accepted if there are as many as the shape has, and if they can be
stored. -/
theorem Local.Request.addInput_accepts {r : Request} {name : String} {dtype : ElementType}
    {shape : Shape} {xs : List dtype.Value} {location : Location} {device : Nat} {m m' : Machine} :
    (∃ r', r.addInput name dtype shape xs location device m = .ok r' m') ↔
      shape.product? = some xs.length ∧ ∃ data m₁,
        Buffer.ofBytes .uint8 (dtype.encode xs).length (dtype.encode xs) location device .standard
          m = .ok data m₁ ∧ m' = m₁.synchronize data.stream := by
  unfold addInput
  by_cases hcount : shape.product? = some xs.length
  · rw [if_neg (not_not.mpr hcount)]
    cases hdata : Buffer.ofBytes .uint8 (dtype.encode xs).length (dtype.encode xs) location device
        .standard m with
    | ok data m₁ =>
      rw [Action.orElseTidy_of_ok ((Action.bind_of_ok hdata).trans (Action.change_bind ..))]
      simp [hcount, eq_comm]
    | error e m₁ =>
      rw [Action.orElseTidy_of_error (Action.bind_of_error hdata)]
      simp [hcount]
  · rw [if_pos hcount]
    constructor
    · rintro ⟨r', h⟩
      cases h
    · rintro ⟨h, -⟩
      exact absurd h hcount

/-! ## Counts are exact -/

namespace Shape

/-- The count of a shape is the product of its dimensions if that is a size, and there is none if it
is not; only a zero that comes too late is overlooked. Otherwise the order of the dimensions makes
no difference to what is accepted as the elements of a tensor or of an input. -/
theorem count_exact (shape : Shape) :
    (∀ n, shape.product? = some n ↔ shape.prod = n ∧ n < Size.wordLimit ∧ ¬ shape.Stumbles) ∧
    (shape.product? = none ↔ Size.wordLimit ≤ shape.prod ∨ shape.Stumbles) ∧
    ∀ other : Shape, other.Perm shape → ¬ shape.Stumbles → ¬ other.Stumbles →
      (∀ b, (∃ t, Tensor.ofBuffer other b = .ok t) ↔ ∃ t, Tensor.ofBuffer shape b = .ok t) ∧
      (∀ dtype location device stream m b m',
        (∃ t, Tensor.allocate dtype other location device stream m = .ok t m' ∧ t.buffer = b) ↔
          ∃ t, Tensor.allocate dtype shape location device stream m = .ok t m' ∧ t.buffer = b) ∧
      ∀ (r : Local.Request) name dtype (xs : List (ElementType.Value dtype)) location device m m',
        (∃ r', r.addInput name dtype other xs location device m = .ok r' m') ↔
          ∃ r', r.addInput name dtype shape xs location device m = .ok r' m' := by
  refine ⟨fun n => product?_eq_some_iff, product?_eq_none_iff, ?_⟩
  intro other hperm h h'
  have hcount : other.product? = shape.product? := product?_perm hperm h h'
  refine ⟨?_, ?_, ?_⟩
  · intro b
    rw [Tensor.ofBuffer_accepts, Tensor.ofBuffer_accepts, hcount]
  · intro dtype location device stream m b m'
    rw [Tensor.allocate_accepts, Tensor.allocate_accepts, hcount]
  · intro r name dtype xs location device m m'
    rw [Local.Request.addInput_accepts, Local.Request.addInput_accepts, hcount]

/-- A zero that comes before the product is too large makes the shape one without elements,
whichever of the other dimensions is first. -/
theorem emptied_count_exact :
    product? [9223372036854775808, 0, 2] = some 0 ∧ product? [0, 9223372036854775808, 2] = some 0 ∧
    ∀ b, (∃ t, Tensor.ofBuffer [0, 9223372036854775808, 2] b = .ok t) ↔
      ∃ t, Tensor.ofBuffer [9223372036854775808, 0, 2] b = .ok t := by
  have h : ¬ Stumbles [9223372036854775808, 0, 2] := fun h =>
    absurd (wordLimit_le_beforeZero.mpr (.inr h)) (by decide)
  have h' : ¬ Stumbles [0, 9223372036854775808, 2] := fun h =>
    absurd (wordLimit_le_beforeZero.mpr (.inr h)) (by decide)
  have hperm : List.Perm [0, 9223372036854775808, 2] [9223372036854775808, 0, 2] := .swap ..
  obtain ⟨hcount, -, horder⟩ := count_exact [9223372036854775808, 0, 2]
  obtain ⟨hcount', -, -⟩ := count_exact [0, 9223372036854775808, 2]
  exact ⟨(hcount 0).mpr ⟨by simp, by decide, h⟩, (hcount' 0).mpr ⟨by simp, by decide, h'⟩,
    (horder _ hperm h h').1⟩

/-- The same dimensions with the zero at the end have no count, although their product is zero: no
buffer is accepted for them, not even one without elements. -/
theorem overflow_before_zero :
    List.prod [9223372036854775808, 2, 0] = 0 ∧ product? [9223372036854775808, 2, 0] = none ∧
    ∃ b : Buffer, b.size = 0 ∧
      (¬ ∃ t, Tensor.ofBuffer [9223372036854775808, 2, 0] b = .ok t) ∧
      ∃ t, Tensor.ofBuffer [0, 9223372036854775808, 2] b = .ok t := by
  refine ⟨by simp, by decide, ⟨.borrowed .host .dangling, .uint8, 0, 0, .standard⟩, rfl, ?_, ?_⟩
  · rw [Tensor.ofBuffer_accepts]
    decide
  · rw [Tensor.ofBuffer_accepts]
    decide

end Shape

end DeviceBatch
