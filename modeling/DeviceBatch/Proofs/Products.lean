import Mathlib.Algebra.BigOperators.Ring.List
import Mathlib.Algebra.Order.Ring.Nat
import Mathlib.Data.List.TakeWhile
import DeviceBatch.Shape

/-!
# Products of dimensions

The product of a shape is found if that of the dimensions before the first zero is a size
(`Shape.product?_eq`): up to there the products only grow, and from there on all are zero.
-/

namespace DeviceBatch.Shape

variable {shape row : Shape} {n k rows : Nat}

/-- The dimensions before the first zero. -/
def beforeZero (shape : Shape) : Shape := shape.takeWhile (· ≠ 0)

@[simp] theorem beforeZero_nil : beforeZero [] = [] := rfl

@[simp] theorem beforeZero_zero (shape : Shape) : beforeZero (0 :: shape) = [] := rfl

theorem beforeZero_cons {d : Nat} (hd : d ≠ 0) (shape : Shape) :
    beforeZero (d :: shape) = d :: beforeZero shape := by
  simp [beforeZero, hd]

theorem zero_notMem_beforeZero (shape : Shape) : 0 ∉ beforeZero shape := by
  intro h
  simpa using List.mem_takeWhile_imp h

theorem prod_beforeZero_pos (shape : Shape) : 0 < (beforeZero shape).prod :=
  Nat.pos_of_ne_zero (List.prod_ne_zero (zero_notMem_beforeZero shape))

/-- Up to the first zero the products only grow, and from there on all are zero. -/
theorem foldlM_mul?_eq {c : Nat} (hc : c < Size.wordLimit) (shape : Shape) :
    shape.foldlM Size.mul? c =
      if c * (beforeZero shape).prod < Size.wordLimit then some (c * shape.prod) else none := by
  induction shape generalizing c with
  | nil => simp [hc]
  | cons d shape ih =>
    rw [List.foldlM_cons]
    by_cases hd : d = 0
    · subst hd
      have hzero : 0 < Size.wordLimit := by omega
      have hmul : Size.mul? c 0 = some 0 := Size.mul?_eq_some_iff.mpr ⟨hzero, rfl⟩
      simp [hmul, ih hzero, hzero, hc]
    · rw [beforeZero_cons hd]
      by_cases hlt : c * d < Size.wordLimit
      · have hmul : Size.mul? c d = some (c * d) := Size.mul?_eq_some_iff.mpr ⟨hlt, rfl⟩
        rw [hmul, Option.bind_eq_bind, Option.bind_some, ih hlt, List.prod_cons, List.prod_cons,
          Nat.mul_assoc, Nat.mul_assoc]
      · -- The product is no size, and what follows up to the zero does not make it smaller.
        have hmul : Size.mul? c d = none := Size.mul?_eq_none_iff.mpr (by omega)
        have hgrow : c * d ≤ c * d * (beforeZero shape).prod :=
          Nat.le_mul_of_pos_right _ (prod_beforeZero_pos shape)
        have hover : ¬ c * (d * (beforeZero shape).prod) < Size.wordLimit := by
          rw [← Nat.mul_assoc]
          omega
        simp [hmul, hover]

theorem product?_eq (shape : Shape) :
    shape.product? = if (beforeZero shape).prod < Size.wordLimit then some shape.prod else none := by
  have hone : 1 < Size.wordLimit := by decide
  have hfold := foldlM_mul?_eq hone shape
  rwa [Nat.one_mul, Nat.one_mul] at hfold

/-- A product that was found is the product. -/
theorem prod_of_product? (h : shape.product? = some n) : shape.prod = n := by
  rw [product?_eq] at h
  split at h
  · exact Option.some.inj h
  · cases h

/-- So many rows of so many elements. -/
theorem product?_cons (h : product? (rows :: row) = some n) :
    n = rows * (product? row).getD 0 := by
  by_cases hz : rows = 0
  · subst hz
    simpa using (prod_of_product? h).symm
  · rw [product?_eq, beforeZero_cons hz, List.prod_cons] at h
    split at h
    · next hlt =>
      cases h
      have hrow : (beforeZero row).prod < Size.wordLimit :=
        Nat.lt_of_le_of_lt (Nat.le_mul_of_pos_left _ (Nat.pos_of_ne_zero hz)) hlt
      rw [product?_eq row, if_pos hrow, List.prod_cons]
      rfl
    · cases h

/-- If so many rows have a product, fewer rows have one, too. -/
theorem product?_cons_of_le (hle : k ≤ rows) (h : product? (rows :: row) = some n) :
    product? (k :: row) = some (k * (product? row).getD 0) := by
  have hfound : product? (k :: row) = some (k * row.prod) := by
    rw [product?_eq, if_pos, List.prod_cons]
    by_cases hk : k = 0
    · subst hk
      rw [beforeZero_zero]
      decide
    · have hrows : rows ≠ 0 := by omega
      rw [product?_eq, beforeZero_cons hrows, List.prod_cons] at h
      split at h
      · next hlt =>
        rw [beforeZero_cons hk, List.prod_cons]
        exact Nat.lt_of_le_of_lt (Nat.mul_le_mul_right _ hle) hlt
      · cases h
  rw [hfound, product?_cons hfound]

end DeviceBatch.Shape
