import Mathlib.Algebra.BigOperators.Group.List.Basic
import Mathlib.Algebra.Order.BigOperators.Group.List
import Mathlib.Algebra.Order.Group.Nat
import Mathlib.Algebra.Ring.Nat
import Mathlib.Data.List.Induction
import DeviceBatch.Shape.Combined

/-!
# Combined shapes

Shapes are combined exactly if they can be laid one behind the other along the outermost dimension
(`Shape.Combinable`), and then their combination is the sum of the rows in front of the common row
(`Shape.joint`). Otherwise there is a first shape that does not fit to those before it, and the fault
is that of this shape (`Shape.combine_exact`).

What has been combined of a prefix is a function of the prefix (`Shape.combined?`). So a prefix that
can be combined may be skipped (`Shape.combineFrom_append`), and only the next shape has to be
looked at.
-/

namespace DeviceBatch.Shape

variable {input : String} {shapes before middle xs ys : List Shape} {shape : Shape}

/-! ## Shapes one behind the other -/

/-- The rows of all shapes together. -/
def rowTotal (shapes : List Shape) : Nat := (shapes.map fun shape => shape.headD 0).sum

/-- The row of the first shape below the rows of all. -/
def joint (shapes : List Shape) : Shape := rowTotal shapes :: (shapes.headD []).tail

/-- The shapes can be laid one behind the other along the outermost dimension. -/
structure Combinable (shapes : List Shape) : Prop where
  nonempty : shapes ≠ []
  ranked : ∀ shape ∈ shapes, shape ≠ []
  alike : ∀ shape ∈ shapes, ∀ other ∈ shapes, shape.tail = other.tail
  small : rowTotal shapes < Size.wordLimit

/-- What is wrong with a shape that cannot be put behind others: it has no rows at all, or it has
other rows than they have, or the rows become too many. -/
def fault (input : String) (before : List Shape) (shape : Shape) : ShapeFault :=
  if shape = [] then .scalarInput input before.length
  else if before ≠ [] ∧ shape.tail ≠ (joint before).tail then
    .incompatibleInput input before.length shape (joint before)
  else .rowOverflow input

@[simp] theorem rowTotal_nil : rowTotal [] = 0 := rfl

@[simp] theorem rowTotal_cons (shape : Shape) (shapes : List Shape) :
    rowTotal (shape :: shapes) = shape.headD 0 + rowTotal shapes := by
  simp [rowTotal]

@[simp] theorem rowTotal_append (xs ys : List Shape) :
    rowTotal (xs ++ ys) = rowTotal xs + rowTotal ys := by
  simp [rowTotal]

theorem rowTotal_perm (h : xs.Perm ys) : rowTotal xs = rowTotal ys := (h.map _).sum_eq

instance (shapes : List Shape) : Decidable (Combinable shapes) :=
  decidable_of_iff
    (shapes ≠ [] ∧ (∀ shape ∈ shapes, shape ≠ []) ∧
      (∀ shape ∈ shapes, ∀ other ∈ shapes, shape.tail = other.tail) ∧
      rowTotal shapes < Size.wordLimit)
    ⟨fun ⟨hne, hranked, halike, hsmall⟩ => ⟨hne, hranked, halike, hsmall⟩,
      fun h => ⟨h.nonempty, h.ranked, h.alike, h.small⟩⟩

namespace Combinable

/-- All shapes have the row of the combined shape. -/
theorem tail_eq (h : Combinable shapes) (hmem : shape ∈ shapes) :
    shape.tail = (joint shapes).tail := by
  cases shapes with
  | nil => simp at hmem
  | cons first rest => exact h.alike shape hmem first List.mem_cons_self

/-- Fewer shapes can be combined, too. -/
theorem mono (h : Combinable shapes) (hne : xs ≠ []) (hsub : xs.Sublist shapes) :
    Combinable xs where
  nonempty := hne
  ranked shape hmem := h.ranked shape (hsub.subset hmem)
  alike shape hmem other hother := h.alike shape (hsub.subset hmem) other (hsub.subset hother)
  small := by
    have hle : rowTotal xs ≤ rowTotal shapes := (hsub.map _).sum_le_sum fun _ _ => Nat.zero_le _
    have hsmall := h.small
    omega

theorem left (h : Combinable (xs ++ ys)) (hne : xs ≠ []) : Combinable xs :=
  h.mono hne (List.sublist_append_left xs ys)

theorem right (h : Combinable (xs ++ ys)) (hne : ys ≠ []) : Combinable ys :=
  h.mono hne (List.sublist_append_right xs ys)

theorem perm (h : Combinable shapes) (hperm : xs.Perm shapes) : Combinable xs where
  nonempty := by
    rintro rfl
    exact h.nonempty hperm.nil_eq.symm
  ranked shape hmem := h.ranked shape (hperm.mem_iff.mp hmem)
  alike shape hmem other hother :=
    h.alike shape (hperm.mem_iff.mp hmem) other (hperm.mem_iff.mp hother)
  small := by
    rw [rowTotal_perm hperm]
    exact h.small

theorem joint_eq_of_perm (h : Combinable shapes) (hperm : xs.Perm shapes) :
    joint xs = joint shapes := by
  have htail : (joint xs).tail = (joint shapes).tail := by
    cases xs with
    | nil => exact absurd hperm.nil_eq.symm h.nonempty
    | cons first rest =>
      have hfirst : first.tail = (joint shapes).tail :=
        h.tail_eq (hperm.mem_iff.mp List.mem_cons_self)
      exact hfirst
  unfold joint at htail ⊢
  rw [rowTotal_perm hperm]
  exact congrArg _ htail

/-- A shape can be put behind others if it has rows, if these are as theirs, and if they do not
become too many. -/
theorem append_singleton (hbefore : before = [] ∨ Combinable before) (hne : shape ≠ [])
    (htail : before ≠ [] → shape.tail = (joint before).tail)
    (hsmall : rowTotal before + shape.headD 0 < Size.wordLimit) :
    Combinable (before ++ [shape]) := by
  rcases hbefore with rfl | hbefore
  · exact ⟨by simp, by simpa using hne, by simp, by simpa using hsmall⟩
  · have hlast := htail hbefore.nonempty
    refine ⟨by simp, ?_, ?_, by simpa using hsmall⟩
    · intro s hs
      rcases List.mem_append.mp hs with hs | hs
      · exact hbefore.ranked s hs
      · obtain rfl := List.mem_singleton.mp hs
        exact hne
    · have hrow : ∀ s ∈ before ++ [shape], s.tail = (joint before).tail := by
        intro s hs
        rcases List.mem_append.mp hs with hs | hs
        · exact hbefore.tail_eq hs
        · obtain rfl := List.mem_singleton.mp hs
          exact hlast
      intro s hs other hother
      rw [hrow s hs, hrow other hother]

/-- Two parts are combined as what comes of them. -/
theorem joint_pair (h : Combinable (xs ++ ys)) (hxs : xs ≠ []) (hys : ys ≠ []) :
    Combinable [joint xs, joint ys] ∧ joint [joint xs, joint ys] = joint (xs ++ ys) := by
  have htail : ∀ s ∈ xs ++ ys, s.tail = (joint (xs ++ ys)).tail := fun s hs => h.tail_eq hs
  obtain ⟨x, xs, rfl⟩ := List.exists_cons_of_ne_nil hxs
  obtain ⟨y, ys, rfl⟩ := List.exists_cons_of_ne_nil hys
  have hrows : y.tail = x.tail := htail y (by simp)
  have hsmall := h.small
  rw [rowTotal_append] at hsmall
  refine ⟨⟨by simp, by simp [joint], by simp [joint, hrows], by simpa [joint] using hsmall⟩, ?_⟩
  simp [joint, Nat.add_assoc]

end Combinable

/-! ## Combining step by step -/

/-- What has been combined of shapes that can be combined. -/
def combined? (shapes : List Shape) : Option (Nat × Shape) :=
  if shapes = [] then none else some (rowTotal shapes, (joint shapes).tail)

@[simp] theorem combined?_nil : combined? [] = none := rfl

theorem combined?_of_ne_nil (h : shapes ≠ []) :
    combined? shapes = some (rowTotal shapes, (joint shapes).tail) := if_neg h

/-- Of a prefix and one more shape that can be combined the next state is that of all of them. -/
theorem extend_of_combinable (input : String) (h : Combinable (before ++ [shape])) :
    extend input before.length (combined? before) shape =
      .ok (rowTotal (before ++ [shape]), (joint (before ++ [shape])).tail) := by
  have hshape : shape ≠ [] := h.ranked shape (by simp)
  obtain ⟨rows, row, rfl⟩ := List.exists_cons_of_ne_nil hshape
  cases before with
  | nil => simp [extend, joint]
  | cons first before =>
    have hrow : first.tail = row := h.alike first (by simp) (rows :: row) (by simp)
    have hsmall := h.small
    rw [rowTotal_append] at hsmall
    have hadd : Size.add? (rowTotal (first :: before)) rows =
        some (rowTotal (first :: before) + rows) :=
      Size.add?_eq_some_iff.mpr ⟨by simpa using hsmall, rfl⟩
    rw [combined?_of_ne_nil (by simp), extend]
    simp only [joint, List.headD_cons, List.tail_cons, hrow, ne_eq, not_true, if_false, hadd,
      List.cons_append]
    simp [Nat.add_assoc]

/-- A shape that cannot be put behind the others is refused for its fault. -/
theorem extend_of_not_combinable (input : String) (hbefore : before = [] ∨ Combinable before)
    (hsize : shape.headD 0 < Size.wordLimit) (h : ¬ Combinable (before ++ [shape])) :
    extend input before.length (combined? before) shape =
      .error (.shapeMismatch (fault input before shape)) := by
  unfold fault
  cases shape with
  | nil => simp [extend]
  | cons rows row =>
    rw [if_neg (by simp)]
    rcases hbefore with rfl | hbefore
    · exact absurd (.append_singleton (.inl rfl) (by simp) (by simp) (by simpa using hsize)) h
    · rw [combined?_of_ne_nil hbefore.nonempty, extend]
      by_cases hrow : (joint before).tail = row
      · -- The rows are alike, so that there must be too many of them.
        have hadd : Size.add? (rowTotal before) rows = none := by
          unfold Size.add?
          refine if_neg fun hlt => h ?_
          exact .append_singleton (.inr hbefore) (by simp) (fun _ => hrow.symm) hlt
        simp [hrow, hadd]
      · have hother : row ≠ (joint before).tail := Ne.symm hrow
        refine (if_pos hrow).trans ?_
        rw [if_pos ⟨hbefore.nonempty, hother⟩]
        rfl

/-- A part that can be combined with what is before it is passed over. -/
theorem combineFrom_append (input : String) (before : List Shape)
    (h : middle = [] ∨ Combinable (before ++ middle)) (rest : List Shape) :
    combineFrom input before.length (combined? before) (middle ++ rest) =
      combineFrom input (before ++ middle).length (combined? (before ++ middle)) rest := by
  induction middle generalizing before with
  | nil => simp
  | cons shape middle ih =>
    have hall : Combinable (before ++ [shape] ++ middle) := by
      simpa using h
    have hnext := extend_of_combinable input (hall.left (by simp))
    have hlength : before.length + 1 = (before ++ [shape]).length := by simp
    rw [List.cons_append, combineFrom, hnext]
    dsimp only
    rw [← combined?_of_ne_nil (by simp), hlength, ih _ (.inr hall), List.append_assoc,
      List.singleton_append]

/-! ## What comes of shapes -/

theorem combine_of_combinable (input : String) (h : Combinable shapes) :
    combine input shapes = .ok (joint shapes) := by
  have hrun := combineFrom_append input [] (.inr h) []
  rw [List.append_nil, List.nil_append, combined?_of_ne_nil h.nonempty] at hrun
  exact hrun

/-- The first shape that does not fit decides, whatever comes behind it. -/
theorem combine_of_not_combinable (input : String) (hbefore : before = [] ∨ Combinable before)
    (hsize : shape.headD 0 < Size.wordLimit) (h : ¬ Combinable (before ++ [shape]))
    (behind : List Shape) :
    combine input (before ++ shape :: behind) =
      .error (.shapeMismatch (fault input before shape)) := by
  have hrun := combineFrom_append input [] hbefore (shape :: behind)
  rw [List.nil_append, combineFrom, extend_of_not_combinable input hbefore hsize h] at hrun
  exact hrun

/-- Shapes that cannot be combined have a first one that does not fit. -/
theorem exists_first_misfit (hne : shapes ≠ []) (h : ¬ Combinable shapes) :
    ∃ before shape behind, shapes = before ++ shape :: behind ∧
      (before = [] ∨ Combinable before) ∧ ¬ Combinable (before ++ [shape]) := by
  induction shapes using List.reverseRecOn with
  | nil => exact absurd rfl hne
  | append_singleton shapes last ih =>
    by_cases hshapes : shapes = [] ∨ Combinable shapes
    · exact ⟨shapes, last, [], rfl, hshapes, h⟩
    · rw [not_or] at hshapes
      obtain ⟨before, shape, behind, rfl, hbefore, hmisfit⟩ := ih hshapes.1 hshapes.2
      exact ⟨before, shape, behind ++ [last], by simp, hbefore, hmisfit⟩

section Sizes

variable (hsizes : ∀ shape ∈ shapes, ∀ d ∈ shape, d < Size.wordLimit)
include hsizes

/-- The fault of shapes whose dimensions are sizes is that of the first that does not fit. -/
theorem combine_of_misfit (input : String) {behind : List Shape}
    (heq : shapes = before ++ shape :: behind) (hbefore : before = [] ∨ Combinable before)
    (hnot : ¬ Combinable (before ++ [shape])) :
    combine input shapes = .error (.shapeMismatch (fault input before shape)) := by
  subst heq
  refine combine_of_not_combinable input hbefore ?_ hnot behind
  cases shape with
  | nil => decide
  | cons rows row => exact hsizes (rows :: row) (by simp) rows (by simp)

theorem combine_eq_error_iff (input : String) {e : Error} (hne : shapes ≠ []) :
    combine input shapes = .error e ↔
      ∃ before shape behind, shapes = before ++ shape :: behind ∧
        (before = [] ∨ Combinable before) ∧ ¬ Combinable (before ++ [shape]) ∧
        e = .shapeMismatch (fault input before shape) := by
  constructor
  · intro h
    have hcomb : ¬ Combinable shapes := by
      intro hcomb
      rw [combine_of_combinable input hcomb] at h
      cases h
    obtain ⟨before, shape, behind, heq, hbefore, hnot⟩ := exists_first_misfit hne hcomb
    rw [combine_of_misfit hsizes input heq hbefore hnot] at h
    cases h
    exact ⟨before, shape, behind, heq, hbefore, hnot, rfl⟩
  · rintro ⟨before, shape, behind, heq, hbefore, hnot, rfl⟩
    exact combine_of_misfit hsizes input heq hbefore hnot

theorem combine_eq_ok_iff (input : String) :
    combine input shapes = .ok shape ↔ Combinable shapes ∧ shape = joint shapes := by
  constructor
  · intro h
    have hcomb : Combinable shapes := by
      by_contra hcomb
      have hne : shapes ≠ [] := by
        rintro rfl
        cases h
      obtain ⟨before, shape, behind, heq, hbefore, hnot⟩ := exists_first_misfit hne hcomb
      rw [combine_of_misfit hsizes input heq hbefore hnot] at h
      cases h
    rw [combine_of_combinable input hcomb] at h
    cases h
    exact ⟨hcomb, rfl⟩
  · rintro ⟨hcomb, rfl⟩
    exact combine_of_combinable input hcomb

theorem combine_eq_emptyBatch_iff (input : String) :
    combine input shapes = .error .emptyBatch ↔ shapes = [] := by
  constructor
  · intro h
    by_contra hne
    obtain ⟨_, _, _, _, _, _, he⟩ := (combine_eq_error_iff hsizes input hne).mp h
    cases he
  · rintro rfl
    rfl

end Sizes

/-- Shapes are combined if there are any, each has rows, all rows are alike, and there are not too
many of them; the combined shape has all rows. Without any shape the batch is empty. In all other
cases the fault is that of the first shape that does not fit to those before it. So parts may be
combined first, and the order of the shapes makes no difference. -/
theorem combine_exact (input : String) (shapes : List Shape)
    (hsizes : ∀ shape ∈ shapes, ∀ d ∈ shape, d < Size.wordLimit) :
    (∀ shape, combine input shapes = .ok shape ↔ Combinable shapes ∧ shape = joint shapes) ∧
    (combine input shapes = .error .emptyBatch ↔ shapes = []) ∧
    (∀ e, shapes ≠ [] → (combine input shapes = .error e ↔
      ∃ before shape behind, shapes = before ++ shape :: behind ∧
        (before = [] ∨ Combinable before) ∧ ¬ Combinable (before ++ [shape]) ∧
        e = .shapeMismatch (fault input before shape))) ∧
    (∀ xs ys shape, shapes = xs ++ ys → xs ≠ [] → ys ≠ [] → combine input shapes = .ok shape →
      ∃ a b, combine input xs = .ok a ∧ combine input ys = .ok b ∧
        combine input [a, b] = .ok shape) ∧
    ∀ others shape, others.Perm shapes → combine input shapes = .ok shape →
      combine input others = .ok shape := by
  refine ⟨fun shape => combine_eq_ok_iff hsizes input, combine_eq_emptyBatch_iff hsizes input,
    fun e => combine_eq_error_iff hsizes input, ?_, ?_⟩
  · rintro xs ys shape rfl hxs hys h
    obtain ⟨hcomb, rfl⟩ := (combine_eq_ok_iff hsizes input).mp h
    obtain ⟨hpair, hjoint⟩ := hcomb.joint_pair hxs hys
    refine ⟨joint xs, joint ys, combine_of_combinable input (hcomb.left hxs),
      combine_of_combinable input (hcomb.right hys), ?_⟩
    rw [combine_of_combinable input hpair, hjoint]
  · intro others shape hperm h
    obtain ⟨hcomb, rfl⟩ := (combine_eq_ok_iff hsizes input).mp h
    rw [combine_of_combinable input (hcomb.perm hperm), hcomb.joint_eq_of_perm hperm]

/-- As many rows as there can be are combined, in parts and backwards, too. One more row is too much,
and the scalar behind it is not looked at. -/
theorem brimming_exact :
    combine "x" [[9223372036854775808, 3], [0, 3], [9223372036854775807, 3]] =
      .ok [18446744073709551615, 3] ∧
    (∃ a b, combine "x" [[9223372036854775808, 3]] = .ok a ∧
      combine "x" [[0, 3], [9223372036854775807, 3]] = .ok b ∧
      combine "x" [a, b] = .ok [18446744073709551615, 3]) ∧
    combine "x" [[9223372036854775807, 3], [0, 3], [9223372036854775808, 3]] =
      .ok [18446744073709551615, 3] ∧
    combine "x" [[9223372036854775808, 3], [9223372036854775807, 3], [1, 3], []] =
      .error (.shapeMismatch (.rowOverflow "x")) := by
  obtain ⟨hok, -, -, hparts, horder⟩ := combine_exact "x"
    [[9223372036854775808, 3], [0, 3], [9223372036854775807, 3]] (by decide)
  obtain ⟨-, -, herror, -, -⟩ := combine_exact "x"
    [[9223372036854775808, 3], [9223372036854775807, 3], [1, 3], []] (by decide)
  have hall := (hok [18446744073709551615, 3]).mpr ⟨by decide, by decide⟩
  refine ⟨hall, hparts _ _ _ rfl (by simp) (by simp) hall, ?_, ?_⟩
  · exact horder _ _ (by decide) hall
  · exact (herror _ (by simp)).mpr ⟨[[9223372036854775808, 3], [9223372036854775807, 3]], [1, 3],
      [[]], rfl, .inr (by decide), by decide, by decide⟩

end DeviceBatch.Shape
