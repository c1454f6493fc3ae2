import Mathlib.Algebra.BigOperators.Group.List.Basic
import Mathlib.Algebra.BigOperators.Ring.List
import Mathlib.Algebra.Ring.Nat
import DeviceBatch.Batch
import DeviceBatch.Proofs.Memory

/-!
# Rows

A model that treats the rows of its input one by one gives to each request what it would give to
that request alone (`mapRows_flatten`).
-/

namespace DeviceBatch

section Rows

variable {α β : Type} {f : List α → List β} {width width' : Nat}

/-- The rows of a list, mapped one by one. -/
def mapRows (f : List α → List β) (width : Nat) : Nat → List α → List β
  | 0, _ => []
  | count + 1, xs => f (xs.take width) ++ mapRows f width count (xs.drop width)

theorem mapRows_append {m : Nat} {xs : List α} (h : xs.length = m * width) (n : Nat)
    (ys : List α) :
    mapRows f width (m + n) (xs ++ ys) = mapRows f width m xs ++ mapRows f width n ys := by
  induction m generalizing xs with
  | zero =>
    rw [Nat.zero_mul] at h
    rw [List.length_eq_zero_iff.mp h, Nat.zero_add]
    rfl
  | succ m ih =>
    rw [Nat.succ_mul] at h
    have hwidth : width ≤ xs.length := by omega
    rw [show m + 1 + n = m + n + 1 by omega, mapRows, mapRows,
      List.take_append_of_le_length hwidth, List.drop_append_of_le_length hwidth,
      ih (by rw [List.length_drop]; omega), List.append_assoc]

theorem length_mapRows (hf : ∀ row, row.length = width → (f row).length = width') {n : Nat}
    {xs : List α} (h : xs.length = n * width) : (mapRows f width n xs).length = n * width' := by
  induction n generalizing xs with
  | zero => rw [Nat.zero_mul]; rfl
  | succ n ih =>
    rw [Nat.succ_mul] at h
    rw [mapRows, List.length_append, hf _ (by rw [List.length_take]; omega),
      ih (by rw [List.length_drop]; omega), Nat.succ_mul, Nat.add_comm]

/-- Blocks of rows one behind the other are mapped block by block. -/
theorem mapRows_flatten {rows : List Nat} {blocks : List (List α)}
    (h : List.Forall₂ (fun k block => block.length = k * width) rows blocks) :
    mapRows f width rows.sum blocks.flatten =
      (List.zipWith (mapRows f width) rows blocks).flatten := by
  induction h with
  | nil => rfl
  | cons hk _ ih =>
    rw [List.sum_cons, List.flatten_cons, mapRows_append hk, ih]
    rfl

/-- A block is found behind the blocks before it. -/
theorem take_drop_flatten {blocks : List (List α)} {i : Nat} (h : i < blocks.length) :
    (blocks.flatten.drop ((blocks.map List.length).take i).sum).take blocks[i].length =
      blocks[i] := by
  rw [List.drop_sum_flatten, List.drop_eq_getElem_cons h, List.flatten_cons, List.take_left']
  rfl

/-- So it is with blocks of rows, whose lengths are known from their numbers of rows. -/
theorem take_drop_flatten_rows {blocks : List (List α)} {rows : List Nat} {size : Nat}
    (h : blocks.map List.length = rows.map (· * size)) {i : Nat} (hi : i < blocks.length) :
    (blocks.flatten.drop ((rows.take i).sum * size)).take (rows.getD i 0 * size) = blocks[i] := by
  have hcut := take_drop_flatten hi
  have hget := congrArg (·[i]?) h
  rw [List.getElem?_map, List.getElem?_eq_getElem hi, List.getElem?_map] at hget
  obtain ⟨k, hk, hlen⟩ := Option.map_eq_some_iff.mp hget.symm
  rw [h, ← List.map_take, List.sum_map_mul_right, List.map_id', ← hlen] at hcut
  rw [List.getD_eq_getElem?_getD, hk, Option.getD_some]
  exact hcut

end Rows

/-! ## Digits to base 256 -/

namespace LittleEndian

theorem value_lt (bs : List UInt8) : value bs < 256 ^ bs.length := by
  induction bs with
  | nil => simp [value]
  | cons b bs ih =>
    have hb := b.toNat_lt
    simp only [value, List.length_cons, Nat.pow_succ]
    omega

theorem value_digits (w n : Nat) : value (digits w n) = n % 256 ^ w := by
  induction w generalizing n with
  | zero => simp [digits, value, Nat.mod_one]
  | succ w ih =>
    rw [digits, value, ih, Nat.pow_succ', Nat.mod_mul]
    simp

theorem digits_value (bs : List UInt8) : digits bs.length (value bs) = bs := by
  induction bs with
  | nil => rfl
  | cons b bs ih =>
    have hb := b.toNat_lt
    have hdiv : (b.toNat + 256 * value bs) / 256 = value bs := by omega
    have hmod : (b.toNat + 256 * value bs) % 256 = b.toNat := by omega
    rw [List.length_cons, digits, value, hdiv, ih]
    congr 1
    rw [← UInt8.toNat_inj, UInt8.toNat_ofNat', hmod]

end LittleEndian

/-! ## Values and their bytes -/

namespace ElementType

variable (t : ElementType)

theorem valueOf_bytesOf (x : t.Value) : t.valueOf (t.bytesOf x) = x := by
  unfold valueOf bytesOf
  rw [LittleEndian.value_digits]
  apply BitVec.eq_of_toNat_eq
  have hlt : x.toNat < 256 ^ t.width := by
    have := x.isLt
    rwa [Nat.pow_mul] at this
  have hpow : (2 : Nat) ^ (8 * t.width) = 256 ^ t.width := by rw [Nat.pow_mul]
  rw [BitVec.toNat_ofNat, hpow, Nat.mod_eq_of_lt (Nat.mod_lt _ (Nat.pow_pos (by decide))),
    Nat.mod_eq_of_lt hlt]

theorem bytesOf_valueOf {bytes : List UInt8} (h : bytes.length = t.width) :
    t.bytesOf (t.valueOf bytes) = bytes := by
  have hlt := LittleEndian.value_lt bytes
  have hpow : (2 : Nat) ^ (8 * t.width) = 256 ^ bytes.length := by rw [h, Nat.pow_mul]
  unfold valueOf bytesOf
  rw [BitVec.toNat_ofNat, hpow, Nat.mod_eq_of_lt hlt, ← h, LittleEndian.digits_value]

theorem decodeCount_encode (xs : List t.Value) :
    t.decodeCount xs.length (t.encode xs) = xs := by
  induction xs with
  | nil => rfl
  | cons x xs ih =>
    have hlen := t.length_bytesOf x
    have hcons : t.encode (x :: xs) = t.bytesOf x ++ t.encode xs := List.flatMap_cons
    rw [hcons, List.length_cons, decodeCount, List.take_left' hlen, List.drop_left' hlen, ih,
      valueOf_bytesOf]

/-- Values are read back from their bytes. -/
theorem decode_encode (xs : List t.Value) : t.decode (t.encode xs) = xs := by
  rw [decode, length_encode, Nat.mul_div_cancel _ t.width_pos, decodeCount_encode]

theorem encode_decodeCount {n : Nat} {bytes : List UInt8} (h : bytes.length = n * t.width) :
    t.encode (t.decodeCount n bytes) = bytes := by
  induction n generalizing bytes with
  | zero =>
    rw [Nat.zero_mul] at h
    rw [List.length_eq_zero_iff.mp h]
    rfl
  | succ n ih =>
    rw [Nat.succ_mul] at h
    have htake : (bytes.take t.width).length = t.width := by rw [List.length_take]; omega
    rw [decodeCount, encode, List.flatMap_cons, bytesOf_valueOf t htake]
    have hrest : t.encode (t.decodeCount n (bytes.drop t.width)) = bytes.drop t.width :=
      ih (by rw [List.length_drop]; omega)
    rw [encode] at hrest
    rw [hrest, List.take_append_drop]

/-- Whole values have the bytes that they were read from. -/
theorem encode_decode {n : Nat} {bytes : List UInt8} (h : bytes.length = n * t.width) :
    t.encode (t.decode bytes) = bytes := by
  rw [decode, h, Nat.mul_div_cancel _ t.width_pos, encode_decodeCount t h]

theorem encode_flatten (blocks : List (List t.Value)) :
    t.encode blocks.flatten = (blocks.map t.encode).flatten := by
  induction blocks with
  | nil => rfl
  | cons block rest ih =>
    rw [List.flatten_cons, List.map_cons, List.flatten_cons, ← ih]
    exact List.flatMap_append

end ElementType

/-! ## Combined shapes -/

namespace Shape

theorem combineFrom_eq_ok {input : String} {shapes : List Shape} {index total : Nat}
    {row shape : Shape} (h : combineFrom input index (some (total, row)) shapes = .ok shape) :
    ∃ rows : List Nat, shapes = rows.map (· :: row) ∧ shape = (total + rows.sum) :: row := by
  induction shapes generalizing index total with
  | nil =>
    cases h
    exact ⟨[], rfl, rfl⟩
  | cons first rest ih =>
    unfold combineFrom at h
    split at h
    · cases h
    · next next hext =>
      cases first with
      | nil => cases hext
      | cons k row' =>
        unfold extend at hext
        dsimp only at hext
        split at hext
        · cases hext
        -- The rows of the next shape have the shape of the rows so far, and their number is added.
        · next hrow =>
          split at hext
          · next total' hadd =>
            cases hext
            obtain ⟨-, rfl⟩ := Size.add?_eq_some_iff.mp hadd
            obtain ⟨rows, rfl, rfl⟩ := ih h
            refine ⟨k :: rows, ?_, ?_⟩
            · rw [List.map_cons, Decidable.not_not.mp hrow]
            · rw [List.sum_cons, Nat.add_assoc]
          · cases hext

/-- Shapes that can be combined differ in their numbers of rows only. -/
theorem combine_eq_ok {input : String} {shapes : List Shape} {shape : Shape}
    (h : combine input shapes = .ok shape) :
    ∃ (rows : List Nat) (row : Shape), shapes = rows.map (· :: row) ∧ shape = rows.sum :: row := by
  unfold combine at h
  cases shapes with
  | nil => cases h
  | cons first rest =>
    cases first with
    | nil => cases h
    | cons k row =>
      obtain ⟨rows, rfl, rfl⟩ := combineFrom_eq_ok (show combineFrom input 1 (some (k, row)) rest =
        .ok shape from h)
      exact ⟨k :: rows, row, rfl, by rw [List.sum_cons]⟩

end Shape

end DeviceBatch
