import Mathlib.Data.Int.ModEq
import Mathlib.Tactic.LinearCombination
import DeviceBatch.Proofs.Rows

/-!
# Values as bytes

Typed data is moved as bytes, so what is done to the bytes has to mean something for the values. The
bytes of a list of values are those of its values one after the other, least significant first, and
the values are read back from them. Reading ignores a last part that is shorter than a value, and
takes whole values apart from what comes behind them: it makes no difference whether bytes are put
together or cut out before they are read or after (`ElementType.codec_exact`).
-/

namespace DeviceBatch

namespace LittleEndian

/-- The digit with number `k`. -/
theorem getElem?_digits {w k : Nat} (h : k < w) (n : Nat) :
    (digits w n)[k]? = some (UInt8.ofNat (n / 256 ^ k)) := by
  induction w generalizing n k with
  | zero => exact absurd h (Nat.not_lt_zero k)
  | succ w ih =>
    cases k with
    | zero => rw [digits, List.getElem?_cons_zero, Nat.pow_zero, Nat.div_one]
    | succ k =>
      rw [digits, List.getElem?_cons_succ, ih (Nat.lt_of_succ_lt_succ h), Nat.div_div_eq_div_mul,
        ← Nat.pow_succ']

end LittleEndian

namespace ElementType

variable (t : ElementType)

/-! ## Bytes of values -/

/-- The integer that a value stands for differs from its bit pattern by whole turns. -/
theorem toInt_modEq (x : t.Value) : t.toInt x ≡ x.toNat [ZMOD 256 ^ t.width] := by
  have hturn : ((2 ^ (8 * t.width) : Nat) : Int) = 256 ^ t.width := by
    rw [Nat.pow_mul]
    push_cast
    rfl
  unfold toInt
  split
  · rw [BitVec.toInt_eq_toNat_bmod, hturn.symm]
    exact Int.bmod_emod
  · exact Int.ModEq.refl _

/-- Integers that differ by whole turns have the same digits below that. -/
theorem digit_congr {w k : Nat} {a b : Int} (hk : k < w) (h : a ≡ b [ZMOD 256 ^ w]) :
    a / 256 ^ k % 256 = b / 256 ^ k % 256 := by
  obtain ⟨q, hq⟩ := h.dvd
  -- Divided by `256 ^ k` the difference is still a multiple of 256.
  have hsplit : (256 : Int) ^ w = 256 ^ k * (256 * 256 ^ (w - k - 1)) := by
    rw [← pow_succ', ← pow_add]
    congr 1
    omega
  have hb : b = a + 256 ^ k * (256 * (256 ^ (w - k - 1) * q)) := by
    rw [hsplit] at hq
    linear_combination hq
  rw [hb, Int.add_mul_ediv_left _ _ (pow_ne_zero k (by decide)), Int.add_mul_emod_self_left]

/-- The byte with number `k` of a value is the digit with that number of the integer that it stands
for, whether that is negative or not. -/
theorem getElem?_bytesOf (x : t.Value) {k : Nat} (h : k < t.width) :
    (t.bytesOf x)[k]?.map (fun b => (b.toNat : Int)) = some (t.toInt x / 256 ^ k % 256) := by
  rw [bytesOf, LittleEndian.getElem?_digits h, Option.map_some, digit_congr h (t.toInt_modEq x),
    UInt8.toNat_ofNat']
  push_cast
  rfl

/-- The values stand one after the other, each in its width. -/
theorem getElem?_encode {xs : List t.Value} {i k : Nat} (hi : i < xs.length) (hk : k < t.width) :
    (t.encode xs)[i * t.width + k]? = (t.bytesOf xs[i])[k]? := by
  induction xs generalizing i with
  | nil => exact absurd hi (Nat.not_lt_zero i)
  | cons x xs ih =>
    have hcons : t.encode (x :: xs) = t.bytesOf x ++ t.encode xs := List.flatMap_cons
    have hlen := t.length_bytesOf x
    rw [hcons]
    cases i with
    | zero =>
      rw [Nat.zero_mul, Nat.zero_add, List.getElem?_append_left (by omega)]
      rfl
    | succ i =>
      rw [Nat.succ_mul, List.getElem?_append_right (by omega), List.getElem_cons_succ,
        ← ih (Nat.lt_of_succ_lt_succ hi)]
      congr 1
      omega

/-! ## Values of bytes -/

/-- Reading values is mapping rows of bytes, each to one value. -/
theorem decodeCount_eq_mapRows (n : Nat) (bytes : List UInt8) :
    t.decodeCount n bytes = mapRows (fun row => [t.valueOf row]) t.width n bytes := by
  induction n generalizing bytes with
  | zero => rfl
  | succ n ih =>
    rw [decodeCount, mapRows, ih]
    rfl

@[simp] theorem length_decode (bytes : List UInt8) :
    (t.decode bytes).length = bytes.length / t.width := by
  have hcount : ∀ n bytes, (t.decodeCount n bytes).length = n := by
    intro n
    induction n with
    | zero => exact fun _ => rfl
    | succ n ih => exact fun bytes => congrArg (· + 1) (ih _)
  exact hcount _ _

/-- Whole values are read as if nothing came behind them, and what comes behind them as if nothing
came before. -/
theorem decode_append {as : List UInt8} (h : t.width ∣ as.length) (bs : List UInt8) :
    t.decode (as ++ bs) = t.decode as ++ t.decode bs := by
  obtain ⟨n, hn⟩ := h
  have hcount : (as ++ bs).length / t.width = n + bs.length / t.width := by
    rw [List.length_append, hn, Nat.mul_add_div t.width_pos]
  unfold decode
  rw [hcount, hn, Nat.mul_div_cancel_left n t.width_pos, decodeCount_eq_mapRows,
    mapRows_append (by rw [hn, Nat.mul_comm]), ← decodeCount_eq_mapRows, ← decodeCount_eq_mapRows]

/-- Less than a value is nothing. -/
theorem decode_of_lt {bytes : List UInt8} (h : bytes.length < t.width) : t.decode bytes = [] := by
  rw [← List.length_eq_zero_iff, length_decode, Nat.div_eq_of_lt h]

/-- Bytes that are gathered are read part by part. -/
theorem decode_flatten {parts : List (List UInt8)} (h : ∀ part ∈ parts, t.width ∣ part.length) :
    t.decode parts.flatten = parts.flatMap t.decode := by
  induction parts with
  | nil => exact t.decode_of_lt t.width_pos
  | cons part rest ih =>
    rw [List.forall_mem_cons] at h
    rw [List.flatten_cons, decode_append t h.1, ih h.2, List.flatMap_cons]

/-- Bytes can be cut after whole values. -/
theorem decode_cut {bytes : List UInt8} {n : Nat} (h : n * t.width ≤ bytes.length) :
    t.decode bytes = t.decode (bytes.take (n * t.width)) ++ t.decode (bytes.drop (n * t.width)) ∧
      (t.decode (bytes.take (n * t.width))).length = n := by
  have hlen : (bytes.take (n * t.width)).length = n * t.width := List.length_take_of_le h
  constructor
  · rw [← decode_append t (by rw [hlen]; exact Nat.dvd_mul_left ..), List.take_append_drop]
  · rw [length_decode, hlen, Nat.mul_div_cancel n t.width_pos]

/-- There are no more values than the bytes have room for. -/
theorem length_decode_le {bytes : List UInt8} {n : Nat} (h : bytes.length ≤ n * t.width) :
    (t.decode bytes).length ≤ n := by
  rw [length_decode]
  exact Nat.div_le_of_le_mul (Nat.mul_comm .. ▸ h)

theorem decode_drop (bytes : List UInt8) (n : Nat) :
    t.decode (bytes.drop (n * t.width)) = (t.decode bytes).drop n := by
  rcases Nat.le_total (n * t.width) bytes.length with h | h
  · obtain ⟨hcut, hlen⟩ := t.decode_cut h
    rw [hcut, List.drop_left' hlen]
  · rw [List.drop_eq_nil_of_le h, List.drop_eq_nil_of_le (t.length_decode_le h)]
    exact t.decode_of_lt t.width_pos

theorem decode_take (bytes : List UInt8) (n : Nat) :
    t.decode (bytes.take (n * t.width)) = (t.decode bytes).take n := by
  rcases Nat.le_total (n * t.width) bytes.length with h | h
  · obtain ⟨hcut, hlen⟩ := t.decode_cut h
    rw [hcut, List.take_left' hlen]
  · rw [List.take_of_length_le h, List.take_of_length_le (t.length_decode_le h)]

/-- The values that were read have the bytes that they were read from, without the part that is
shorter than a value. -/
theorem encode_decode_eq_take (bytes : List UInt8) :
    t.encode (t.decode bytes) = bytes.take (bytes.length / t.width * t.width) := by
  have hle : bytes.length / t.width * t.width ≤ bytes.length := Nat.div_mul_le_self ..
  have hwhole : t.decode (bytes.take (bytes.length / t.width * t.width)) = t.decode bytes := by
    rw [decode_take, List.take_of_length_le (le_of_eq (t.length_decode bytes))]
  rw [← hwhole, encode_decode t (List.length_take_of_le hle)]

/-! ## All laws -/

/-- Values of every type and their bytes. Values are read back from their bytes, which are the
digits of the integers they stand for, least significant first; bytes are those of the values read
from them, up to the last whole value; and whole values that are gathered or cut out as bytes are
the values gathered or cut out. -/
theorem codec_exact (t : ElementType) :
    (∀ xs : List t.Value, t.decode (t.encode xs) = xs ∧
      (t.encode xs).length = t.width * xs.length ∧
      ∀ i (hi : i < xs.length), ∀ k < t.width,
        (t.encode xs)[i * t.width + k]?.map (fun b => (b.toNat : Int)) =
          some (t.toInt xs[i] / 256 ^ k % 256)) ∧
    (∀ bs : List UInt8, t.encode (t.decode bs) = bs.take (bs.length / t.width * t.width)) ∧
    (∀ as bs : List UInt8, t.width ∣ as.length →
      t.decode (as ++ bs) = t.decode as ++ t.decode bs) ∧
    (∀ parts : List (List UInt8), (∀ part ∈ parts, t.width ∣ part.length) →
      t.decode parts.flatten = parts.flatMap t.decode) ∧
    ∀ (bs : List UInt8) (start count : Nat),
      t.decode ((bs.drop (start * t.width)).take (count * t.width)) =
        ((t.decode bs).drop start).take count := by
  refine ⟨fun xs => ⟨t.decode_encode xs, ?_, fun i hi k hk => ?_⟩, t.encode_decode_eq_take,
    fun as bs h => t.decode_append h bs, fun parts h => t.decode_flatten h,
    fun bs start count => ?_⟩
  · rw [length_encode, Nat.mul_comm]
  · rw [getElem?_encode t hi hk, getElem?_bytesOf t _ hk]
  · rw [decode_take, decode_drop]

/-- A negative value, and at the end a byte that is too little for another value. -/
theorem leftover_codec_exact :
    int16.width ∣ ([254, 255] : List UInt8).length ∧
      int16.decode ([254, 255] ++ [2, 1, 9]) = int16.decode [254, 255] ++ int16.decode [2, 1, 9] ∧
      int16.decode [254, 255] = [int16.ofInt (-2)] ∧
      int16.encode (int16.decode [2, 1, 9]) = [2, 1] := by
  obtain ⟨-, hcut, happend, -⟩ := codec_exact int16
  exact ⟨by decide, happend _ _ (by decide), by decide, hcut [2, 1, 9]⟩

end ElementType

end DeviceBatch
