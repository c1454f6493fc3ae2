/-!
# Element types and their bytes

An element is a bit pattern: nothing here does arithmetic on elements, they are only stored, moved
and read back. A value of a type of width `w` is a word of `8 * w` bits, and its bytes are the
digits of that word to base 256, least significant first.

* `ElementType.encode` writes a list of values, `ElementType.decode` reads one and leaves out a
  last part that is shorter than a value.
* `ElementType.ofInt` and `ElementType.toInt` are the values as integers: signed for the signed
  integer types, the unsigned bit pattern for all others.
-/

namespace DeviceBatch

/-- The types of element that a buffer may hold. -/
inductive ElementType where
  | uint8 | int8 | uint16 | int16 | uint32 | int32 | uint64 | int64
  | float32 | float64 | float16 | bfloat16
  deriving DecidableEq, Repr

/-! ## Digits to base 256 -/

namespace LittleEndian

/-- The lowest `w` digits of `n`, least significant first. -/
def digits : (w n : Nat) → List UInt8
  | 0, _ => []
  | w + 1, n => UInt8.ofNat n :: digits w (n / 256)

/-- The number with the given digits. -/
def value : List UInt8 → Nat
  | [] => 0
  | b :: bs => b.toNat + 256 * value bs

@[simp] theorem length_digits (w n : Nat) : (digits w n).length = w := by
  induction w generalizing n with
  | zero => rfl
  | succ w ih => simp [digits, ih]

end LittleEndian

/-! ## The types -/

namespace ElementType

/-- Every element type, integers first. -/
def all : List ElementType :=
  [uint8, int8, uint16, int16, uint32, int32, uint64, int64, float32, float64, float16, bfloat16]

/-- The name used in events and messages. -/
def name : ElementType → String
  | uint8 => "uint8"
  | int8 => "int8"
  | uint16 => "uint16"
  | int16 => "int16"
  | uint32 => "uint32"
  | int32 => "int32"
  | uint64 => "uint64"
  | int64 => "int64"
  | float32 => "fp32"
  | float64 => "fp64"
  | float16 => "fp16"
  | bfloat16 => "bf16"

/-- The type of that name. -/
def ofName? (name : String) : Option ElementType := all.find? fun t => t.name == name

/-- The number of bytes of one element, which is also its alignment. -/
def width : ElementType → Nat
  | uint8 | int8 => 1
  | uint16 | int16 | float16 | bfloat16 => 2
  | uint32 | int32 | float32 => 4
  | uint64 | int64 | float64 => 8

/-- The values are read as signed integers. -/
def signed : ElementType → Bool
  | int8 | int16 | int32 | int64 => true
  | _ => false

/-- A value of the type: a word of its width. -/
abbrev Value (t : ElementType) : Type := BitVec (8 * t.width)

theorem width_pos (t : ElementType) : 0 < t.width := by
  cases t <;> decide

/-! ## Values as integers -/

/-- The value with the given integer, reduced to the width. -/
def ofInt (t : ElementType) (n : Int) : t.Value := BitVec.ofInt _ n

/-- The integer that a value stands for. -/
def toInt (t : ElementType) (x : t.Value) : Int :=
  if t.signed then BitVec.toInt x else Int.ofNat (BitVec.toNat x)

theorem ofInt_toInt (t : ElementType) (x : t.Value) : t.ofInt (t.toInt x) = x := by
  unfold ofInt toInt
  split
  · exact BitVec.ofInt_toInt
  · rw [Int.ofNat_eq_natCast, BitVec.ofInt_natCast, BitVec.ofNat_toNat, BitVec.setWidth_eq]

/-! ## Values as bytes -/

/-- The bytes of one value. -/
def bytesOf (t : ElementType) (x : t.Value) : List UInt8 := LittleEndian.digits t.width x.toNat

/-- The value with the given bytes. -/
def valueOf (t : ElementType) (bytes : List UInt8) : t.Value :=
  BitVec.ofNat _ (LittleEndian.value bytes)

/-- The bytes of a list of values, one value after the other. -/
def encode (t : ElementType) (xs : List t.Value) : List UInt8 := xs.flatMap t.bytesOf

/-- The first `count` values of a list of bytes. -/
def decodeCount (t : ElementType) : Nat → List UInt8 → List t.Value
  | 0, _ => []
  | count + 1, bytes =>
    t.valueOf (bytes.take t.width) :: decodeCount t count (bytes.drop t.width)

/-- All values that the bytes hold in full; a shorter rest is left out. -/
def decode (t : ElementType) (bytes : List UInt8) : List t.Value :=
  t.decodeCount (bytes.length / t.width) bytes

@[simp] theorem length_bytesOf (t : ElementType) (x : t.Value) : (t.bytesOf x).length = t.width :=
  LittleEndian.length_digits ..

theorem length_encode (t : ElementType) (xs : List t.Value) :
    (t.encode xs).length = xs.length * t.width := by
  induction xs with
  | nil => simp [encode]
  | cons x xs ih =>
    have : (t.encode (x :: xs)).length = t.width + (t.encode xs).length := by simp [encode]
    rw [this, ih, List.length_cons, Nat.succ_mul, Nat.add_comm]

end ElementType

end DeviceBatch
