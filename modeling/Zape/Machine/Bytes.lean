import Mathlib.Data.Nat.Bitwise
import Mathlib.Tactic.Ring

/-! Bytes and the integers they spell, least or most significant byte first. -/
namespace Machine

abbrev Byte := BitVec 8

/-- The number whose base-256 digits are the bytes, the first byte being the least significant. -/
def littleEndian : List Byte → Nat
  | [] => 0
  | byte :: bytes => byte.toNat + 256 * littleEndian bytes

def bigEndian (bytes : List Byte) : Nat := littleEndian bytes.reverse

def littleEndianBytes : Nat → Nat → List Byte
  | 0, _ => []
  | count + 1, value => BitVec.ofNat 8 value :: littleEndianBytes count (value / 256)

def bigEndianBytes (count value : Nat) : List Byte := (littleEndianBytes count value).reverse

@[simp] theorem littleEndianBytes_length (count value : Nat) :
    (littleEndianBytes count value).length = count := by
  induction count generalizing value with
  | zero => rfl
  | succ count ih => simp [littleEndianBytes, ih]

@[simp] theorem bigEndianBytes_length (count value : Nat) :
    (bigEndianBytes count value).length = count := by
  simp [bigEndianBytes]

theorem littleEndian_append (left right : List Byte) :
    littleEndian (left ++ right) = littleEndian left + 256 ^ left.length * littleEndian right := by
  induction left with
  | nil => simp [littleEndian]
  | cons byte left ih =>
    simp only [List.cons_append, littleEndian, ih, List.length_cons, Nat.pow_succ]
    ring

theorem littleEndian_lt (bytes : List Byte) : littleEndian bytes < 256 ^ bytes.length := by
  induction bytes with
  | nil => simp [littleEndian]
  | cons byte bytes ih =>
    have bound := byte.isLt
    simp only [littleEndian, List.length_cons, Nat.pow_succ]
    omega

theorem littleEndian_littleEndianBytes {count value : Nat} (bound : value < 256 ^ count) :
    littleEndian (littleEndianBytes count value) = value := by
  induction count generalizing value with
  | zero => simp only [Nat.pow_zero] at bound; simp only [littleEndianBytes, littleEndian]; omega
  | succ count ih =>
    have quotient : value / 256 < 256 ^ count := by
      rw [Nat.pow_succ] at bound
      omega
    simp only [littleEndianBytes, littleEndian, ih quotient, BitVec.toNat_ofNat]
    omega

theorem littleEndianBytes_littleEndian (bytes : List Byte) :
    littleEndianBytes bytes.length (littleEndian bytes) = bytes := by
  induction bytes with
  | nil => rfl
  | cons byte bytes ih =>
    have bound := byte.isLt
    have quotient : (byte.toNat + 256 * littleEndian bytes) / 256 = littleEndian bytes := by omega
    simp only [littleEndian, List.length_cons, littleEndianBytes, quotient, ih]
    congr 1
    apply BitVec.eq_of_toNat_eq
    simp only [BitVec.toNat_ofNat]
    omega

theorem bigEndian_bigEndianBytes {count value : Nat} (bound : value < 256 ^ count) :
    bigEndian (bigEndianBytes count value) = value := by
  rw [bigEndian, bigEndianBytes, List.reverse_reverse, littleEndian_littleEndianBytes bound]

/-- The bytes of an integer in the opposite order. -/
def byteSwap {count : Nat} (value : BitVec (8 * count)) : BitVec (8 * count) :=
  BitVec.ofNat (8 * count) (bigEndian (littleEndianBytes count value.toNat))

theorem pow_bytes (count : Nat) : 256 ^ count = 2 ^ (8 * count) := by
  rw [Nat.pow_mul]

theorem byteSwap_littleEndian {count : Nat} {value : BitVec (8 * count)} {bytes : List Byte}
    (length : bytes.length = count) (spelled : value.toNat = littleEndian bytes) :
    (byteSwap value).toNat = bigEndian bytes := by
  subst length
  have bound : bigEndian bytes < 256 ^ bytes.length := by
    simpa [bigEndian] using littleEndian_lt bytes.reverse
  rw [byteSwap, spelled, littleEndianBytes_littleEndian, BitVec.toNat_ofNat, Nat.mod_eq_of_lt]
  rwa [← pow_bytes]

/-- One more byte read above those already read. -/
theorem or_shift_littleEndian {word : BitVec 64} {bytes : List Byte} (byte : Byte)
    (short : bytes.length < 8) (spelled : word.toNat = littleEndian bytes) :
    (word ||| (byte.setWidth 64 <<< (8 * bytes.length))).toNat = littleEndian (bytes ++ [byte]) := by
  have low : word.toNat < 2 ^ (8 * bytes.length) := by
    rw [spelled, ← pow_bytes]
    exact littleEndian_lt bytes
  have top : byte.toNat * 2 ^ (8 * bytes.length) < 2 ^ 64 := by
    have bound := byte.isLt
    calc byte.toNat * 2 ^ (8 * bytes.length)
        < 2 ^ 8 * 2 ^ (8 * bytes.length) := by
          exact Nat.mul_lt_mul_of_pos_right bound (Nat.two_pow_pos _)
      _ = 2 ^ (8 + 8 * bytes.length) := (Nat.pow_add ..).symm
      _ ≤ 2 ^ 64 := Nat.pow_le_pow_right (by decide) (by omega)
  have wide : byte.toNat % 2 ^ 64 = byte.toNat := Nat.mod_eq_of_lt (by have := byte.isLt; omega)
  have shifted : (byte.setWidth 64 <<< (8 * bytes.length)).toNat = byte.toNat * 2 ^ (8 * bytes.length) := by
    rw [BitVec.toNat_shiftLeft, BitVec.toNat_setWidth, wide, Nat.shiftLeft_eq, Nat.mod_eq_of_lt top]
  rw [BitVec.toNat_or, shifted, littleEndian_append, pow_bytes, ← spelled, Nat.or_comm, Nat.mul_comm,
    ← Nat.two_pow_add_eq_or_of_lt low]
  simp only [littleEndian, Nat.mul_zero, Nat.add_zero]
  exact Nat.add_comm _ _

end Machine
