import Blake2s.Standard.Digest
import Mathlib.Algebra.Order.Ring.Nat
import Mathlib.Tactic.Ring

set_option autoImplicit false

/-! # Byte strings as numbers

The bytes of a string are the digits to base 256 of one number, the least significant first. Strings
of one length are told apart by it (`Standard.littleEndian_inj`), and to cut a string is to divide the
number. -/

namespace Blake2s.Standard

@[simp] theorem littleEndian_nil : littleEndian [] = 0 := rfl

theorem littleEndian_cons (byte : UInt8) (rest : Bytes) :
    littleEndian (byte :: rest) = byte.toNat + 256 * littleEndian rest := rfl

theorem littleEndian_append (xs ys : Bytes) :
    littleEndian (xs ++ ys) = littleEndian xs + 256 ^ xs.length * littleEndian ys := by
  induction xs with
  | nil => rw [List.nil_append, List.length_nil, Nat.pow_zero, Nat.one_mul, littleEndian_nil,
      Nat.zero_add]
  | cons x xs ih =>
    rw [List.cons_append, littleEndian_cons, littleEndian_cons, ih, List.length_cons, Nat.pow_succ]
    ring

@[simp] theorem littleEndian_zeros (n : Nat) : littleEndian (Bytes.zeros n) = 0 := by
  induction n with
  | zero => rfl
  | succ n ih =>
    change 0 + 256 * littleEndian (Bytes.zeros n) = 0
    rw [ih]

@[simp] theorem littleEndian_padTo (n : Nat) (bytes : Bytes) :
    littleEndian (bytes.padTo n) = littleEndian bytes := by
  rw [Bytes.padTo, littleEndian_append, littleEndian_zeros, Nat.mul_zero, Nat.add_zero]

theorem littleEndian_drop (n : Nat) (bytes : Bytes) :
    littleEndian (bytes.drop n) = littleEndian bytes / 256 ^ n := by
  induction n generalizing bytes with
  | zero => rw [List.drop_zero, Nat.pow_zero, Nat.div_one]
  | succ n ih =>
    cases bytes with
    | nil => rw [List.drop_nil, littleEndian_nil, Nat.zero_div]
    | cons byte rest =>
      have small := byte.toNat_lt
      have digit : (byte.toNat + 256 * littleEndian rest) / 256 = littleEndian rest := by omega
      rw [List.drop_succ_cons, ih, littleEndian_cons, Nat.pow_succ', ← Nat.div_div_eq_div_mul, digit]

theorem littleEndian_take (n : Nat) (bytes : Bytes) :
    littleEndian (bytes.take n) = littleEndian bytes % 256 ^ n := by
  induction n generalizing bytes with
  | zero => rw [List.take_zero, littleEndian_nil, Nat.pow_zero, Nat.mod_one]
  | succ n ih =>
    cases bytes with
    | nil => rw [List.take_nil, littleEndian_nil, Nat.zero_mod]
    | cons byte rest =>
      have small := byte.toNat_lt
      have first : (byte.toNat + 256 * littleEndian rest) % 256 = byte.toNat := by omega
      have later : (byte.toNat + 256 * littleEndian rest) / 256 = littleEndian rest := by omega
      rw [List.take_succ_cons, littleEndian_cons, ih, littleEndian_cons, Nat.pow_succ',
        Nat.mod_mul, first, later]

theorem littleEndian_inj {xs ys : Bytes} (length : xs.length = ys.length)
    (same : littleEndian xs = littleEndian ys) : xs = ys := by
  induction xs generalizing ys with
  | nil => exact (List.length_eq_zero_iff.mp length.symm).symm
  | cons x xs ih =>
    cases ys with
    | nil => exact nomatch length
    | cons y ys =>
      rw [littleEndian_cons, littleEndian_cons] at same
      have hx := x.toNat_lt
      have hy := y.toNat_lt
      have first : x = y := UInt8.toNat_inj.mp (by omega)
      rw [first, ih (Nat.succ.inj length) (by omega)]

/-- The bytes of a word spell it. -/
theorem littleEndian_wordBytes (w : Word32) : littleEndian (wordBytes w) = w.toNat := by
  have small : w.toNat < 2 ^ 32 := w.isLt
  simp only [wordBytes, show List.range 4 = [0, 1, 2, 3] from rfl, List.map_cons, List.map_nil,
    littleEndian_cons, littleEndian_nil, UInt8.toNat_ofNat']
  omega

theorem pow_bytes (n : Nat) : 256 ^ n = 2 ^ (8 * n) := by
  rw [Nat.pow_mul]

/-- A word of a string is read off its number. -/
theorem toNat_wordAt (bytes : Bytes) (i : Nat) :
    (wordAt bytes i).toNat = littleEndian bytes / 2 ^ (32 * i) % 2 ^ 32 := by
  have start : 8 * (4 * i) = 32 * i := by omega
  rw [wordAt, BitVec.toNat_ofNat, littleEndian_take, littleEndian_drop, pow_bytes (4 * i), start]
  exact Nat.mod_mod _ _

/-- The padding of a block does not show in its words, nor does what comes after it. -/
theorem toNat_wordAt_blockAt (data : Bytes) (i : Nat) {j : Nat} (hj : j < 16) :
    (wordAt (blockAt data i) j).toNat
      = littleEndian data / 2 ^ (512 * i) / 2 ^ (32 * j) % 2 ^ 32 := by
  have start : 8 * (64 * i) = 512 * i := by omega
  have size : 2 ^ (8 * 64) = 2 ^ (32 * j) * 2 ^ (512 - 32 * j) := by
    rw [← Nat.pow_add, Nat.add_sub_cancel' (by omega)]
  have inside : 2 ^ 32 ∣ 2 ^ (512 - 32 * j) := Nat.pow_dvd_pow 2 (by omega)
  rw [toNat_wordAt, blockAt, littleEndian_padTo, littleEndian_take, littleEndian_drop,
    pow_bytes (64 * i), start, pow_bytes 64, size, Nat.mod_mul_right_div_self,
    Nat.mod_mod_of_dvd _ inside]

end Blake2s.Standard
