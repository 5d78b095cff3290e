import Blake2s.Compress.Generic
import Blake2s.Parameters.Basic
import Blake2s.Standard.Digest
import Mathlib.Algebra.Group.Int.Defs

set_option autoImplicit false

/-! # Words as bit vectors

The compressions that run compute on `UInt32` and put words together from bytes by shifts; the
standard computes on bit vectors and reads bytes as digits to base 256. `bits` carries one to the
other. Here are the facts that tie the two readings of bytes, the two rotations and the two writings
of a word together. -/

namespace Blake2s

/-- The words of a vector as bit vectors. -/
def bits {n : Nat} (v : Vector UInt32 n) : Vector Standard.Word32 n := v.map UInt32.toBitVec

@[simp] theorem getElem_bits {n : Nat} (v : Vector UInt32 n) (i : Nat) (hi : i < n) :
    (bits v)[i] = v[i].toBitVec := by simp [bits]

theorem get_eq_getElem {α : Type} {n : Nat} (v : Vector α n) (i : Fin n) : v.get i = v[i.val] := rfl

namespace Word

/-- The word of an integer is what is left of it modulo `2 ^ 32`, even if it is negative. -/
theorem toNat_ofInt (x : Int) : ((UInt32.ofInt x).toNat : Int) = x % 2 ^ 32 := by
  rw [UInt32.ofInt, UInt32.toNat_ofNat']
  omega

/-! ## Reading bytes -/

private theorem or_shiftLeft {n k : Nat} (b : UInt8) (hn : n < 2 ^ k) :
    n ||| b.toNat <<< k = n + 2 ^ k * b.toNat := by
  rw [Nat.or_comm, ← Nat.shiftLeft_add_eq_or_of_lt hn, Nat.shiftLeft_eq, Nat.mul_comm, Nat.add_comm]

private theorem toNat_shiftLeft {b : UInt8} {k : UInt32} (hk : k.toNat ≤ 24) :
    (b.toUInt32 <<< k).toNat = b.toNat <<< k.toNat := by
  have hb := b.toNat_lt
  have hp : 2 ^ k.toNat ≤ 2 ^ 24 := Nat.pow_le_pow_right (by decide) hk
  have hlt : b.toNat * 2 ^ k.toNat < 2 ^ 32 := by
    calc b.toNat * 2 ^ k.toNat ≤ 255 * 2 ^ 24 := Nat.mul_le_mul (by omega) hp
      _ < 2 ^ 32 := by decide
  rw [UInt32.toNat_shiftLeft, UInt8.toNat_toUInt32, Nat.mod_eq_of_lt (show k.toNat < 32 by omega),
    Nat.shiftLeft_eq, Nat.mod_eq_of_lt hlt]

/-- The bytes of a word do not overlap, so combining them is adding them. -/
theorem toNat_ofBytes (b₀ b₁ b₂ b₃ : UInt8) :
    (ofBytes b₀ b₁ b₂ b₃).toNat = Standard.littleEndian [b₀, b₁, b₂, b₃] := by
  have h₀ := b₀.toNat_lt
  have h₁ := b₁.toNat_lt
  have h₂ := b₂.toNat_lt
  rw [ofBytes, UInt32.toNat_or, UInt32.toNat_or, UInt32.toNat_or, UInt8.toNat_toUInt32,
    toNat_shiftLeft (by decide), toNat_shiftLeft (by decide), toNat_shiftLeft (by decide)]
  change b₀.toNat ||| b₁.toNat <<< 8 ||| b₂.toNat <<< 16 ||| b₃.toNat <<< 24 = _
  rw [or_shiftLeft b₁ (by omega), or_shiftLeft b₂ (by omega), or_shiftLeft b₃ (by omega)]
  simp only [Standard.littleEndian]
  omega

theorem toBitVec_ofBytes (b₀ b₁ b₂ b₃ : UInt8) :
    (ofBytes b₀ b₁ b₂ b₃).toBitVec = BitVec.ofNat 32 (Standard.littleEndian [b₀, b₁, b₂, b₃]) := by
  rw [← toNat_ofBytes, ← UInt32.toNat_toBitVec, BitVec.ofNat_toNat, BitVec.setWidth_eq]

theorem take_four_drop {bytes : Bytes} {n : Nat} (hn : n + 4 ≤ bytes.length) :
    (bytes.drop n).take 4
      = [bytes.getD n 0, bytes.getD (n + 1) 0, bytes.getD (n + 2) 0, bytes.getD (n + 3) 0] := by
  apply List.ext_getElem
  · simp only [List.length_take, List.length_drop, List.length_cons, List.length_nil]
    omega
  · intro k hk hk'
    simp only [List.length_cons, List.length_nil] at hk'
    rw [List.getElem_take, List.getElem_drop]
    match k, hk' with
    | 0, _ | 1, _ | 2, _ | 3, _ => exact List.getElem_eq_getD 0

/-- Both readings of a byte string see the same words, as far as it goes. -/
theorem wordAt_eq_toBitVec {bytes : Bytes} {i : Nat} (hi : 4 * i + 4 ≤ bytes.length) :
    Standard.wordAt bytes i = (Parameters.wordAt bytes i).toBitVec := by
  rw [Standard.wordAt, take_four_drop hi, ← toBitVec_ofBytes, Parameters.wordAt]

/-- The words of a block are those of its bytes. -/
theorem wordAt_toList (block : Block) {i : Nat} (hi : i < 16) :
    Standard.wordAt block.toList i = (block.words[i]).toBitVec := by
  have byte : ∀ j (hj : j < 64), block.toList.getD j 0 = block.get ⟨j, hj⟩ := by
    intro j hj
    rw [← List.getElem_eq_getD (h := by simpa using hj), Vector.getElem_toList]
    rfl
  rw [wordAt_eq_toBitVec (by rw [Vector.length_toList]; omega), Parameters.wordAt,
    byte _ (by omega), byte _ (by omega), byte _ (by omega), byte _ (by omega)]
  simp [Block.words]

/-! ## Writing bytes and rotating -/

private theorem toUInt8_shiftRight (w k : UInt32) (n : Nat) (hk : k.toNat = 8 * n)
    (hn : n < 4) : (w >>> k).toUInt8 = UInt8.ofNat (w.toNat / 256 ^ n) := by
  have pow : 2 ^ (8 * n) = 256 ^ n := by rw [Nat.pow_mul]
  apply UInt8.toNat_inj.mp
  rw [UInt32.toNat_toUInt8, UInt32.toNat_shiftRight, UInt8.toNat_ofNat', hk,
    Nat.mod_eq_of_lt (show 8 * n < 32 by omega), Nat.shiftRight_eq_div_pow, pow]

/-- The highest byte of a word. -/
theorem toNat_toUInt8_shiftRight (w : UInt32) : (w >>> 24).toUInt8.toNat = w.toNat / 2 ^ 24 := by
  have bound := w.toNat_lt
  rw [toUInt8_shiftRight w 24 3 rfl (by decide), UInt8.toNat_ofNat']
  omega

/-- Shifting bytes out of a word is dividing it by powers of 256. -/
theorem wordBytes_toBitVec (w : UInt32) : Standard.wordBytes w.toBitVec = toBytes w := by
  have whole : w.toUInt8 = UInt8.ofNat (w.toNat / 256 ^ 0) := by
    rw [← toUInt8_shiftRight w 0 0 rfl (by decide), UInt32.shiftRight_zero]
  rw [toBytes, whole, toUInt8_shiftRight w 8 1 rfl (by decide),
    toUInt8_shiftRight w 16 2 rfl (by decide), toUInt8_shiftRight w 24 3 rfl (by decide)]
  rfl

/-- By how much a rotation shifts to the left. -/
theorem toNat_sub_rotation {n : UInt32} (lt : n.toNat < 32) : (32 - n).toNat = 32 - n.toNat := by
  rw [UInt32.toNat_sub_of_le _ _ (UInt32.le_iff_toNat_le.mpr (Nat.le_of_lt lt))]
  rfl

/-- The two shifts of a rotation make up the rotation of the bit vector. -/
theorem toBitVec_rotateRight {w n : UInt32} (pos : 0 < n.toNat) (lt : n.toNat < 32) :
    (rotateRight w n).toBitVec = w.toBitVec.rotateRight n.toNat := by
  have left := toNat_sub_rotation lt
  rw [rotateRight, UInt32.toBitVec_or, UInt32.toBitVec_shiftRight, UInt32.toBitVec_shiftLeft,
    BitVec.rotateRight_def, Nat.mod_eq_of_lt lt]
  have amount : ∀ k : UInt32, k.toNat < 32 → (k.toBitVec % 32).toNat = k.toNat := by
    intro k hk
    rw [BitVec.toNat_umod]
    exact Nat.mod_eq_of_lt hk
  rw [BitVec.shiftLeft_eq', BitVec.ushiftRight_eq', amount n lt, amount (32 - n) (by omega), left]

end Word

end Blake2s
