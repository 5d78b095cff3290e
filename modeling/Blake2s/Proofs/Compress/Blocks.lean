import Blake2s.Proofs.Block
import Blake2s.Proofs.Compress.Columns

set_option autoImplicit false

/-! # Blocks one after the other

A batch is compressed block by block, and each block advances the counter. So block `i` is given to
F with `i + 1` increments added to the counter (`Chain.bits_compress`). F looks at its counter
modulo `2 ^ 64` only (`Standard.compress_mod`), so it does not matter that a counter wraps around.
-/

namespace Blake2s

/-! ## Counters and blocks of the standard -/

namespace Standard

/-- F reads a counter as two words. -/
theorem compress_congr {h : ChainValue} {block : Bytes} {t t' : Nat} {f₀ f₁ : Word32}
    (low : BitVec.ofNat 32 t = BitVec.ofNat 32 t')
    (high : BitVec.ofNat 32 (t / 2 ^ 32) = BitVec.ofNat 32 (t' / 2 ^ 32)) :
    compress h block t f₀ f₁ = compress h block t' f₀ f₁ := by
  have same : initialColumns h t f₀ f₁ = initialColumns h t' f₀ f₁ := by
    unfold initialColumns
    rw [low, high]
  unfold compress
  rw [same]

/-- The counter counts modulo `2 ^ 64`. -/
theorem compress_mod (h : ChainValue) (block : Bytes) (t : Nat) (f₀ f₁ : Word32) :
    compress h block (t % 2 ^ 64) f₀ f₁ = compress h block t f₀ f₁ := by
  apply compress_congr
  · apply BitVec.eq_of_toNat_eq
    rw [BitVec.toNat_ofNat, BitVec.toNat_ofNat]
    omega
  · apply BitVec.eq_of_toNat_eq
    rw [BitVec.toNat_ofNat, BitVec.toNat_ofNat]
    omega

theorem blockAt_eq_toList (data : Bytes) (i : Nat) :
    blockAt data i = (Block.ofBytes (data.drop (64 * i))).toList := by
  rw [blockAt, Block.toList_ofBytes]

/-- A block that is there as a whole is not padded. -/
theorem blockAt_of_le {data : Bytes} {i : Nat} (whole : 64 * (i + 1) ≤ data.length) :
    blockAt data i = (data.drop (64 * i)).take 64 := by
  have full : ((data.drop (64 * i)).take 64).length = 64 := by
    rw [List.length_take, List.length_drop]
    omega
  rw [blockAt, Bytes.padTo, full, Nat.sub_self, Bytes.zeros, List.replicate_zero, List.append_nil]

end Standard

/-! ## Batches -/

namespace Chain

variable (chain : Chain) (bytes : Bytes) (count : Nat)

/-- The last block of a batch comes after all the others. -/
theorem compress_succ (inc : Int) :
    chain.compress { bytes, count := count + 1, inc }
      = (chain.compress { bytes, count, inc }).absorb inc
          (Block.ofBytes (bytes.drop (64 * count))) := by
  simp only [compress, Batch.blocks]
  rw [Block.split_add, List.foldl_append, Block.split_one]
  rfl

section

variable {inc : Nat} (small : inc ≤ 2 ^ 32)

include small

/-- Every block of a batch advances the counter. -/
theorem toNat_compress_t :
    (chain.compress { bytes, count, inc }).t.toNat = (chain.t.toNat + count * inc) % 2 ^ 64 := by
  induction count with
  | zero =>
    rw [Nat.zero_mul, Nat.add_zero, Nat.mod_eq_of_lt chain.t.toNat_lt]
    rfl
  | succ count ih =>
    rw [compress_succ, absorb_t, Counter.toNat_advance _ small, ih, Nat.mod_add_mod, Nat.add_assoc,
      Nat.succ_mul]

/-- **A batch is compressed by F, block by block**, each with the counter after its own increment.
    -/
theorem bits_compress :
    bits (chain.compress { bytes, count, inc }).h
      = (List.range count).foldl
          (fun h i => Standard.compress h (Standard.blockAt bytes i)
            (chain.t.toNat + (i + 1) * inc) chain.f.lastBlock.toBitVec chain.f.lastNode.toBitVec)
          (bits chain.h) := by
  induction count with
  | zero => rfl
  | succ count ih =>
    have counter : (chain.compress { bytes, count := count + 1, inc }).t.toNat = _ :=
      toNat_compress_t chain bytes (count + 1) small
    rw [compress_succ, absorb_t] at counter
    rw [compress_succ, bits_absorb, ih, counter, Standard.compress_mod, compress_f, List.range_succ,
      List.foldl_append, List.foldl_cons, List.foldl_nil, Standard.blockAt_eq_toList]

end

end Chain

end Blake2s
