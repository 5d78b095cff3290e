import Blake2s.Standard.Compression
import Mathlib.Data.Fintype.Basic
import Mathlib.Data.Nat.Sqrt

set_option autoImplicit false

/-! # The tables of the standard

The standard and the code have tables of their own. They are the same (`Standard.ivWord_eq`,
`Standard.schedules_eq`). The words of the initialization vector are no free choice: they are the
first 32 binary places behind the point of the square roots of the first eight primes
(`Standard.ivWord_eq_sqrt`). -/

namespace Blake2s.Standard

theorem ivWord_eq : ∀ i : Fin 8, ivWord i = (iv.get i).toBitVec := by decide

theorem schedules_eq : schedules = sigma.toList := rfl

/-- The first eight primes. -/
def primes : Vector Nat 8 := #v[2, 3, 5, 7, 11, 13, 17, 19]

/-- Their square roots, without what is behind the point. -/
def wholeRoots : Vector Nat 8 := #v[1, 1, 2, 2, 3, 3, 4, 4]

theorem sqrt_primes (i : Fin 8) :
    (2 ^ 64 * primes.get i).sqrt = 2 ^ 32 * wholeRoots.get i + (ivWord i).toNat := by
  have between : ∀ i : Fin 8,
      let root := 2 ^ 32 * wholeRoots.get i + (ivWord i).toNat
      root * root ≤ 2 ^ 64 * primes.get i ∧ 2 ^ 64 * primes.get i < (root + 1) * (root + 1) := by
    decide
  exact (Nat.eq_sqrt.mpr (between i)).symm

theorem ivWord_eq_sqrt (i : Fin 8) : ivWord i = BitVec.ofNat 32 (2 ^ 64 * primes.get i).sqrt := by
  apply BitVec.eq_of_toNat_eq
  rw [sqrt_primes, BitVec.toNat_ofNat, Nat.mul_add_mod, Nat.mod_eq_of_lt (ivWord i).isLt]

end Blake2s.Standard
