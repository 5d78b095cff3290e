import Blake2s.Proofs.Words
import Blake2s.SelfTest
import Mathlib.Data.Int.ModEq
import Mathlib.Data.Nat.Fib.Basic

set_option autoImplicit false

/-! # The terms of a generated input

A generated input is made of the highest bytes of words each of which is the sum of the two before
it. After two words `a` and `b` these sums are `a * F (i + 1) + b * F (i + 2)` modulo `2 ^ 32`, for
the Fibonacci numbers `F` (`SelfTest.map_toNat_fibonacci`), so each byte has a closed form in its
place and the seed (`SelfTest.sequence_closed_form`). -/

namespace Blake2s.SelfTest

/-- Going on after `b` and the sum of `a` and `b` is going on after `a` and `b`, one place later. -/
theorem term_succ (a b i : Nat) :
    (b * Nat.fib (i + 1) + (a + b) % 2 ^ 32 * Nat.fib (i + 2)) % 2 ^ 32
      = (a * Nat.fib (i + 2) + b * Nat.fib (i + 3)) % 2 ^ 32 := by
  have next : Nat.fib (i + 3) = Nat.fib (i + 1) + Nat.fib (i + 2) := Nat.fib_add_two
  calc (b * Nat.fib (i + 1) + (a + b) % 2 ^ 32 * Nat.fib (i + 2)) % 2 ^ 32
    _ = (b * Nat.fib (i + 1) + (a + b) * Nat.fib (i + 2)) % 2 ^ 32 :=
      (((Nat.mod_modEq (a + b) (2 ^ 32)).mul_right _).add_left _)
    _ = (a * Nat.fib (i + 2) + b * Nat.fib (i + 3)) % 2 ^ 32 := by
      rw [next]
      congr 1
      ring

theorem map_toNat_fibonacci (n : Nat) (a b : UInt32) :
    (fibonacci n a b).map UInt8.toNat
      = (List.range n).map fun i =>
          (a.toNat * Nat.fib (i + 1) + b.toNat * Nat.fib (i + 2)) % 2 ^ 32 / 2 ^ 24 := by
  induction n generalizing a b with
  | zero => rfl
  | succ n ih =>
    rw [fibonacci, List.map_cons, ih, List.range_succ_eq_map, List.map_cons, List.map_map]
    congr 1
    · rw [Word.toNat_toUInt8_shiftRight, UInt32.toNat_add, Nat.fib_one, Nat.fib_two, Nat.mul_one,
        Nat.mul_one]
    · refine List.map_congr_left fun i _ => ?_
      rw [Function.comp_apply, UInt32.toNat_add, term_succ]

/-- A longer sequence begins as a shorter one. -/
theorem fibonacci_prefix (n more : Nat) (a b : UInt32) :
    fibonacci n a b <+: fibonacci (n + more) a b := by
  induction n generalizing a b with
  | zero => exact List.nil_prefix
  | succ n ih =>
    rw [Nat.succ_add, fibonacci, fibonacci, List.cons_prefix_cons]
    exact ⟨rfl, ih b (a + b)⟩

/-- Seeds that are the same modulo `2 ^ 32` start from the same word. -/
theorem ofInt_seed (seed : Int) :
    UInt32.ofInt (0xDEAD4BAD * (seed % 2 ^ 32)) = UInt32.ofInt (0xDEAD4BAD * seed) := by
  have reduced := Word.toNat_ofInt (0xDEAD4BAD * (seed % 2 ^ 32))
  have whole := Word.toNat_ofInt (0xDEAD4BAD * seed)
  apply UInt32.toNat_inj.mp
  omega

/-- It does not matter that the first word has been reduced before the others are computed. -/
theorem term_ofInt (first : Int) (i : Nat) :
    (((UInt32.ofInt first).toNat * Nat.fib (i + 1) + Nat.fib (i + 2) : Nat) : Int) % 2 ^ 32
      = (first * Nat.fib (i + 1) + Nat.fib (i + 2)) % 2 ^ 32 := by
  rw [Int.natCast_add, Int.natCast_mul, Word.toNat_ofInt]
  exact ((Int.mod_modEq first (2 ^ 32)).mul_right _).add_right _

/-- **A generated input in closed form.** It has the length that was asked for, and the byte at place
    `i` consists of the bits 24 to 31 of `0xDEAD4BAD * seed * F (i + 1) + F (i + 2)` modulo `2 ^ 32`,
    for every integer seed. So the seed counts modulo `2 ^ 32` only, and asking for more bytes leaves
    the first ones as they are. -/
theorem sequence_closed_form (n : Nat) (seed : Int) :
    (sequence n seed).length = n ∧
    ((sequence n seed).map fun byte => (byte.toNat : Int))
      = ((List.range n).map fun i =>
          (0xDEAD4BAD * seed * Nat.fib (i + 1) + Nat.fib (i + 2)) % 2 ^ 32 / 2 ^ 24) ∧
    sequence n (seed % 2 ^ 32) = sequence n seed ∧
    ∀ more, sequence n seed <+: sequence (n + more) seed := by
  refine ⟨length_sequence n seed, ?_, ?_, fun more => fibonacci_prefix n more _ 1⟩
  · have terms := map_toNat_fibonacci n (.ofInt (0xDEAD4BAD * seed)) 1
    have lifted := congrArg (List.map fun term : Nat => (term : Int)) terms
    rw [List.map_map, List.map_map] at lifted
    refine lifted.trans (List.map_congr_left fun i _ => ?_)
    rw [← term_ofInt, Function.comp_apply, UInt32.toNat_one, Nat.one_mul]
    rfl
  · rw [sequence, ofInt_seed, sequence]

end Blake2s.SelfTest
