import Blake2s.Proofs.Backend.Lawful
import Blake2s.Proofs.Compress.Masked
import Mathlib.Algebra.Order.Ring.Int

set_option autoImplicit false

/-! # Counting

A counter held as two masked numbers is a number below `2 ^ 64`, and advancing it adds to that number
modulo `2 ^ 64`, as long as the increment is at most `2 ^ 32`: the low number is less than the
increment exactly if the sum has wrapped around (`Masked.State.counter_advance`). So advancing by one
increment after the other adds them all up. A counter that is held as words, and a lane-parallel batch,
which carries one along, come to the same two numbers (`Masked.State.advance_all`). -/

namespace Blake2s

/-- One increment after the other, on words. -/
theorem Counter.toNat_foldl_advance (t : Counter) {incs : List Nat}
    (small : ∀ inc ∈ incs, inc ≤ 2 ^ 32) :
    (incs.foldl (fun (t : Counter) (inc : Nat) => t.advance inc) t).toNat
      = (t.toNat + incs.sum) % 2 ^ 64 := by
  induction incs generalizing t with
  | nil => rw [List.foldl_nil, List.sum_nil, Nat.add_zero, Nat.mod_eq_of_lt t.toNat_lt]
  | cons inc incs ih =>
    obtain ⟨first, rest⟩ := List.forall_mem_cons.mp small
    rw [List.foldl_cons, ih _ rest, toNat_advance t first, Nat.mod_add_mod, List.sum_cons,
      Nat.add_assoc]

namespace Masked.State

/-- Both halves of the counter have 32 bits. -/
structure NarrowCounter (s : State) : Prop where
  lo : s.t.get 0 < 2 ^ 32
  hi : s.t.get 1 < 2 ^ 32

/-- The halves are the digits of the counter to base `2 ^ 32`. -/
theorem counter_eq (s : State) : s.counter = s.t.get 0 + 2 ^ 32 * s.t.get 1 := by
  unfold counter
  rw [Nat.shiftLeft_eq, Nat.mul_comm]
  rfl

theorem advance_eq (s : State) (inc : Nat) :
    s.advance inc
      = { s with t := #v[(s.t.get 0 + inc) % 2 ^ 32,
            (s.t.get 1 + if (s.t.get 0 + inc) % 2 ^ 32 < inc then 1 else 0) % 2 ^ 32] } := by
  simp only [advance, mask_eq_mod]
  rfl

theorem narrowCounter_advance (s : State) (inc : Nat) : (s.advance inc).NarrowCounter := by
  rw [advance_eq]
  exact ⟨Nat.mod_lt _ (by decide), Nat.mod_lt _ (by decide)⟩

/-- The low half wraps exactly when it ends up below the increment. -/
theorem counter_advance {s : State} (narrow : s.NarrowCounter) {inc : Nat} (small : inc ≤ 2 ^ 32) :
    (s.advance inc).counter = (s.counter + inc) % 2 ^ 64 := by
  have lo := narrow.lo
  have hi := narrow.hi
  rw [counter_eq, counter_eq, advance_eq]
  change (s.t.get 0 + inc) % 2 ^ 32
      + 2 ^ 32 * ((s.t.get 1 + if (s.t.get 0 + inc) % 2 ^ 32 < inc then 1 else 0) % 2 ^ 32)
    = (s.t.get 0 + 2 ^ 32 * s.t.get 1 + inc) % 2 ^ 64
  split <;> omega

/-- Advancing touches the counter only. -/
theorem foldl_advance_eq (incs : List Nat) (s : State) :
    incs.foldl advance s = { s with t := (incs.foldl advance s).t } := by
  induction incs generalizing s with
  | nil => rfl
  | cons inc incs ih =>
    rw [List.foldl_cons, ih]
    rfl

theorem narrowCounter_foldl_advance {s : State} (narrow : s.NarrowCounter) (incs : List Nat) :
    (incs.foldl advance s).NarrowCounter := by
  induction incs generalizing s with
  | nil => exact narrow
  | cons inc incs ih => exact ih (s.narrowCounter_advance inc)

/-- One increment after the other. -/
theorem counter_foldl_advance {s : State} (narrow : s.NarrowCounter) {incs : List Nat}
    (small : ∀ inc ∈ incs, inc ≤ 2 ^ 32) :
    (incs.foldl advance s).counter = (s.counter + incs.sum) % 2 ^ 64 := by
  induction incs generalizing s with
  | nil =>
    have lo := narrow.lo
    have hi := narrow.hi
    have bound : s.counter < 2 ^ 64 := by
      rw [counter_eq]
      omega
    rw [List.foldl_nil, List.sum_nil, Nat.add_zero, Nat.mod_eq_of_lt bound]
  | cons inc incs ih =>
    obtain ⟨first, rest⟩ := List.forall_mem_cons.mp small
    rw [List.foldl_cons, ih (s.narrowCounter_advance inc) rest, counter_advance narrow first,
      Nat.mod_add_mod, List.sum_cons, Nat.add_assoc]

/-- The counter determines its halves. -/
theorem t_eq_of_counter_eq {s : State} (narrow : s.NarrowCounter) {t : Counter}
    (same : s.counter = t.toNat) : s.t = #v[t.lo.toNat, t.hi.toNat] := by
  have sLo := narrow.lo
  have sHi := narrow.hi
  have tLo := t.lo.toNat_lt
  have tHi := t.hi.toNat_lt
  rw [counter_eq, Counter.toNat] at same
  ext1 i hi
  obtain rfl | rfl : i = 0 ∨ i = 1 := by omega
  · change s.t.get 0 = t.lo.toNat
    omega
  · change s.t.get 1 = t.hi.toNat
    omega

/-- **The two words of a counter are a 64-bit counter.** Advance it by any increments of at most
    `2 ^ 32`, one after the other: both words keep to 32 bits, and the number that they stand for has
    grown by the sum of the increments, modulo `2 ^ 64`. A counter held as words of 32 bits advances to
    the same two words, and so does that of a batch that the vectorized backend accepts, by one and the
    same increment for each of its blocks. -/
theorem advance_all {s : State} (lo : s.t.get 0 < 2 ^ 32) (hi : s.t.get 1 < 2 ^ 32) {incs : List Nat}
    (small : ∀ inc ∈ incs, inc ≤ 2 ^ 32) :
    let s' := incs.foldl advance s
    (s'.t.get 0 < 2 ^ 32 ∧ s'.t.get 1 < 2 ^ 32 ∧
      s'.t.get 0 + 2 ^ 32 * s'.t.get 1 = (s.t.get 0 + 2 ^ 32 * s.t.get 1 + incs.sum) % 2 ^ 64 ∧
      s' = { s with t := s'.t }) ∧
    (∀ t : Counter, s.t = #v[t.lo.toNat, t.hi.toNat] →
      let t' := incs.foldl (fun (t : Counter) (inc : Nat) => t.advance inc) t
      s'.t = #v[t'.lo.toNat, t'.hi.toNat]) ∧
    ∀ (minBlocks : Int) (earlier : List Offer) (chain chain' : Chain) (bytes : Bytes)
        (count inc : Nat),
      inc ≤ 2 ^ 32 → s.t = #v[chain.t.lo.toNat, chain.t.hi.toNat] →
      (Backend.vectorized minBlocks).respond earlier { chain, batch := { bytes, count, inc } }
        = some chain' →
      ((List.replicate count inc).foldl advance s).t = #v[chain'.t.lo.toNat, chain'.t.hi.toNat] := by
  have narrow : s.NarrowCounter := ⟨lo, hi⟩
  obtain ⟨lo', hi'⟩ := narrowCounter_foldl_advance narrow incs
  have total := counter_foldl_advance narrow small
  have counter {t : Counter} (start : s.t = #v[t.lo.toNat, t.hi.toNat]) : s.counter = t.toNat := by
    rw [counter_eq, start]
    rfl
  have digits := total
  rw [counter_eq, counter_eq] at digits
  refine ⟨⟨lo', hi', digits, foldl_advance_eq incs s⟩, ?_, ?_⟩
  · intro t start
    refine t_eq_of_counter_eq (narrowCounter_foldl_advance narrow incs) ?_
    rw [total, counter start, Counter.toNat_foldl_advance t small]
  intro minBlocks earlier chain chain' bytes count inc inBound start accepted
  rw [Backend.respond_vectorized] at accepted
  split at accepted
  · exact nomatch accepted
  obtain rfl := Option.some.inj accepted
  -- the batch has counted its increments as one sum, so it is enough to compare the counters
  refine t_eq_of_counter_eq (narrowCounter_foldl_advance narrow _) ?_
  have each : ∀ i ∈ List.replicate count inc, i ≤ 2 ^ 32 := by
    intro i hi
    rwa [List.eq_of_mem_replicate hi]
  rw [counter_foldl_advance narrow each, List.sum_replicate_nat, counter start]
  exact (chain.toNat_compress_t bytes count inBound).symm

/-- A counter that is about to wrap in both words: an increment of nothing, one that is a whole turn of
    the low word, and a block; and three blocks by the vectorized backend. -/
theorem advance_all_wrapping :
    let t : Counter := { lo := 0xFFFFFFFF, hi := 0xFFFFFFFE }
    let chain : Chain := { t }
    let s : State := ofState { chain }
    let incs := [0, 2 ^ 32, 64]
    let batch : Batch := { bytes := Bytes.zeros 192, count := 3, inc := (64 : Nat) }
    s.t.get 0 < 2 ^ 32 ∧ s.t.get 1 < 2 ^ 32 ∧ (∀ inc ∈ incs, inc ≤ 2 ^ 32) ∧
      (incs.foldl advance s).t.get 0 + 2 ^ 32 * (incs.foldl advance s).t.get 1 = 63 ∧
      (incs.foldl advance s).t = #v[63, 0] ∧
      (Backend.vectorized 1).respond [] { chain, batch } = some (chain.compress batch) ∧
      ((List.replicate 3 64).foldl advance s).t
        = #v[(chain.compress batch).t.lo.toNat, (chain.compress batch).t.hi.toNat] := by
  intro t chain s incs batch
  have words : s.t = #v[t.lo.toNat, t.hi.toNat] := numbers_pair t.lo t.hi
  have lo : s.t.get 0 < 2 ^ 32 := by
    rw [words]
    exact t.lo.toNat_lt
  have hi : s.t.get 1 < 2 ^ 32 := by
    rw [words]
    exact t.hi.toNat_lt
  have small : ∀ inc ∈ incs, inc ≤ 2 ^ 32 := by decide
  have accepted : (Backend.vectorized 1).respond [] { chain, batch } = some (chain.compress batch) := by
    rw [Backend.respond_vectorized]
    rfl
  obtain ⟨⟨-, -, total, -⟩, onWords, batches⟩ := advance_all lo hi small
  refine ⟨lo, hi, small, ?_, ?_, accepted, ?_⟩
  · rw [total]
    decide +kernel
  · rw [onWords t words]
    decide
  · exact batches 1 [] chain _ batch.bytes 3 64 (by decide) words accepted

end Masked.State

end Blake2s
