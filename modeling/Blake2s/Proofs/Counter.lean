import Blake2s.Proofs.Words

set_option autoImplicit false

/-! # The byte counter as a number

The two words of a counter are the digits to base `2 ^ 32` of `Counter.toNat`, a number below
`2 ^ 64`. Advancing the counter adds to this number, modulo `2 ^ 64`, as long as the increment is at
most `2 ^ 32` (`toNat_advance`). -/

namespace Blake2s.Counter

/-- The number that a counter stands for. -/
def toNat (t : Counter) : Nat := t.lo.toNat + 2 ^ 32 * t.hi.toNat

theorem toNat_lt (t : Counter) : t.toNat < 2 ^ 64 := by
  have hlo := t.lo.toNat_lt
  have hhi := t.hi.toNat_lt
  rw [toNat]
  omega

theorem lo_eq (t : Counter) : t.lo.toBitVec = BitVec.ofNat 32 t.toNat := by
  apply BitVec.eq_of_toNat_eq
  have hlo := t.lo.toNat_lt
  rw [BitVec.toNat_ofNat, UInt32.toNat_toBitVec, toNat]
  omega

theorem hi_eq (t : Counter) : t.hi.toBitVec = BitVec.ofNat 32 (t.toNat / 2 ^ 32) := by
  apply BitVec.eq_of_toNat_eq
  have hlo := t.lo.toNat_lt
  have hhi := t.hi.toNat_lt
  rw [BitVec.toNat_ofNat, UInt32.toNat_toBitVec, toNat]
  omega

theorem toNat_lo_advance (t : Counter) (n : Nat) :
    (t.advance n).lo.toNat = (t.lo.toNat + n) % 2 ^ 32 := by
  have word : ((t.advance n).lo.toNat : Int) = ((t.lo.toNat : Int) + n) % 2 ^ 32 :=
    Word.toNat_ofInt (t.lo.toNat + n)
  omega

/-- No two counters come to the same one by the same increment, whatever that is. -/
theorem advance_injective (inc : Int) : Function.Injective fun t : Counter => t.advance inc := by
  intro t t' same
  have sameLo : UInt32.ofInt (t.lo.toNat + inc) = UInt32.ofInt (t'.lo.toNat + inc) :=
    congrArg lo same
  have sameHi : (if ((UInt32.ofInt (t.lo.toNat + inc)).toNat : Int) < inc then t.hi + 1 else t.hi)
      = if ((UInt32.ofInt (t'.lo.toNat + inc)).toNat : Int) < inc then t'.hi + 1 else t'.hi :=
    congrArg hi same
  have low : t.lo = t'.lo := by
    have bound := t.lo.toNat_lt
    have bound' := t'.lo.toNat_lt
    have total : (t.lo.toNat + inc) % 2 ^ 32 = (t'.lo.toNat + inc) % 2 ^ 32 := by
      rw [← Word.toNat_ofInt, sameLo, Word.toNat_ofInt]
    apply UInt32.toNat_inj.mp
    omega
  have high : t.hi = t'.hi := by
    -- both counters carry, or neither does
    rw [low] at sameHi
    split at sameHi
    · exact (UInt32.add_left_inj 1).mp sameHi
    · exact sameHi
  cases t
  cases t'
  exact congrArg₂ mk low high

/-- The low word wraps exactly when it ends up below the increment. -/
theorem toNat_advance (t : Counter) {n : Nat} (hn : n ≤ 2 ^ 32) :
    (t.advance n).toNat = (t.toNat + n) % 2 ^ 64 := by
  have hlo := t.lo.toNat_lt
  have hhi := t.hi.toNat_lt
  have lo : (UInt32.ofInt (t.lo.toNat + n)).toNat = (t.lo.toNat + n) % 2 ^ 32 :=
    t.toNat_lo_advance n
  have hi : (t.hi + 1).toNat = (t.hi.toNat + 1) % 2 ^ 32 := by
    rw [UInt32.toNat_add]
    rfl
  simp only [advance, toNat, lo]
  split
  · rw [hi]
    omega
  · omega

end Blake2s.Counter
