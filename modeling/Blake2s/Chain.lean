import Blake2s.Block

set_option autoImplicit false

/-! # What a compression works on

A `Chain` is the part of a hash state that compression reads and changes: the chain value `h`, the
byte counter `t` and the finalization flags `f`. -/

namespace Blake2s

/-- The byte counter, a 64-bit number held as two words. -/
structure Counter where
  lo : UInt32 := 0
  hi : UInt32 := 0
  deriving DecidableEq, Repr

/-- Adds `inc` to the low word, modulo `2 ^ 32`. The high word goes up by one when the new low word
    is less than `inc`, which for an increment of at most `2 ^ 32` is the carry. -/
def Counter.advance (t : Counter) (inc : Int) : Counter :=
  let lo := UInt32.ofInt (t.lo.toNat + inc)
  { lo, hi := if (lo.toNat : Int) < inc then t.hi + 1 else t.hi }

structure Flags where
  /-- All ones while the last block is compressed. -/
  lastBlock : UInt32 := 0
  /-- All ones while the last block of the last node of a tree level is compressed. -/
  lastNode : UInt32 := 0
  deriving DecidableEq, Repr

structure Chain where
  h : Vector UInt32 8 := Vector.replicate 8 0
  t : Counter := {}
  f : Flags := {}
  deriving DecidableEq, Repr

end Blake2s
