import Blake2s.Constants

set_option autoImplicit false

/-! # Message blocks

A `Block` holds 64 bytes and is read as sixteen little-endian words. A `Batch` is what one call of a
compression receives: a byte string, how many of its leading blocks to take, and by how much each of
them advances the counter. -/

namespace Blake2s

abbrev Block := Vector UInt8 64

namespace Block

def zero : Block := Vector.replicate 64 0

/-- The first 64 bytes of a string, with zeros where it ends earlier. -/
def ofBytes (bytes : Bytes) : Block := Vector.ofFn fun i => bytes.getD i.val 0

/-- Writes `bytes` into a block from position `start` on. What does not fit is left out. -/
def write (block : Block) (start : Nat) (bytes : Bytes) : Block :=
  Vector.ofFn fun i =>
    if start ≤ i.val ∧ i.val < start + bytes.length then bytes.getD (i.val - start) 0 else block[i]

def words (block : Block) : Vector UInt32 16 :=
  Vector.ofFn fun i =>
    Word.ofBytes (block.get ⟨4 * i.val, by omega⟩) (block.get ⟨4 * i.val + 1, by omega⟩)
      (block.get ⟨4 * i.val + 2, by omega⟩) (block.get ⟨4 * i.val + 3, by omega⟩)

/-- The first `n` blocks of a byte string. -/
def split : Nat → Bytes → List Block
  | 0, _ => []
  | n + 1, bytes => ofBytes bytes :: split n (bytes.drop 64)

@[simp] theorem length_split (n : Nat) (bytes : Bytes) : (split n bytes).length = n := by
  induction n generalizing bytes with
  | zero => rfl
  | succ n ih => simp [split, ih]

end Block

/-- Consecutive blocks to be compressed together. -/
structure Batch where
  /-- The bytes to read; they may go on past the last block of the batch. -/
  bytes : Bytes
  count : Nat
  /-- The advance of the counter for each block. -/
  inc : Int
  deriving DecidableEq, Repr

def Batch.blocks (batch : Batch) : List Block := Block.split batch.count batch.bytes

end Blake2s
