import Blake2s.Chain

set_option autoImplicit false

/-! # Lane-parallel compression

The working vector is held as four rows of four lanes. One mix of whole rows covers the four
columns; turning the rows so that the diagonals line up lets the same mix cover those too. Chain
value and counter are carried through the batch and written back once, at its end. -/

namespace Blake2s

/-- Four words that are computed on together. -/
abbrev Lanes := Vector UInt32 4

namespace Lanes

def add (x y : Lanes) : Lanes := x.zipWith (· + ·) y

def xor (x y : Lanes) : Lanes := x.zipWith (· ^^^ ·) y

def rotateBits (n : UInt32) (x : Lanes) : Lanes := x.map fun w => Word.rotateRight w n

/-- The lanes moved `k` places to the left, around the end. -/
def turn (k : Nat) (x : Lanes) : Lanes :=
  Vector.ofFn fun i => x.get ⟨(i.val + k) % 4, Nat.mod_lt _ (by decide)⟩

def gather (m : Vector UInt32 16) (indices : Vector (Fin 16) 4) : Lanes := indices.map fun i => m[i]

end Lanes

/-- Which message words the four columns and the four diagonals of a round take in. -/
structure Gathers where
  columnX : Vector (Fin 16) 4
  columnY : Vector (Fin 16) 4
  diagonalX : Vector (Fin 16) 4
  diagonalY : Vector (Fin 16) 4
  deriving DecidableEq, Repr

/-- Four entries of a message schedule: every second one from the given place on. -/
def everySecond (s : Vector (Fin 16) 16) (start : Fin 10) : Vector (Fin 16) 4 :=
  Vector.ofFn fun i => s.get ⟨start.val + 2 * i.val, by omega⟩

def Gathers.ofSchedule (s : Vector (Fin 16) 16) : Gathers :=
  { columnX := everySecond s 0
    columnY := everySecond s 1
    diagonalX := everySecond s 8
    diagonalY := everySecond s 9 }

def gathers : Vector Gathers rounds := sigma.map Gathers.ofSchedule

/-- The working vector as four rows. -/
structure Rows where
  a : Lanes
  b : Lanes
  c : Lanes
  d : Lanes
  deriving DecidableEq, Repr

namespace Rows

/-- Mixes message words into all four columns. -/
def mix (v : Rows) (x y : Lanes) : Rows :=
  let a := (v.a.add v.b).add x
  let d := (v.d.xor a).rotateBits 16
  let c := v.c.add d
  let b := (v.b.xor c).rotateBits 12
  let a := (a.add b).add y
  let d := (d.xor a).rotateBits 8
  let c := c.add d
  let b := (b.xor c).rotateBits 7
  { a, b, c, d }

/-- Turns the rows so that each diagonal becomes a column. -/
def diagonalize (v : Rows) : Rows :=
  { v with b := v.b.turn 1, c := v.c.turn 2, d := v.d.turn 3 }

def undiagonalize (v : Rows) : Rows :=
  { v with b := v.b.turn 3, c := v.c.turn 2, d := v.d.turn 1 }

/-- One round: the columns, then the diagonals. -/
def round (m : Vector UInt32 16) (v : Rows) (g : Gathers) : Rows :=
  let v := v.mix (Lanes.gather m g.columnX) (Lanes.gather m g.columnY)
  (v.diagonalize.mix (Lanes.gather m g.diagonalX) (Lanes.gather m g.diagonalY)).undiagonalize

def mixAll (m : Vector UInt32 16) (v : Rows) : Rows := gathers.toList.foldl (round m) v

end Rows

namespace Lanes

def ivLow : Lanes := Vector.ofFn fun i => iv.get ⟨i.val, by omega⟩

def ivHigh : Lanes := Vector.ofFn fun i => iv.get ⟨i.val + 4, by omega⟩

/-- What is carried from block to block: the two halves of the chain value, and the counter. -/
structure Carry where
  low : Lanes
  high : Lanes
  t : Counter
  deriving DecidableEq, Repr

def Carry.ofChain (chain : Chain) : Carry :=
  { low := Vector.ofFn fun i => chain.h.get ⟨i.val, by omega⟩
    high := Vector.ofFn fun i => chain.h.get ⟨i.val + 4, by omega⟩
    t := chain.t }

def Carry.absorb (f : Flags) (inc : Int) (carry : Carry) (block : Block) : Carry :=
  let t := carry.t.advance inc
  let v := Rows.mixAll block.words
    { a := carry.low, b := carry.high, c := ivLow
      d := ivHigh.xor #v[t.lo, t.hi, f.lastBlock, f.lastNode] }
  { low := (carry.low.xor v.a).xor v.c, high := (carry.high.xor v.b).xor v.d, t }

/-- Compresses the blocks of a batch in order and writes the outcome back. -/
def compress (chain : Chain) (batch : Batch) : Chain :=
  let carry := batch.blocks.foldl (Carry.absorb chain.f batch.inc) (Carry.ofChain chain)
  { chain with h := carry.low ++ carry.high, t := carry.t }

end Lanes

end Blake2s
