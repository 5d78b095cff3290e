import Blake2s.Chain

set_option autoImplicit false

/-! # Generic compression

The working vector of sixteen words is mixed in place, one `Mixing` after the other, eight to a
round. `Chain.absorb` takes in one block and `Chain.compress` a whole batch; every other way of
compressing has to give the same chain.

A word has 32 bits, but it can also be held as a number that has no bound. Sums and shifts of such
numbers do not wrap around by themselves, so results that may be too large are masked. Exclusive or
and shifts to the right are not masked: they stay within 32 bits if they are given no more.
`Masked.State.compress` is the generic compression written in this way. -/

namespace Blake2s

/-- The sixteen words that the rounds mix. -/
abbrev Working := Vector UInt32 16

/-- One mix of a round: its places in the working vector and the two message words it takes in. -/
structure Mixing where
  places : Places
  x : Fin 16
  y : Fin 16
  deriving DecidableEq, Repr

/-- The eight mixes of a round that reads the message words in the order `s`. -/
def mixings (s : Vector (Fin 16) 16) : List Mixing :=
  (List.finRange 8).map fun i =>
    { places := places[i], x := s.get ⟨2 * i.val, by omega⟩, y := s.get ⟨2 * i.val + 1, by omega⟩ }

def schedule : Vector (List Mixing) rounds := sigma.map mixings

namespace Working

/-- Mixes the message words `x` and `y` into the four words at `p`. -/
def mix (v : Working) (p : Places) (x y : UInt32) : Working :=
  let a := v[p.a] + v[p.b] + x
  let d := Word.rotateRight (v[p.d] ^^^ a) 16
  let c := v[p.c] + d
  let b := Word.rotateRight (v[p.b] ^^^ c) 12
  let a := a + b + y
  let d := Word.rotateRight (d ^^^ a) 8
  let c := c + d
  let b := Word.rotateRight (b ^^^ c) 7
  (((v.set p.a a).set p.b b).set p.c c).set p.d d

def step (m : Vector UInt32 16) (v : Working) (s : Mixing) : Working :=
  v.mix s.places m[s.x] m[s.y]

def round (m : Vector UInt32 16) (v : Working) (mixings : List Mixing) : Working :=
  mixings.foldl (step m) v

def mixAll (m : Vector UInt32 16) (v : Working) : Working := schedule.toList.foldl (round m) v

end Working

namespace Chain

/-- The working vector before the rounds: the chain value and the initialization vector, the latter
    combined with the counter and the flags. -/
def working (chain : Chain) : Working :=
  let v : Working := chain.h ++ iv
  (((v.set 12 (v[12] ^^^ chain.t.lo)).set 13 (v[13] ^^^ chain.t.hi)).set 14
    (v[14] ^^^ chain.f.lastBlock)).set 15 (v[15] ^^^ chain.f.lastNode)

/-- Feeds the mixed working vector back into the chain value. -/
def feedForward (h : Vector UInt32 8) (v : Working) : Vector UInt32 8 :=
  Vector.ofFn fun i =>
    h[i] ^^^ (v.get ⟨i.val, by omega⟩ ^^^ v.get ⟨i.val + 8, by omega⟩)

/-- Advances the counter and compresses one block. -/
def absorb (inc : Int) (chain : Chain) (block : Block) : Chain :=
  let chain := { chain with t := chain.t.advance inc }
  { chain with h := feedForward chain.h (chain.working.mixAll block.words) }

/-- Compresses the blocks of a batch in order. -/
def compress (chain : Chain) (batch : Batch) : Chain := batch.blocks.foldl (absorb batch.inc) chain

@[simp] theorem absorb_f (inc : Int) (chain : Chain) (block : Block) :
    (chain.absorb inc block).f = chain.f := rfl

@[simp] theorem absorb_t (inc : Int) (chain : Chain) (block : Block) :
    (chain.absorb inc block).t = chain.t.advance inc := rfl

@[simp] theorem compress_f (chain : Chain) (batch : Batch) : (chain.compress batch).f = chain.f := by
  rw [compress]
  induction batch.blocks generalizing chain with
  | nil => rfl
  | cons block blocks ih => rw [List.foldl_cons, ih, absorb_f]

end Chain

/-! ## On plain numbers -/

namespace Masked

/-- The lowest 32 bits of a number. -/
def mask (n : Nat) : Nat := n &&& wordMask.toNat

/-- Rotation to the right by `n` bits. Only the part that is shifted to the left is masked. -/
def rotateRight (w n : Nat) : Nat := (w >>> n) ||| mask (w <<< (32 - n))

/-- Mixes the message words `x` and `y` into the four words at `p`. -/
def mix (v : Vector Nat 16) (p : Places) (x y : Nat) : Vector Nat 16 :=
  let a := mask (v[p.a] + v[p.b] + x)
  let d := rotateRight (v[p.d] ^^^ a) 16
  let c := mask (v[p.c] + d)
  let b := rotateRight (v[p.b] ^^^ c) 12
  let a := mask (a + b + y)
  let d := rotateRight (d ^^^ a) 8
  let c := mask (c + d)
  let b := rotateRight (b ^^^ c) 7
  (((v.set p.a a).set p.b b).set p.c c).set p.d d

def step (m v : Vector Nat 16) (s : Mixing) : Vector Nat 16 := mix v s.places m[s.x] m[s.y]

def round (m v : Vector Nat 16) (mixings : List Mixing) : Vector Nat 16 := mixings.foldl (step m) v

def mixAll (m v : Vector Nat 16) : Vector Nat 16 := schedule.toList.foldl (round m) v

/-- Feeds the mixed working vector back into the chain value. -/
def feedForward (h : Vector Nat 8) (v : Vector Nat 16) : Vector Nat 8 :=
  Vector.ofFn fun i => h[i] ^^^ (v.get ⟨i.val, by omega⟩ ^^^ v.get ⟨i.val + 8, by omega⟩)

/-- The message words of block `i` of a byte string. -/
def messageAt (bytes : Bytes) (i : Nat) : Vector Nat 16 :=
  (Block.ofBytes (bytes.drop (blockBytes * i))).words.map UInt32.toNat

/-- A hash state whose words are held as plain numbers. -/
structure State where
  h : Vector Nat 8
  /-- The byte counter, its low word first. -/
  t : Vector Nat 2
  /-- The flags: of the last block, and of the last node. -/
  f : Vector Nat 2
  buffer : Block
  filled : Nat
  outlen : Nat
  lastNode : Bool
  deriving DecidableEq, Repr

namespace State

/-- The number that the counter of a state stands for. -/
def counter (s : State) : Nat := s.t[0] + (s.t[1] <<< 32)

/-- Adds to the counter. The low word is less than what was added if it has wrapped around. -/
def advance (s : State) (inc : Nat) : State :=
  let lo := mask (s.t[0] + inc)
  { s with t := #v[lo, mask (s.t[1] + if lo < inc then 1 else 0)] }

/-- The working vector before the rounds. -/
def working (s : State) : Vector Nat 16 :=
  let v := s.h ++ iv.map UInt32.toNat
  (((v.set 12 (v[12] ^^^ s.t[0])).set 13 (v[13] ^^^ s.t[1])).set 14 (v[14] ^^^ s.f[0])).set 15
    (v[15] ^^^ s.f[1])

/-- Advances the counter and compresses block `i` of a byte string. -/
def absorb (bytes : Bytes) (inc : Nat) (s : State) (i : Nat) : State :=
  let s := s.advance inc
  { s with h := feedForward s.h (mixAll (messageAt bytes i) s.working) }

/-- Compresses the first `count` blocks of a byte string in order; none if that is negative. -/
def compress (s : State) (bytes : Bytes) (count : Int) (inc : Nat) : State :=
  (List.range count.toNat).foldl (absorb bytes inc) s

end State

end Masked

end Blake2s
