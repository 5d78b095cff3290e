import Blake2s.Engine

set_option autoImplicit false

/-! # Hash states

A `State` is a hash in progress. It is live from its initialization until it is finished; the output
length is zero exactly while it is not live. Full blocks are compressed as they come, but the last
one is held back in the buffer, so that finishing always has a block to flag.

Operations on a state are written in `HashM`. When one fails, the changes made so far stay. -/

namespace Blake2s

/-- A hash in progress. The default value is a state that is not live: all of it is zero. -/
structure State where
  /-- Chain value, counter and flags. -/
  chain : Chain := {}
  /-- Input that is not compressed yet; bytes from `filled` on are left over from earlier input. -/
  buffer : Block := Block.zero
  /-- How many bytes of the buffer hold input. -/
  filled : Nat := 0
  /-- The length of the digest, or zero while the state is not live. -/
  outlen : Nat := 0
  lastNode : Bool := false
  deriving DecidableEq, Repr

/-- Operations on a hash state, over the memory `σ` of an engine. -/
abbrev HashM (σ : Type) := ExceptT Fault (StateT State (StateM σ))

namespace HashM

variable {σ α : Type}

/-- An action of an engine, which does not touch the state. -/
def ofEngine (action : ExceptT Fault (StateM σ) α) : HashM σ α :=
  ExceptT.mk (StateT.lift action.run)

/-- Runs an operation from a given state and drops the state that it leaves. -/
def evalFrom (state : State) (op : HashM σ α) : ExceptT Fault (StateM σ) α :=
  ExceptT.mk (StateT.run' op.run state)

end HashM

namespace State

variable {σ : Type}

def requireLive : HashM σ Unit := do
  if (← get).outlen = 0 then throw .notLive

/-- Writes zeros over every part of the state; it is not live after that. -/
def wipe : HashM σ Unit :=
  modify fun s =>
    { chain :=
        { h := wiped s.chain.h
          t := { lo := 0, hi := 0 }
          f := { lastBlock := 0, lastNode := 0 } }
      buffer := wiped s.buffer
      filled := 0
      outlen := 0
      lastNode := false }

/-- Nothing of a state outlives its wiping. -/
theorem wipe_eq : (wipe : HashM σ Unit) = set ({} : State) := by
  simp only [wipe, wiped_eq]
  rfl

/-- Compresses a batch through an engine. Several blocks at once have to be full ones. -/
def compress (engine : Engine σ) (batch : Batch) : HashM σ Unit := do
  if 1 < batch.count ∧ batch.inc ≠ blockBytes then throw .partialIncrement
  let chain ← HashM.ofEngine (engine (← get).chain batch)
  modify fun s => { s with chain }

/-- Compresses the buffer as a block that advances the counter by `n`. -/
def compressBuffer (engine : Engine σ) (n : Nat) : HashM σ Unit := do
  compress engine { bytes := (← get).buffer.toList, count := 1, inc := n }

end State

end Blake2s
