import Blake2s.State.Absorb

set_option autoImplicit false

/-! # Finishing

Finishing flags the last block, pads it with zeros, compresses it and reads the digest off the chain
value; then the state is wiped. `State.final` returns the digest; `State.finalInto` writes it to a
caller's buffer and returns what that buffer holds afterwards, also when it fails. -/

namespace Blake2s

def Chain.bytes (chain : Chain) : Bytes := chain.h.toList.flatMap Word.toBytes

namespace State

variable {σ : Type}

/-- What fills up the last block. -/
def padding (s : State) : Bytes := Bytes.zeros (blockBytes - s.filled)

theorem filled_add_length_padding {s : State} (fits : s.filled ≤ blockBytes) :
    s.filled + s.padding.length = blockBytes := by
  rw [padding, Bytes.length_zeros]
  exact Nat.add_sub_cancel' fits

/-- Sets the finalization flags and pads the buffer with zeros. -/
def closeLastBlock (s : State) : State :=
  let f := s.chain.f
  { s with
    chain := { s.chain with
      f := { lastBlock := wordMask, lastNode := if s.lastNode then wordMask else f.lastNode } }
    buffer := s.buffer.write s.filled s.padding }

/-- Compresses the last block and returns the first `n` bytes of the chain value. -/
def finish (engine : Engine σ) (n : Nat) : HashM σ Bytes := do
  modify closeLastBlock
  compressBuffer engine (← get).filled
  let digest := (← get).chain.bytes.take n
  wipe
  return digest

/-- Finishes a live state after all checks: the length asked for, by default the one the state was
    initialized with, has to be in range, and there has to be room for it. -/
def finalWithin (engine : Engine σ) (requested : Option Int) (room : Option Nat) :
    HashM σ Bytes := do
  requireLive
  let n ← outputLength (requested.getD (← get).outlen)
  if room.any (· < n) then throw (.outputRoom n)
  finish engine n

def final (engine : Engine σ) (requested : Option Int) : HashM σ Bytes :=
  finalWithin engine requested none

/-- Finishes a live state and writes the digest to the start of a buffer. Returns the outcome and
    what the buffer holds afterwards. -/
def finalInto (engine : Engine σ) (requested : Option Int) (out : Bytes) :
    StateT State (StateM σ) (Except Fault Unit × Bytes) := do
  match ← (finalWithin engine requested (some out.length)).run with
  | .ok digest => return (.ok (), out.overwrite digest)
  | .error fault => return (.error fault, out)

end State

end Blake2s
