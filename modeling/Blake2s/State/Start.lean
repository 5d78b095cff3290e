import Blake2s.Parameters.Basic
import Blake2s.State.Absorb

set_option autoImplicit false

/-! # Initialization

A state is initialized from a parameter block; a key is absorbed as a first block, padded with
zeros. Whatever the state held before is gone after that. A call that fails changes nothing. -/

namespace Blake2s.State

variable {σ : Type}

/-- The live state of an unkeyed hash with the given parameters, before any input. -/
def ofParameters (p : Parameters) (lastNode : Bool) : State :=
  { chain := { h := p.chainValue }, outlen := p.digestLength.toNat, lastNode }

/-- Initializes a state. The key has to be as long as the parameter block says. -/
def start (engine : Engine σ) (p : Parameters) (key : Bytes) (lastNode : Bool) : HashM σ Unit := do
  if key.length ≠ p.keyLength.toNat then throw .keyMismatch
  set (ofParameters p lastNode)
  unless key.isEmpty do update engine (key.padTo blockBytes)

def init (engine : Engine σ) (outlen : Int) : HashM σ Unit := do
  let _ ← outputLength outlen
  start engine (← Parameters.ofFields { digestLength := outlen }) [] false

def initKeyed (engine : Engine σ) (outlen : Int) (key : Bytes) : HashM σ Unit := do
  let _ ← outputLength outlen
  if key.length < 1 ∨ keyBytes < key.length then throw .keyLength
  let p ← Parameters.ofFields { digestLength := outlen, keyLength := key.length }
  start engine p key false

end Blake2s.State
