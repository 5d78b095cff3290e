import Blake2s.State.Finish
import Blake2s.State.Start

set_option autoImplicit false

/-! # Hashers

A `Hasher` is a running hash that can be asked for its digest at any time: the digest is that of a
copy of its state, so more input may follow. -/

namespace Blake2s

structure Hasher where
  digestSize : Nat
  state : State
  deriving DecidableEq, Repr

namespace Hasher

variable {σ : Type}

structure Options where
  digestSize : Int := 32
  key : Bytes := []
  salt : Bytes := []
  person : Bytes := []
  fanout : Int := 1
  depth : Int := 1
  leafSize : Int := 0
  nodeOffset : Int := 0
  nodeDepth : Int := 0
  innerSize : Int := 0
  lastNode : Bool := false
  deriving DecidableEq, Repr

/-- The fields of the parameter block that options ask for. -/
def Options.fields (o : Options) : Parameters.Fields :=
  { digestLength := o.digestSize
    keyLength := o.key.length
    fanout := o.fanout
    depth := o.depth
    leafLength := o.leafSize
    nodeOffset := o.nodeOffset
    nodeDepth := o.nodeDepth
    innerLength := o.innerSize
    salt := o.salt
    personal := o.person }

def new (engine : Engine σ) (options : Options) (data : Bytes) :
    ExceptT Fault (StateM σ) Hasher := do
  let p ← Parameters.ofFields options.fields
  let state ← HashM.evalFrom {} do
    State.start engine p options.key options.lastNode
    State.update engine data
    get
  return { digestSize := p.digestLength.toNat, state }

/-- Absorbs more input. Returns the outcome and the hasher after it, also when it fails. -/
def update (engine : Engine σ) (hasher : Hasher) (data : Bytes) :
    StateM σ (Except Fault Unit × Hasher) := do
  let (outcome, state) ← (State.update engine data).run.run hasher.state
  return (outcome, { hasher with state })

def digest (engine : Engine σ) (hasher : Hasher) : ExceptT Fault (StateM σ) Bytes :=
  HashM.evalFrom hasher.state (State.final engine none)

/-- The digest of the input so far as lower-case hexadecimal text. -/
def hexDigest (engine : Engine σ) (hasher : Hasher) : ExceptT Fault (StateM σ) String :=
  Bytes.toHex <$> digest engine hasher

end Hasher

/-- The digest of a byte string, optionally keyed, in one call. -/
def digest {σ : Type} (engine : Engine σ) (data : Bytes) (digestSize : Int) (key : Bytes) :
    ExceptT Fault (StateM σ) Bytes := do
  let hasher ← Hasher.new engine { digestSize, key } data
  hasher.digest engine

end Blake2s
