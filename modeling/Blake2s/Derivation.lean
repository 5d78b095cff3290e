import Blake2s.Mac

set_option autoImplicit false

/-! # Key derivation

HKDF over the message authentication code: `extract` condenses input keying material to a
pseudorandom key, `expand` draws output keying material of the wanted length from it, block by block
in the loop `grow`. -/

namespace Blake2s.Derivation

variable {σ : Type}

/-- The most bytes that can be derived: the block counter is a single byte. -/
def maxOutput : Nat := 255 * outBytes

/-- The pseudorandom key of input keying material. Without a salt, a salt of zeros is used. -/
def extract (engine : Engine σ) (material : Bytes) (salt : Option Bytes) :
    ExceptT Fault (StateM σ) Bytes :=
  Mac.tag engine material (salt.getD (Bytes.zeros outBytes)) outBytes

/-- Appends blocks to some output until it has `length` bytes or more. Each block is the code of the
    block before it, the context information and its counter, which has to fit in a byte. -/
def grow (code : Bytes → ExceptT Fault (StateM σ) Bytes) (info : Bytes) (length : Nat)
    (output previous : Bytes) (counter : Nat) : ExceptT Fault (StateM σ) Bytes := do
  if length ≤ output.length then return output
  if counter < 256 then
    let block ← code (previous ++ info ++ [UInt8.ofNat counter])
    grow code info length (output ++ block) block (counter + 1)
  else throw (.byteRange counter)
termination_by 256 - counter

def expand (engine : Engine σ) (key info : Bytes) (length : Int) :
    ExceptT Fault (StateM σ) Bytes := do
  if length < 1 ∨ maxOutput < length then throw .derivedLength
  let n := length.toNat
  return (← grow (fun message => Mac.tag engine message key outBytes) info n [] [] 1).take n

def derive (engine : Engine σ) (material : Bytes) (salt : Option Bytes) (info : Bytes)
    (length : Int) : ExceptT Fault (StateM σ) Bytes := do
  expand engine (← extract engine material salt) info length

end Blake2s.Derivation
