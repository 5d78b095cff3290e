import Blake2s.State.Finish
import Blake2s.State.Start

set_option autoImplicit false

/-! # Message authentication

HMAC over BLAKE2s: a hash of the masked key and the message, hashed once more under another mask of
the key. Keys longer than a block are replaced by their hash. All of it is done in place: one hash
state serves for every hash, the key stays in one block that is masked again for the outer hash, and
the outer digest overwrites the inner one. `Mac.tagInto` writes a tag to a caller's buffer;
`Mac.verify` checks one. -/

namespace Blake2s.Mac

variable {σ : Type}

/-- Hashes pieces of input on a state, whatever it holds, and writes the unkeyed full-length digest
    to the start of a buffer. Returns what the buffer holds afterwards. -/
def hashInto (engine : Engine σ) (pieces : List Bytes) (out : Bytes) : HashM σ Bytes := do
  State.init engine outBytes
  pieces.forM (State.update engine)
  let (outcome, out) ← ExceptT.lift (State.finalInto engine (some outBytes) out)
  let _ ← outcome
  return out

/-- The key at the start of a block of zeros; its digest if it is longer than a block. -/
def blockKey (engine : Engine σ) (key : Bytes) : HashM σ Bytes :=
  let block := Bytes.zeros blockBytes
  if blockBytes < key.length then hashInto engine [key] block else return block.overwrite key

/-- The tag of a message under a key, all 32 bytes of it. -/
def fullTag (engine : Engine σ) (message key : Bytes) : ExceptT Fault (StateM σ) Bytes :=
  HashM.evalFrom {} do
    let block := (← blockKey engine key).mask innerPad
    let digest ← hashInto engine [block, message] (Bytes.zeros outBytes)
    -- masking by both bytes takes the inner mask off and puts the outer one on
    let block := block.mask (outerPad ^^^ innerPad)
    hashInto engine [block, digest] digest

/-- The first `length` bytes of a tag, if there is room for them. -/
def tagWithin (engine : Engine σ) (message key : Bytes) (length : Int) (room : Option Nat) :
    ExceptT Fault (StateM σ) Bytes := do
  let n ← outputLength length
  if room.any (· < n) then throw (.outputRoom n)
  return (← fullTag engine message key).take n

/-- The tag of a message under a key, `length` bytes of it. -/
def tag (engine : Engine σ) (message key : Bytes) (length : Int) : ExceptT Fault (StateM σ) Bytes :=
  tagWithin engine message key length none

/-- Writes a tag to the start of a buffer. Returns the outcome and what the buffer holds
    afterwards. -/
def tagInto (engine : Engine σ) (message key : Bytes) (length : Int) (out : Bytes) :
    StateM σ (Except Fault Unit × Bytes) := do
  match ← (tagWithin engine message key length (some out.length)).run with
  | .ok tag => return (.ok (), out.overwrite tag)
  | .error fault => return (.error fault, out)

/-- Checks a tag of any length from 1 to 32 bytes. -/
def verify (engine : Engine σ) (given message key : Bytes) : ExceptT Fault (StateM σ) Unit := do
  if given.length < 1 ∨ outBytes < given.length then throw .tagLength
  let expected ← tag engine message key given.length
  if expected ≠ given then throw .tagMismatch

end Blake2s.Mac
