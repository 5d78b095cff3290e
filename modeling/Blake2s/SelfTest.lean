import Blake2s.State.Finish
import Blake2s.State.Start

set_option autoImplicit false

/-! # Self-test

The self-test compares three hashes with known answers. The last of them, the grand hash, covers
generated inputs of several lengths, hashed with and without a key to digests of several lengths;
all these digests are absorbed by one more state. -/

namespace Blake2s.SelfTest

/-! ## Generated input -/

/-- The highest bytes of `n` terms of the sequence in which each word is the sum of the two before
    it, starting after `a` and `b`. -/
def fibonacci : (n : Nat) → (a b : UInt32) → Bytes
  | 0, _, _ => []
  | n + 1, a, b => ((a + b) >>> 24).toUInt8 :: fibonacci n b (a + b)

def sequence (length : Nat) (seed : Int) : Bytes :=
  fibonacci length (UInt32.ofInt (0xDEAD4BAD * seed)) 1

theorem length_fibonacci (n : Nat) (a b : UInt32) : (fibonacci n a b).length = n := by
  induction n generalizing a b with
  | zero => rfl
  | succ n ih => rw [fibonacci, List.length_cons, ih]

theorem length_sequence (length : Nat) (seed : Int) : (sequence length seed).length = length :=
  length_fibonacci length _ 1

/-! ## Known answers -/

/-- The hashes that the self-test checks. -/
inductive KnownAnswer where
  | empty
  | abc
  | grand
  deriving DecidableEq, Repr

def digestLengths : List Nat := [16, 20, 28, 32]

def inputLengths : List Nat := [0, 3, 64, 65, 255, 1024]

/-- The digest that has to come out. -/
def KnownAnswer.digest : KnownAnswer → Bytes
  | empty =>
    [0x69, 0x21, 0x7A, 0x30, 0x79, 0x90, 0x80, 0x94, 0xE1, 0x11, 0x21, 0xD0, 0x42, 0x35, 0x4A, 0x7C,
     0x1F, 0x55, 0xB6, 0x48, 0x2C, 0xA1, 0xA5, 0x1E, 0x1B, 0x25, 0x0D, 0xFD, 0x1E, 0xD0, 0xEE, 0xF9]
  | abc =>
    [0x50, 0x8C, 0x5E, 0x8C, 0x32, 0x7C, 0x14, 0xE2, 0xE1, 0xA7, 0x2B, 0xA3, 0x4E, 0xEB, 0x45, 0x2F,
     0x37, 0x45, 0x8B, 0x20, 0x9E, 0xD6, 0x3A, 0x29, 0x4D, 0x99, 0x9B, 0x4C, 0x86, 0x67, 0x59, 0x82]
  | grand =>
    [0x6A, 0x41, 0x1F, 0x08, 0xCE, 0x25, 0xAD, 0xCD, 0xFB, 0x02, 0xAB, 0xA6, 0x41, 0x45, 0x1C, 0xEC,
     0x53, 0xC5, 0x98, 0xB2, 0x4F, 0x4F, 0xC7, 0x87, 0xFB, 0xDC, 0x88, 0x79, 0x7F, 0x4C, 0x1D, 0xFE]

def KnownAnswer.mismatchMessage : KnownAnswer → String
  | empty => "BLAKE2s self-test: empty-input vector mismatch"
  | abc => "BLAKE2s self-test: 'abc' vector mismatch"
  | grand => "BLAKE2s self-test: RFC 7693 grand hash mismatch"

/-! ## Running the test -/

variable {σ : Type}

/-- One hash, keyed unless the key is empty. -/
def hash (engine : Engine σ) (outlen : Nat) (data key : Bytes) : ExceptT Fault (StateM σ) Bytes :=
  HashM.evalFrom {} do
    if key.isEmpty then State.init engine outlen else State.initKeyed engine outlen key
    State.update engine data
    State.final engine none

/-- Absorbs the unkeyed and the keyed digest of one generated case. -/
def absorbCase (engine : Engine σ) (outlen inlen : Nat) : HashM σ Unit := do
  let data := sequence inlen inlen
  State.update engine (← HashM.ofEngine (hash engine outlen data []))
  let key := sequence outlen outlen
  State.update engine (← HashM.ofEngine (hash engine outlen data key))

def grandHash (engine : Engine σ) : ExceptT Fault (StateM σ) Bytes :=
  HashM.evalFrom {} do
    State.init engine outBytes
    digestLengths.forM fun outlen => inputLengths.forM fun inlen => absorbCase engine outlen inlen
    State.final engine none

/-- The hash that belongs to a known answer, as an engine computes it. -/
def compute (engine : Engine σ) : KnownAnswer → ExceptT Fault (StateM σ) Bytes
  | .empty => hash engine outBytes [] []
  | .abc => hash engine outBytes [0x61, 0x62, 0x63] []
  | .grand => grandHash engine

/-- Computes the given hashes until one does not come out right, and returns which one that is. -/
def firstMismatch (engine : Engine σ) :
    List KnownAnswer → ExceptT Fault (StateM σ) (Option KnownAnswer)
  | [] => return none
  | answer :: rest => do
    if (← compute engine answer) = answer.digest then firstMismatch engine rest
    else return some answer

/-- Runs the self-test. Returns the first known answer that an engine misses, if there is one. -/
def run (engine : Engine σ) : ExceptT Fault (StateM σ) (Option KnownAnswer) :=
  firstMismatch engine [.empty, .abc, .grand]

end Blake2s.SelfTest
