import Blake2s.Standard.Compression

set_option autoImplicit false

/-! # One-shot hashing as RFC 7693 describes it

The data, with a key put in front as a block of its own, is cut into blocks, the last one padded
with zeros; all of them are compressed in order, and the last one is flagged. -/

namespace Blake2s.Standard

/-- The first chain value under a parameter block given as 32 bytes. -/
def firstChain (parameters : Bytes) : ChainValue :=
  Vector.ofFn fun i => ivWord i ^^^ wordAt parameters i.val

/-- How many blocks some data takes; no data takes one, too. -/
def blockCount (data : Bytes) : Nat := max 1 ((data.length + 63) / 64)

/-- Block `i` of some data, padded with zeros. -/
def blockAt (data : Bytes) (i : Nat) : Bytes := Bytes.padTo 64 ((data.drop (64 * i)).take 64)

/-- Compresses block `i` of some data. The counter is the number of bytes up to the end of the
    block, without the padding. -/
def absorb (data : Bytes) (lastNode : Bool) (h : ChainValue) (i : Nat) : ChainValue :=
  let last := i + 1 = blockCount data
  compress h (blockAt data i)
    (if last then data.length else 64 * (i + 1))
    (if last then BitVec.allOnes 32 else 0)
    (if last ∧ lastNode then BitVec.allOnes 32 else 0)

def lastChain (parameters data : Bytes) (lastNode : Bool) : ChainValue :=
  (List.range (blockCount data)).foldl (absorb data lastNode) (firstChain parameters)

/-- The four bytes of a word, the least significant first. -/
def wordBytes (w : Word32) : Bytes :=
  (List.range 4).map fun k => UInt8.ofNat (w.toNat / 256 ^ k)

/-- The data that a keyed hash of a message absorbs. -/
def keyed (key message : Bytes) : Bytes :=
  (if key = [] then [] else key.padTo 64) ++ message

/-- The first `n` bytes of the hash of some data under a parameter block. -/
def digest (parameters data : Bytes) (lastNode : Bool) (n : Nat) : Bytes :=
  ((lastChain parameters data lastNode).toList.flatMap wordBytes).take n

/-- The parameter block of unkeyed hashing to 32 bytes. -/
def plainParameters : Bytes := [32, 0, 1, 1] ++ Bytes.zeros 28

/-- The unkeyed hash to 32 bytes. -/
def hash (data : Bytes) : Bytes := digest plainParameters data false 32

end Blake2s.Standard
