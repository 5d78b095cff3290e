import Blake2s.Standard.Digest

set_option autoImplicit false

/-! # Message authentication and key derivation as RFC 2104 and RFC 5869 describe them

Both are stated over the one-shot hash. The blocks of derived key material are a sequence in which
each block depends on the one before it. -/

namespace Blake2s.Standard

/-- The key of a message authentication code as one block. -/
def macKey (key : Bytes) : Bytes := (if 64 < key.length then hash key else key).padTo 64

/-- The message authentication code of a message, all 32 bytes of it. -/
def mac (key message : Bytes) : Bytes :=
  let key := macKey key
  hash (key.map (· ^^^ 0x5C) ++ hash (key.map (· ^^^ 0x36) ++ message))

/-- The blocks of derived key material, counted from 1; block 0 is empty. -/
def derivedBlock (key info : Bytes) : Nat → Bytes
  | 0 => []
  | i + 1 => mac key (derivedBlock key info i ++ info ++ [UInt8.ofNat (i + 1)])

/-- The first `length` bytes of the derived key material. -/
def derived (key info : Bytes) (length : Nat) : Bytes :=
  ((List.range ((length + 31) / 32)).flatMap fun i => derivedBlock key info (i + 1)).take length

end Blake2s.Standard
