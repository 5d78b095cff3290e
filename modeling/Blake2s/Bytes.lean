set_option autoImplicit false

/-! # Byte strings and words

Inputs, keys, buffers and digests are byte strings, `Bytes`. The hash computes on 32-bit words;
`Word.ofBytes` and `Word.toBytes` are the little-endian reading and writing that join the two. -/

namespace Blake2s

abbrev Bytes := List UInt8

/-- The same number of zeros, in place of the bytes or the words that something holds. -/
def wiped {α : Type} [OfNat α 0] {n : Nat} (values : Vector α n) : Vector α n :=
  values.map fun _ => 0

theorem wiped_eq {α : Type} [OfNat α 0] {n : Nat} (values : Vector α n) :
    wiped values = Vector.replicate n 0 := Vector.map_const'

namespace Bytes

def zeros (n : Nat) : Bytes := List.replicate n 0

/-- Appends zeros up to `n` bytes; a string of `n` or more bytes stays as it is. -/
def padTo (n : Nat) (bytes : Bytes) : Bytes := bytes ++ zeros (n - bytes.length)

/-- Replaces the first bytes of `buffer` by `written`. -/
def overwrite (buffer written : Bytes) : Bytes := written ++ buffer.drop written.length

/-- Every byte combined with the same mask by exclusive or. -/
def mask (byte : UInt8) (bytes : Bytes) : Bytes := bytes.map (· ^^^ byte)

def hexDigits (byte : UInt8) : List Char :=
  [Nat.digitChar (byte.toNat / 16), Nat.digitChar (byte.toNat % 16)]

/-- Lower-case hexadecimal text, two digits a byte. -/
def toHex (bytes : Bytes) : String := String.ofList (bytes.flatMap hexDigits)

@[simp] theorem length_zeros (n : Nat) : (zeros n).length = n := by simp [zeros]

@[simp] theorem length_mask (byte : UInt8) (bytes : Bytes) :
    (mask byte bytes).length = bytes.length := by simp [mask]

theorem length_padTo (n : Nat) (bytes : Bytes) :
    (padTo n bytes).length = max n bytes.length := by
  simp [padTo]; omega

theorem length_overwrite (buffer written : Bytes) :
    (overwrite buffer written).length = max buffer.length written.length := by
  simp [overwrite]; omega

end Bytes

namespace Word

/-- The word whose bytes, least significant first, are `b₀ b₁ b₂ b₃`. -/
def ofBytes (b₀ b₁ b₂ b₃ : UInt8) : UInt32 :=
  b₀.toUInt32 ||| (b₁.toUInt32 <<< 8) ||| (b₂.toUInt32 <<< 16) ||| (b₃.toUInt32 <<< 24)

/-- The four bytes of a word, least significant first. -/
def toBytes (w : UInt32) : Bytes :=
  [w.toUInt8, (w >>> 8).toUInt8, (w >>> 16).toUInt8, (w >>> 24).toUInt8]

/-- Rotation to the right by `n` bits, `0 < n < 32`. -/
def rotateRight (w n : UInt32) : UInt32 := (w >>> n) ||| (w <<< (32 - n))

@[simp] theorem length_toBytes (w : UInt32) : (toBytes w).length = 4 := rfl

end Word

end Blake2s
