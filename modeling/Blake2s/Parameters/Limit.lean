import Blake2s.Constants

set_option autoImplicit false

/-! # Limits of the parameter fields

Each field of a parameter block has a limit. The limit decides which numbers the field admits, and
it says in words what it asks for. The order of `Field.all` is the order in which fields are
checked. -/

namespace Blake2s.Parameters

/-- What a field admits. -/
inductive Limit where
  | range (lo hi : Nat)
  | byte
  /-- The numbers that fit in `width` bits. -/
  | bits (width : Nat)
  /-- Byte strings of at most `n` bytes. -/
  | size (n : Nat)
  deriving DecidableEq, Repr

namespace Limit

def least : Limit → Nat
  | range lo _ => lo
  | _ => 0

def greatest : Limit → Nat
  | range _ hi => hi
  | byte => 255
  | bits width => Nat.pow 2 width - 1
  | size n => n

/-- Is the number, which for a byte string is its length, within the limit? -/
def Admits (limit : Limit) (n : Int) : Prop := limit.least ≤ n ∧ n ≤ limit.greatest

instance (limit : Limit) (n : Int) : Decidable (limit.Admits n) :=
  inferInstanceAs (Decidable (_ ∧ _))

/-- A number within a range that fits in a byte is within it as a byte, too. -/
theorem toNat_of_admits {lo hi : Nat} {n : Int} (h : (range lo hi).Admits n) (hi_le : hi ≤ 255) :
    lo ≤ (UInt8.ofNat n.toNat).toNat ∧ (UInt8.ofNat n.toNat).toNat ≤ hi := by
  simp only [Admits, least, greatest] at h
  rw [UInt8.toNat_ofNat']
  omega

/-- What a limit asks for. -/
def requirement : Limit → String
  | range lo hi => "must be in range " ++ toString lo ++ ".." ++ toString hi
  | byte => "must fit in one byte"
  | bits width => "must fit in " ++ toString width ++ " bits"
  | size n => "must be at most " ++ toString n ++ " bytes"

end Limit

inductive Field where
  | digestLength | keyLength | fanout | depth | leafLength | nodeOffset | xofLength | nodeDepth
  | innerLength | salt | personal
  deriving DecidableEq, Repr

namespace Field

/-- All fields, in the order in which they are checked. -/
def all : List Field :=
  [digestLength, keyLength, innerLength, fanout, depth, nodeDepth, leafLength, nodeOffset,
   xofLength, salt, personal]

theorem mem_all (field : Field) : field ∈ all := by cases field <;> decide

def name : Field → String
  | digestLength => "digest_length"
  | keyLength => "key_length"
  | fanout => "fanout"
  | depth => "depth"
  | leafLength => "leaf_length"
  | nodeOffset => "node_offset"
  | xofLength => "xof_length"
  | nodeDepth => "node_depth"
  | innerLength => "inner_length"
  | salt => "salt"
  | personal => "personal"

def limit : Field → Limit
  | digestLength => .range 1 outBytes
  | keyLength => .range 0 keyBytes
  | innerLength => .range 0 outBytes
  | fanout | depth | nodeDepth => .byte
  | leafLength | nodeOffset => .bits 32
  | xofLength => .bits 16
  | salt => .size saltBytes
  | personal => .size personalBytes

end Field

end Blake2s.Parameters
