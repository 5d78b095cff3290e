import Blake2s.Parameters.Limit
import Blake2s.Text.Quoted

set_option autoImplicit false

/-! # Faults

Hashing itself cannot fail. A `Fault` is a mistake of the caller (a length out of range, a state
used after it was finished), a tag that does not match, or a backend that failed its self-test. Each
constructor is one cause; `Fault.message` words it. -/

namespace Blake2s

/-- What can be wrong with a configuration whose settings could be read. -/
inductive ConfigProblem where
  | minBlocks
  deriving DecidableEq, Repr

def ConfigProblem.message : ConfigProblem → String
  | minBlocks => "simd_min_blocks must be at least 1"

/-- The causes of failure. -/
inductive Fault where
  | fieldRange (field : Parameters.Field)
  | parameterSize (size : Nat)
  /-- A digest or tag length is not in `1..32`. -/
  | outputLength
  /-- A key is not as long as the parameter block says. -/
  | keyMismatch
  /-- A key for keyed hashing does not have `1..32` bytes. -/
  | keyLength
  /-- An output buffer does not hold the `needed` bytes. -/
  | outputRoom (needed : Nat)
  /-- Several blocks were to be compressed with an increment other than a block. -/
  | partialIncrement
  /-- A state was used that is not initialized or already finished. -/
  | notLive
  /-- A tag to be checked does not have `1..32` bytes. -/
  | tagLength
  | tagMismatch
  /-- The length of derived key material is not in `1..8160`. -/
  | derivedLength
  /-- A number to be written as a single byte is too large for that. -/
  | byteRange (n : Nat)
  /-- The setting of the least batch size is not an integer. -/
  | minBlocksText (text : String)
  | configuration (problems : List ConfigProblem)
  | selfTest (backend : String)
  deriving DecidableEq, Repr

namespace Fault

/-- The kinds of fault that a caller may want to tell apart. -/
inductive Kind where
  /-- A length, a field or a setting is out of range. -/
  | parameter
  /-- A state is used before it is initialized or after it is finished. -/
  | state
  | verification
  | selfTest
  /-- A number does not fit where it is to be written. -/
  | value
  deriving DecidableEq, Repr

def kind : Fault → Kind
  | notLive => .state
  | tagLength | tagMismatch => .verification
  | selfTest _ => .selfTest
  | byteRange _ => .value
  | _ => .parameter

/-- What a caller can be ready for: any fault of hashing, or those of one kind. -/
inductive Family where
  | hashing
  | ofKind (kind : Kind)
  deriving DecidableEq, Repr

/-- Is a caller who is ready for a family ready for a kind of fault? A parameter that is out of range
    is also a value that does not fit. -/
def Family.includes : Family → Kind → Bool
  | hashing, kind => kind ≠ .value
  | ofKind .value, .parameter => true
  | ofKind kind, kind' => kind = kind'

/-- A number too large for a byte is the one fault that is not of hashing. -/
theorem hashing_includes_kind_iff (fault : Fault) :
    Family.hashing.includes fault.kind = true ↔ ∀ n, fault ≠ .byteRange n := by
  cases fault <;> simp [Family.includes, kind]

def message : Fault → String
  | fieldRange field => field.name ++ " " ++ field.limit.requirement
  | parameterSize size => "parameter block must be 32 bytes, got " ++ toString size
  | outputLength => "outlen must be in range 1..32"
  | keyMismatch => "key length does not match the parameter block"
  | keyLength => "key must be 1..32 bytes"
  | outputRoom needed => "output buffer must hold at least " ++ toString needed ++ " bytes"
  | partialIncrement => "multi-block compression requires a full-block increment"
  | notLive => "hash state is not initialized or was already finalized"
  | tagLength => "tag has an invalid length"
  | tagMismatch => "HMAC tag mismatch"
  | derivedLength => "length must be in range 1..8160"
  | byteRange _ => "bytes must be in range(0, 256)"
  | minBlocksText text =>
    "BLAKE2S_SIMD_MIN_BLOCKS must be an integer, got " ++ String.ofList (Text.quoted text.toList)
  | configuration problems => String.intercalate "; " (problems.map ConfigProblem.message)
  | selfTest backend => "self-test failed for backend " ++ backend

end Fault

/-- Checks the length of a digest or tag. -/
def outputLength (n : Int) : Except Fault Nat :=
  if 1 ≤ n ∧ n ≤ outBytes then .ok n.toNat else .error .outputLength

end Blake2s
