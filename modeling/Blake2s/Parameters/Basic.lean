import Blake2s.Fault

set_option autoImplicit false

/-! # Parameter blocks

A parameter block says how a hash is set up: the lengths of digest and key, the place of the hash in
a tree, salt and personalization. `Fields` holds what a caller asks for, as unbounded numbers;
`Parameters.ofFields` checks it. A block is written as 32 bytes by `Parameters.toBytes` and read
back by `Parameters.ofBytes`; read as eight little-endian words and combined with the initialization
vector, these bytes are the first chain value. -/

namespace Blake2s

namespace Parameters

/-- Requested values of the fields of a parameter block. -/
structure Fields where
  digestLength : Int := 32
  keyLength : Int := 0
  fanout : Int := 1
  depth : Int := 1
  leafLength : Int := 0
  nodeOffset : Int := 0
  xofLength : Int := 0
  nodeDepth : Int := 0
  innerLength : Int := 0
  salt : Bytes := []
  personal : Bytes := []
  deriving DecidableEq, Repr

namespace Fields

/-- The number that the limit of a field is about: its value, or the length of a byte string. -/
def measure (fields : Fields) : Field → Int
  | .digestLength => fields.digestLength
  | .keyLength => fields.keyLength
  | .fanout => fields.fanout
  | .depth => fields.depth
  | .leafLength => fields.leafLength
  | .nodeOffset => fields.nodeOffset
  | .xofLength => fields.xofLength
  | .nodeDepth => fields.nodeDepth
  | .innerLength => fields.innerLength
  | .salt => fields.salt.length
  | .personal => fields.personal.length

def InRange (fields : Fields) (field : Field) : Prop := field.limit.Admits (fields.measure field)

instance (fields : Fields) (field : Field) : Decidable (fields.InRange field) :=
  inferInstanceAs (Decidable (field.limit.Admits _))

/-- The first field, in the order of the checks, that is out of its limit. -/
def firstOutOfRange (fields : Fields) : Option Field := Field.all.find? fun x => ¬ fields.InRange x

theorem inRange_of_firstOutOfRange {fields : Fields} (h : fields.firstOutOfRange = none)
    (field : Field) : fields.InRange field := by
  simpa using List.find?_eq_none.mp h field field.mem_all

end Fields

end Parameters

structure Parameters where
  digestLength : UInt8
  keyLength : UInt8
  fanout : UInt8
  depth : UInt8
  leafLength : UInt32
  nodeOffset : UInt32
  xofLength : UInt16
  nodeDepth : UInt8
  innerLength : UInt8
  /-- The salt as given; it is padded with zeros when the block is written. -/
  salt : Bytes
  /-- The personalization as given; it is padded with zeros when the block is written. -/
  personal : Bytes
  digestLength_pos : 1 ≤ digestLength.toNat
  digestLength_le : digestLength.toNat ≤ outBytes
  keyLength_le : keyLength.toNat ≤ keyBytes
  innerLength_le : innerLength.toNat ≤ outBytes
  salt_le : salt.length ≤ saltBytes
  personal_le : personal.length ≤ personalBytes
  deriving DecidableEq, Repr

namespace Parameters

/-- The parameter block with the given fields, or the first field that is out of its limit. -/
def ofFields (fields : Fields) : Except Fault Parameters :=
  match h : fields.firstOutOfRange with
  | some field => .error (.fieldRange field)
  | none =>
    have inRange := Fields.inRange_of_firstOutOfRange h
    .ok
      { digestLength := UInt8.ofNat fields.digestLength.toNat
        keyLength := UInt8.ofNat fields.keyLength.toNat
        fanout := UInt8.ofNat fields.fanout.toNat
        depth := UInt8.ofNat fields.depth.toNat
        leafLength := UInt32.ofNat fields.leafLength.toNat
        nodeOffset := UInt32.ofNat fields.nodeOffset.toNat
        xofLength := UInt16.ofNat fields.xofLength.toNat
        nodeDepth := UInt8.ofNat fields.nodeDepth.toNat
        innerLength := UInt8.ofNat fields.innerLength.toNat
        salt := fields.salt
        personal := fields.personal
        digestLength_pos := (Limit.toNat_of_admits (inRange .digestLength) (by decide)).1
        digestLength_le := (Limit.toNat_of_admits (inRange .digestLength) (by decide)).2
        keyLength_le := (Limit.toNat_of_admits (inRange .keyLength) (by decide)).2
        innerLength_le := (Limit.toNat_of_admits (inRange .innerLength) (by decide)).2
        salt_le := Int.ofNat_le.mp (inRange .salt).2
        personal_le := Int.ofNat_le.mp (inRange .personal).2 }

def fields (p : Parameters) : Fields :=
  { digestLength := p.digestLength.toNat
    keyLength := p.keyLength.toNat
    fanout := p.fanout.toNat
    depth := p.depth.toNat
    leafLength := p.leafLength.toNat
    nodeOffset := p.nodeOffset.toNat
    xofLength := p.xofLength.toNat
    nodeDepth := p.nodeDepth.toNat
    innerLength := p.innerLength.toNat
    salt := p.salt
    personal := p.personal }

/-- The 32 bytes of a parameter block. -/
def toBytes (p : Parameters) : Bytes :=
  [p.digestLength, p.keyLength, p.fanout, p.depth] ++ Word.toBytes p.leafLength ++
    Word.toBytes p.nodeOffset ++
    [p.xofLength.toUInt8, (p.xofLength >>> 8).toUInt8, p.nodeDepth, p.innerLength] ++
    p.salt.padTo saltBytes ++ p.personal.padTo personalBytes

theorem length_toBytes (p : Parameters) : p.toBytes.length = parameterBytes := by
  have := p.salt_le
  have := p.personal_le
  simp [toBytes, Bytes.length_padTo, saltBytes, personalBytes, parameterBytes] at *
  omega

/-- The value of two bytes, the less significant first. -/
def twoBytes (lo hi : UInt8) : Nat := lo.toNat + 256 * hi.toNat

/-- The word at the given place of a byte string, in words from its start. -/
def wordAt (bytes : Bytes) (i : Nat) : UInt32 :=
  Word.ofBytes (bytes.getD (4 * i) 0) (bytes.getD (4 * i + 1) 0) (bytes.getD (4 * i + 2) 0)
    (bytes.getD (4 * i + 3) 0)

def fieldsOfBytes (bytes : Bytes) : Fields :=
  let byte (i : Nat) : UInt8 := bytes.getD i 0
  { digestLength := (byte 0).toNat
    keyLength := (byte 1).toNat
    fanout := (byte 2).toNat
    depth := (byte 3).toNat
    leafLength := (wordAt bytes 1).toNat
    nodeOffset := (wordAt bytes 2).toNat
    xofLength := twoBytes (byte 12) (byte 13)
    nodeDepth := (byte 14).toNat
    innerLength := (byte 15).toNat
    salt := (bytes.drop 16).take saltBytes
    personal := (bytes.drop 24).take personalBytes }

/-- Reads a parameter block. Salt and personalization come back in full length. -/
def ofBytes (bytes : Bytes) : Except Fault Parameters :=
  if bytes.length = parameterBytes then ofFields (fieldsOfBytes bytes)
  else .error (.parameterSize bytes.length)

/-- The block as eight little-endian words. -/
def words (p : Parameters) : Vector UInt32 8 := Vector.ofFn fun i => wordAt p.toBytes i.val

def chainValue (p : Parameters) : Vector UInt32 8 := iv.zipWith (· ^^^ ·) p.words

end Parameters

end Blake2s
