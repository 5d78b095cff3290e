import Blake2s.Proofs.Parameters.Layout
import Mathlib.Algebra.Order.Ring.Int

set_option autoImplicit false

/-! # The format of parameter blocks

A parameter block is made exactly if every field asked for is within its limit, and it has just these
fields (`Parameters.ofFields_eq_ok_iff`). Its bytes are the fields one after the other, each in a slot
of its own width; a limit never admits more than the slot holds (`Parameters.write?_fields`). Reading
undoes writing and writing undoes reading, up to the zeros that pad salt and personalization
(`Parameters.ofBytes_eq_ok_iff`). All of it together is `Parameters.format_exact`. -/

namespace Blake2s

/-! ## Slots -/

/-- A value with the number of bytes that it is to be written in. -/
inductive Slot where
  /-- A number, which has to fit. -/
  | number (value : Int) (width : Nat)
  /-- A byte string, to be padded with zeros or cut off. -/
  | string (value : Bytes) (width : Nat)

namespace Slot

/-- The bytes of a slot, for a number the least significant first. -/
def write? : Slot → Option Bytes
  | number value width =>
    if 0 ≤ value ∧ value.toNat < 256 ^ width then
      some ((List.range width).map fun k => UInt8.ofNat (value.toNat / 256 ^ k))
    else none
  | string value width => some ((value.padTo width).take width)

theorem write?_number {n width : Nat} (fits : n < 256 ^ width) :
    (number n width).write? = some ((List.range width).map fun k => UInt8.ofNat (n / 256 ^ k)) := by
  have inRange : 0 ≤ (n : Int) ∧ (n : Int).toNat < 256 ^ width := ⟨Int.natCast_nonneg n, fits⟩
  rw [write?, if_pos inRange, Int.toNat_natCast]

theorem write?_uint8 (x : UInt8) : (number x.toNat 1).write? = some [x] := by
  rw [write?_number x.toNat_lt]
  simp

theorem write?_uint32 (w : UInt32) : (number w.toNat 4).write? = some (Word.toBytes w) := by
  rw [write?_number w.toNat_lt, Word.toBytes_eq_map]

theorem write?_uint16 (x : UInt16) :
    (number x.toNat 2).write? = some [x.toUInt8, (x >>> 8).toUInt8] := by
  have high : (x >>> 8).toUInt8 = UInt8.ofNat (x.toNat / 256) := by
    apply UInt8.toNat_inj.mp
    rw [UInt16.toNat_toUInt8, UInt16.toNat_shiftRight, UInt8.toNat_ofNat']
    exact congrArg (· % 256) (Nat.shiftRight_eq_div_pow _ 8)
  rw [write?_number x.toNat_lt, high]
  simp [List.range_succ]

theorem write?_string {bytes : Bytes} {width : Nat} (fits : bytes.length ≤ width) :
    (string bytes width).write? = some (bytes.padTo width) := by
  have length : (bytes.padTo width).length = width := by
    rw [Bytes.length_padTo, Nat.max_eq_left fits]
  rw [write?, List.take_of_length_le (Nat.le_of_eq length)]

end Slot

namespace Parameters

/-- The slots of a parameter block, in the order of its bytes. -/
def Fields.slots (fields : Fields) : List Slot :=
  [.number fields.digestLength 1, .number fields.keyLength 1, .number fields.fanout 1,
   .number fields.depth 1, .number fields.leafLength 4, .number fields.nodeOffset 4,
   .number fields.xofLength 2, .number fields.nodeDepth 1, .number fields.innerLength 1,
   .string fields.salt saltBytes, .string fields.personal personalBytes]

/-- The bytes of all slots one after the other, if every number fits. -/
def Fields.write? (fields : Fields) : Option Bytes :=
  (fields.slots.mapM Slot.write?).map List.flatten

/-- **A block can be written**: each of its fields fits in its slot. -/
theorem write?_fields (p : Parameters) : p.fields.write? = some p.toBytes := by
  simp only [Fields.write?, Fields.slots, fields, List.mapM_cons, List.mapM_nil, Slot.write?_uint8,
    Slot.write?_uint16, Slot.write?_uint32, Slot.write?_string p.salt_le,
    Slot.write?_string p.personal_le, Option.pure_def, Option.bind_eq_bind, Option.bind_some,
    Option.map_some]
  simp [toBytes]

/-! ## Making a block -/

/-- The ranges of all fields. -/
structure Fields.Ranges (fields : Fields) : Prop where
  digestLength : 1 ≤ fields.digestLength ∧ fields.digestLength ≤ 32
  keyLength : 0 ≤ fields.keyLength ∧ fields.keyLength ≤ 32
  innerLength : 0 ≤ fields.innerLength ∧ fields.innerLength ≤ 32
  fanout : 0 ≤ fields.fanout ∧ fields.fanout ≤ 255
  depth : 0 ≤ fields.depth ∧ fields.depth ≤ 255
  nodeDepth : 0 ≤ fields.nodeDepth ∧ fields.nodeDepth ≤ 255
  leafLength : 0 ≤ fields.leafLength ∧ fields.leafLength < 2 ^ 32
  nodeOffset : 0 ≤ fields.nodeOffset ∧ fields.nodeOffset < 2 ^ 32
  xofLength : 0 ≤ fields.xofLength ∧ fields.xofLength < 2 ^ 16
  salt : fields.salt.length ≤ 8
  personal : fields.personal.length ≤ 8

/-- The limits that are checked are these ranges. -/
theorem Fields.ranges_iff (fields : Fields) :
    fields.Ranges ↔ ∀ field, fields.InRange field := by
  have bits (width : Nat) (n : Int) : (Limit.bits width).Admits n ↔ 0 ≤ n ∧ n < 2 ^ width := by
    have pos : 0 < 2 ^ width := Nat.two_pow_pos width
    have cast : ((2 ^ width : Nat) : Int) = 2 ^ width := by norm_cast
    simp only [Limit.Admits, Limit.least, Limit.greatest, Nat.pow_eq]
    omega
  constructor
  · intro ranges field
    cases field with
    | digestLength => exact ranges.digestLength
    | keyLength => exact ranges.keyLength
    | innerLength => exact ranges.innerLength
    | fanout => exact ranges.fanout
    | depth => exact ranges.depth
    | nodeDepth => exact ranges.nodeDepth
    | leafLength => exact (bits 32 _).mpr ranges.leafLength
    | nodeOffset => exact (bits 32 _).mpr ranges.nodeOffset
    | xofLength => exact (bits 16 _).mpr ranges.xofLength
    | salt => exact ⟨Int.natCast_nonneg _, Int.ofNat_le.mpr ranges.salt⟩
    | personal => exact ⟨Int.natCast_nonneg _, Int.ofNat_le.mpr ranges.personal⟩
  · intro inRange
    exact
      { digestLength := inRange .digestLength
        keyLength := inRange .keyLength
        innerLength := inRange .innerLength
        fanout := inRange .fanout
        depth := inRange .depth
        nodeDepth := inRange .nodeDepth
        leafLength := (bits 32 _).mp (inRange .leafLength)
        nodeOffset := (bits 32 _).mp (inRange .nodeOffset)
        xofLength := (bits 16 _).mp (inRange .xofLength)
        salt := Int.ofNat_le.mp (inRange .salt).2
        personal := Int.ofNat_le.mp (inRange .personal).2 }

theorem range_of_uint8 (x : UInt8) : 0 ≤ (x.toNat : Int) ∧ (x.toNat : Int) ≤ 255 :=
  ⟨Int.natCast_nonneg _, Int.ofNat_le.mpr (Nat.le_of_lt_succ x.toNat_lt)⟩

theorem range_of_uint32 (w : UInt32) : 0 ≤ (w.toNat : Int) ∧ (w.toNat : Int) < 2 ^ 32 :=
  ⟨Int.natCast_nonneg _, Int.ofNat_lt.mpr w.toNat_lt⟩

theorem ranges_fields (p : Parameters) : p.fields.Ranges := by
  have length {n : Nat} (h : n ≤ 32) : 0 ≤ (n : Int) ∧ (n : Int) ≤ 32 :=
    ⟨Int.natCast_nonneg n, Int.ofNat_le.mpr h⟩
  exact
    { digestLength := ⟨Int.ofNat_le.mpr p.digestLength_pos, Int.ofNat_le.mpr p.digestLength_le⟩
      keyLength := length p.keyLength_le
      innerLength := length p.innerLength_le
      fanout := range_of_uint8 p.fanout
      depth := range_of_uint8 p.depth
      nodeDepth := range_of_uint8 p.nodeDepth
      leafLength := range_of_uint32 p.leafLength
      nodeOffset := range_of_uint32 p.nodeOffset
      xofLength := ⟨Int.natCast_nonneg _, Int.ofNat_lt.mpr p.xofLength.toNat_lt⟩
      salt := p.salt_le
      personal := p.personal_le }

/-- Different blocks have different fields. -/
theorem fields_injective {p q : Parameters} (h : p.fields = q.fields) : p = q := by
  cases p
  cases q
  simpa only [fields, Fields.mk.injEq, Parameters.mk.injEq, Int.natCast_inj, UInt8.toNat_inj,
    UInt16.toNat_inj, UInt32.toNat_inj] using h

/-- **A block is made exactly for its own fields.** -/
theorem ofFields_eq_ok_iff {fields : Fields} {p : Parameters} :
    ofFields fields = .ok p ↔ p.fields = fields := by
  constructor
  · exact fields_of_ofFields
  · rintro rfl
    obtain ⟨q, made⟩ := exists_ofFields (p.fields.ranges_iff.mp p.ranges_fields)
    rw [made, fields_injective (fields_of_ofFields made)]

theorem exists_ofFields_iff (fields : Fields) : (∃ p, ofFields fields = .ok p) ↔ fields.Ranges := by
  constructor
  · rintro ⟨p, made⟩
    rw [← ofFields_eq_ok_iff.mp made]
    exact p.ranges_fields
  · intro ranges
    exact exists_ofFields (fields.ranges_iff.mp ranges)

/-! ## Reading and writing -/

theorem twoBytes_toUInt8 (x : UInt16) : twoBytes x.toUInt8 (x >>> 8).toUInt8 = x.toNat := by
  have hx := x.toNat_lt
  have high : (x >>> 8).toUInt8.toNat = x.toNat / 256 % 256 := by
    rw [UInt16.toNat_toUInt8, UInt16.toNat_shiftRight]
    exact congrArg (· % 256) (Nat.shiftRight_eq_div_pow _ 8)
  rw [twoBytes, high, UInt16.toNat_toUInt8]
  omega

theorem length_padTo_personal (p : Parameters) :
    (p.personal.padTo personalBytes).length = personalBytes := by
  rw [Bytes.length_padTo, Nat.max_eq_left p.personal_le]

/-- What was written is read, at full length. -/
theorem fieldsOfBytes_toBytes (p : Parameters) : fieldsOfBytes p.toBytes = p.padded.fields := by
  have word (w : UInt32) :
      Word.ofBytes w.toUInt8 (w >>> 8).toUInt8 (w >>> 16).toUInt8 (w >>> 24).toUInt8 = w :=
    Word.toBytes_injective (Word.toBytes_ofBytes ..)
  have leaf : wordAt p.toBytes 1 = p.leafLength := word p.leafLength
  have offset : wordAt p.toBytes 2 = p.nodeOffset := word p.nodeOffset
  have xof : twoBytes (p.toBytes.getD 12 0) (p.toBytes.getD 13 0) = p.xofLength.toNat :=
    twoBytes_toUInt8 p.xofLength
  have strings : p.toBytes.drop 16 = p.salt.padTo saltBytes ++ p.personal.padTo personalBytes := rfl
  have salt : (p.toBytes.drop 16).take saltBytes = p.salt.padTo saltBytes := by
    rw [strings, List.take_left' p.length_padTo_salt]
  have personal : (p.toBytes.drop 24).take personalBytes = p.personal.padTo personalBytes := by
    have behind : p.toBytes.drop 24 = (p.toBytes.drop 16).drop saltBytes := by rw [List.drop_drop]; rfl
    rw [behind, strings, List.drop_left' p.length_padTo_salt,
      List.take_of_length_le (Nat.le_of_eq p.length_padTo_personal)]
  simp only [fieldsOfBytes, fields, padded, Fields.mk.injEq, leaf, offset, xof, salt, personal,
    and_true, true_and]
  exact ⟨rfl, rfl, rfl, rfl, rfl, rfl⟩

theorem ofBytes_toBytes (p : Parameters) : ofBytes p.toBytes = .ok p.padded := by
  rw [ofBytes, if_pos p.length_toBytes, ofFields_eq_ok_iff, fieldsOfBytes_toBytes]

theorem eq_of_twoBytes {lo hi lo' hi' : UInt8} (h : twoBytes lo hi = twoBytes lo' hi') :
    lo = lo' ∧ hi = hi' := by
  have hlo := lo.toNat_lt
  have hlo' := lo'.toNat_lt
  simp only [twoBytes] at h
  rw [← UInt8.toNat_inj, ← UInt8.toNat_inj]
  omega

/-- The parts of a string in which the fields are. -/
theorem eq_append_parts {bytes : Bytes} (size : bytes.length = 32) :
    bytes = bytes.take 4 ++ (bytes.drop 4).take 4 ++ (bytes.drop 8).take 4 ++
      (bytes.drop 12).take 4 ++ (bytes.drop 16).take 8 ++ (bytes.drop 24).take 8 := by
  have cut (n k : Nat) : (bytes.drop n).take k ++ bytes.drop (n + k) = bytes.drop n := by
    rw [← List.drop_drop, List.take_append_drop]
  have last : (bytes.drop 24).take 8 = bytes.drop 24 :=
    List.take_of_length_le (by rw [List.length_drop]; omega)
  rw [last]
  simp only [List.append_assoc, cut, List.take_append_drop]

/-- What was read is written, if it was of the right size. -/
theorem toBytes_of_fields {bytes : Bytes} (size : bytes.length = 32) {p : Parameters}
    (h : p.fields = fieldsOfBytes bytes) : p.toBytes = bytes ∧ p.padded = p := by
  have byte {x y : UInt8} (same : (x.toNat : Int) = y.toNat) : x = y :=
    UInt8.toNat_inj.mp (Int.ofNat_inj.mp same)
  have word {x y : UInt32} (same : (x.toNat : Int) = y.toNat) : x = y :=
    UInt32.toNat_inj.mp (Int.ofNat_inj.mp same)
  obtain ⟨digest, key, fanout, depth, leaf, offset, xof, node, inner, salt, personal⟩ :=
    Fields.mk.inj h
  have leafBytes : Word.toBytes p.leafLength = (bytes.drop 4).take 4 := by
    rw [word leaf, wordAt, Word.toBytes_ofBytes, Word.take_four_drop (by omega)]
  have offsetBytes : Word.toBytes p.nodeOffset = (bytes.drop 8).take 4 := by
    rw [word offset, wordAt, Word.toBytes_ofBytes, Word.take_four_drop (by omega)]
  have xofBytes : p.xofLength.toUInt8 = bytes.getD 12 0 ∧
      (p.xofLength >>> 8).toUInt8 = bytes.getD 13 0 := by
    have both : twoBytes p.xofLength.toUInt8 (p.xofLength >>> 8).toUInt8
        = twoBytes (bytes.getD 12 0) (bytes.getD 13 0) := by
      rw [twoBytes_toUInt8]
      exact Int.ofNat_inj.mp xof
    exact eq_of_twoBytes both
  have front : [p.digestLength, p.keyLength, p.fanout, p.depth] = bytes.take 4 := by
    have long : 0 + 4 ≤ bytes.length := by omega
    have four := Word.take_four_drop long
    rw [List.drop_zero] at four
    rw [byte digest, byte key, byte fanout, byte depth, four]
  have middle : [p.xofLength.toUInt8, (p.xofLength >>> 8).toUInt8, p.nodeDepth, p.innerLength]
      = (bytes.drop 12).take 4 := by
    rw [xofBytes.1, xofBytes.2, byte node, byte inner, Word.take_four_drop (by omega)]
  have saltBytes : p.salt.padTo saltBytes = p.salt := by
    apply Bytes.padTo_eq_self_iff.mpr
    rw [salt, List.length_take, List.length_drop, size]
    exact Nat.le_refl 8
  have personalBytes : p.personal.padTo personalBytes = p.personal := by
    apply Bytes.padTo_eq_self_iff.mpr
    rw [personal, List.length_take, List.length_drop, size]
    exact Nat.le_refl 8
  constructor
  · rw [toBytes, front, leafBytes, offsetBytes, middle, saltBytes, personalBytes, salt, personal]
    exact (eq_append_parts size).symm
  · simp only [padded, saltBytes, personalBytes]

/-- A block is at full length just if its salt and personalization are. -/
theorem padded_eq_self_iff (p : Parameters) :
    p.padded = p ↔ p.salt.length = saltBytes ∧ p.personal.length = personalBytes := by
  have salt := p.salt_le
  have personal := p.personal_le
  have strings : p.padded = p ↔
      p.salt.padTo saltBytes = p.salt ∧ p.personal.padTo personalBytes = p.personal := by
    constructor
    · intro same
      exact ⟨congrArg Parameters.salt same, congrArg Parameters.personal same⟩
    · rintro ⟨salt, personal⟩
      simp only [padded, salt, personal]
  rw [strings, Bytes.padTo_eq_self_iff, Bytes.padTo_eq_self_iff]
  omega

theorem toBytes_padded (p : Parameters) : p.padded.toBytes = p.toBytes := by
  have salt : (p.salt.padTo saltBytes).padTo saltBytes = p.salt.padTo saltBytes :=
    Bytes.padTo_eq_self_iff.mpr (Nat.le_of_eq p.length_padTo_salt.symm)
  have personal :
      (p.personal.padTo personalBytes).padTo personalBytes = p.personal.padTo personalBytes :=
    Bytes.padTo_eq_self_iff.mpr (Nat.le_of_eq p.length_padTo_personal.symm)
  simp only [toBytes, padded, salt, personal]

/-- **A block is read exactly from its own bytes**, and comes at full length. -/
theorem ofBytes_eq_ok_iff {bytes : Bytes} {p : Parameters} :
    ofBytes bytes = .ok p ↔ p.toBytes = bytes ∧ p.padded = p := by
  constructor
  · intro read
    by_cases size : bytes.length = parameterBytes
    · rw [ofBytes, if_pos size] at read
      exact toBytes_of_fields size (fields_of_ofFields read)
    · rw [ofBytes, if_neg size] at read
      exact nomatch read
  · rintro ⟨rfl, full⟩
    rw [ofBytes_toBytes, full]

/-- The only bytes that reading checks are the three with a limit below 255. -/
theorem ranges_fieldsOfBytes_iff {bytes : Bytes} :
    (fieldsOfBytes bytes).Ranges ↔
      (1 ≤ (bytes.getD 0 0).toNat ∧ (bytes.getD 0 0).toNat ≤ 32) ∧
        (bytes.getD 1 0).toNat ≤ 32 ∧ (bytes.getD 15 0).toNat ≤ 32 := by
  constructor
  · intro ranges
    exact ⟨⟨Int.ofNat_le.mp ranges.digestLength.1, Int.ofNat_le.mp ranges.digestLength.2⟩,
      Int.ofNat_le.mp ranges.keyLength.2, Int.ofNat_le.mp ranges.innerLength.2⟩
  · rintro ⟨⟨least, digest⟩, key, inner⟩
    have low := (bytes.getD 12 0).toNat_lt
    have high := (bytes.getD 13 0).toNat_lt
    exact
      { digestLength := ⟨Int.ofNat_le.mpr least, Int.ofNat_le.mpr digest⟩
        keyLength := ⟨Int.natCast_nonneg _, Int.ofNat_le.mpr key⟩
        innerLength := ⟨Int.natCast_nonneg _, Int.ofNat_le.mpr inner⟩
        fanout := range_of_uint8 _
        depth := range_of_uint8 _
        nodeDepth := range_of_uint8 _
        leafLength := range_of_uint32 _
        nodeOffset := range_of_uint32 _
        xofLength := by
          simp only [fieldsOfBytes, twoBytes]
          omega
        salt := List.length_take_le 8 _
        personal := List.length_take_le 8 _ }

theorem exists_ofBytes_iff (bytes : Bytes) :
    (∃ p, ofBytes bytes = .ok p) ↔
      bytes.length = 32 ∧ (1 ≤ (bytes.getD 0 0).toNat ∧ (bytes.getD 0 0).toNat ≤ 32) ∧
        (bytes.getD 1 0).toNat ≤ 32 ∧ (bytes.getD 15 0).toNat ≤ 32 := by
  by_cases size : bytes.length = parameterBytes
  · rw [ofBytes, if_pos size, exists_ofFields_iff, ranges_fieldsOfBytes_iff]
    exact (and_iff_right size).symm
  · rw [ofBytes, if_neg size]
    constructor
    · rintro ⟨p, read⟩
      exact nomatch read
    · intro inRange
      exact absurd inRange.1 size

/-! ## The first chain value -/

theorem chainValue_eq_iff {p q : Parameters} :
    p.chainValue = q.chainValue ↔ p.padded = q.padded := by
  constructor
  · exact padded_eq_of_chainValue
  · intro same
    have bytes : p.toBytes = q.toBytes := by
      rw [← p.toBytes_padded, same, q.toBytes_padded]
    rw [chainValue, words, bytes]
    rfl

/-- Each chain word is four bytes of the block over a word of the initialization vector. -/
theorem toNat_chainValue (p : Parameters) (i : Nat) (hi : i < 8) :
    (p.chainValue[i]).toNat
      = (iv[i]).toNat ^^^ Standard.littleEndian ((p.toBytes.drop (4 * i)).take 4) := by
  have size : p.toBytes.length = 32 := p.length_toBytes
  rw [Word.take_four_drop (by omega), ← Word.toNat_ofBytes, ← UInt32.toNat_xor]
  simp only [chainValue, words, Vector.getElem_zipWith, Vector.getElem_ofFn]
  rfl

/-- **The format of parameter blocks.** A request fails exactly if some field is out of its range,
    and otherwise gives the block with these fields. A block can always be written, as 32 bytes, and
    what is read back is the same block at full length. A string of bytes is read exactly if it has
    the size of a block and its three checked bytes are in range, and then the block read is written
    as that string. The chain value tells two blocks apart exactly if they still differ at full
    length. -/
theorem format_exact :
    (∀ fields : Fields,
      ((∃ fault, ofFields fields = .error fault) ↔ ¬ fields.Ranges) ∧
        ∀ p, ofFields fields = .ok p ↔ p.fields = fields) ∧
    (∀ p : Parameters,
      p.fields.write? = some p.toBytes ∧ p.toBytes.length = 32 ∧ ofBytes p.toBytes = .ok p.padded ∧
        (ofBytes p.toBytes = .ok p ↔ p.salt.length = 8 ∧ p.personal.length = 8)) ∧
    (∀ bytes : Bytes,
      ((∃ p, ofBytes bytes = .ok p) ↔
        bytes.length = 32 ∧ (1 ≤ (bytes.getD 0 0).toNat ∧ (bytes.getD 0 0).toNat ≤ 32) ∧
          (bytes.getD 1 0).toNat ≤ 32 ∧ (bytes.getD 15 0).toNat ≤ 32) ∧
        ∀ p, ofBytes bytes = .ok p ↔ p.toBytes = bytes ∧ p.padded = p) ∧
    (∀ p q : Parameters, p.chainValue = q.chainValue ↔ p.padded = q.padded) ∧
    ∀ (p : Parameters) (i : Nat) (hi : i < 8),
      (p.chainValue[i]).toNat
        = (iv[i]).toNat ^^^ Standard.littleEndian ((p.toBytes.drop (4 * i)).take 4) ∧
      (p.chainValue[i]).toNat < 2 ^ 32 := by
  refine ⟨fun fields => ⟨?_, fun p => ofFields_eq_ok_iff⟩,
    fun p => ⟨p.write?_fields, p.length_toBytes, p.ofBytes_toBytes, ?_⟩,
    fun bytes => ⟨exists_ofBytes_iff bytes, fun p => ofBytes_eq_ok_iff⟩,
    fun p q => chainValue_eq_iff,
    fun p i hi => ⟨p.toNat_chainValue i hi, (p.chainValue[i]).toNat_lt⟩⟩
  · rw [← exists_ofFields_iff]
    cases ofFields fields <;> simp
  · rw [ofBytes_eq_ok_iff, and_iff_right rfl]
    exact p.padded_eq_self_iff

end Parameters

end Blake2s
