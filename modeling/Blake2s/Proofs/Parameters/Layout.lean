import Blake2s.Proofs.Words

set_option autoImplicit false

/-! # What the bytes of a parameter block tell

The 32 bytes of a parameter block hold every field at a place of its own, and the first chain value
holds the bytes. The one thing that both leave out is how long salt and personalization were before
they were padded. So blocks with the same chain value are the same once they are padded
(`Parameters.padded_eq_of_chainValue`). -/

namespace Blake2s

namespace Word

/-! ## Words and their bytes -/

theorem toBytes_eq_map (w : UInt32) :
    toBytes w = (List.range 4).map fun k => UInt8.ofNat (w.toNat / 256 ^ k) :=
  (wordBytes_toBitVec w).symm

theorem toBytes_ofBytes (b₀ b₁ b₂ b₃ : UInt8) :
    toBytes (ofBytes b₀ b₁ b₂ b₃) = [b₀, b₁, b₂, b₃] := by
  have h₀ := b₀.toNat_lt
  have h₁ := b₁.toNat_lt
  have h₂ := b₂.toNat_lt
  have h₃ := b₃.toNat_lt
  simp only [toBytes_eq_map, toNat_ofBytes, Standard.littleEndian, List.range_succ, List.range_zero,
    List.nil_append, List.cons_append, List.map_cons, List.map_nil, List.cons.injEq,
    ← UInt8.toNat_inj, UInt8.toNat_ofNat', and_true]
  omega

theorem ofBytes_injective {b₀ b₁ b₂ b₃ c₀ c₁ c₂ c₃ : UInt8}
    (h : ofBytes b₀ b₁ b₂ b₃ = ofBytes c₀ c₁ c₂ c₃) :
    b₀ = c₀ ∧ b₁ = c₁ ∧ b₂ = c₂ ∧ b₃ = c₃ := by
  have bytes := congrArg toBytes h
  simpa only [toBytes_ofBytes, List.cons.injEq, and_true] using bytes

theorem toBytes_injective {v w : UInt32} (h : toBytes v = toBytes w) : v = w := by
  have hv := v.toNat_lt
  have hw := w.toNat_lt
  simp only [toBytes_eq_map, List.range_succ, List.range_zero, List.nil_append, List.cons_append,
    List.map_cons, List.map_nil, List.cons.injEq, ← UInt8.toNat_inj, UInt8.toNat_ofNat',
    and_true] at h
  apply UInt32.toNat_inj.mp
  omega

end Word

namespace Bytes

/-- Among strings of one length that fit, padding takes nothing away. -/
theorem eq_of_padTo {n : Nat} {xs ys : Bytes} (same : xs.length = ys.length)
    (h : xs.padTo n = ys.padTo n) : xs = ys := (List.append_inj h same).1

theorem padTo_eq_self_iff {n : Nat} {bytes : Bytes} :
    bytes.padTo n = bytes ↔ n ≤ bytes.length := by
  rw [padTo, List.append_right_eq_self, zeros, List.replicate_eq_nil_iff, Nat.sub_eq_zero_iff_le]

end Bytes

namespace Parameters

/-! ## Fields asked for -/

/-- A parameter block has the fields that were asked for. -/
theorem fields_of_ofFields {fields : Fields} {p : Parameters} (h : ofFields fields = .ok p) :
    p.fields = fields := by
  unfold ofFields at h
  split at h
  next => exact nomatch h
  next none =>
    have inRange := Fields.inRange_of_firstOutOfRange none
    obtain rfl := Except.ok.inj h
    have digest := inRange .digestLength
    have key := inRange .keyLength
    have fanout := inRange .fanout
    have depth := inRange .depth
    have leaf := inRange .leafLength
    have offset := inRange .nodeOffset
    have xof := inRange .xofLength
    have node := inRange .nodeDepth
    have inner := inRange .innerLength
    cases fields
    simp only [Fields.InRange, Limit.Admits, Limit.least, Limit.greatest, Field.limit,
      Fields.measure, outBytes, keyBytes, Nat.pow_eq, Nat.reducePow]
      at digest key fanout depth leaf offset xof node inner
    simp only [Parameters.fields, Fields.mk.injEq, UInt8.toNat_ofNat', UInt16.toNat_ofNat',
      UInt32.toNat_ofNat', and_true]
    omega

/-- Fields within their limits are those of a parameter block. -/
theorem exists_ofFields {fields : Fields} (inRange : ∀ field, fields.InRange field) :
    ∃ p, ofFields fields = .ok p := by
  have none : fields.firstOutOfRange = none := by
    refine List.find?_eq_none.mpr fun field _ => ?_
    simpa using inRange field
  unfold ofFields
  split
  next some => exact nomatch none.symm.trans some
  next => exact ⟨_, rfl⟩

/-! ## Fields and bytes -/

/-- The same block with salt and personalization in full length. -/
def padded (p : Parameters) : Parameters :=
  { p with
    salt := p.salt.padTo saltBytes
    personal := p.personal.padTo personalBytes
    salt_le := by
      have := p.salt_le
      rw [Bytes.length_padTo]
      omega
    personal_le := by
      have := p.personal_le
      rw [Bytes.length_padTo]
      omega }

theorem twoBytes_injective {x y : UInt16} (lo : x.toUInt8 = y.toUInt8)
    (hi : (x >>> 8).toUInt8 = (y >>> 8).toUInt8) : x = y := by
  have hx := x.toNat_lt
  have hy := y.toNat_lt
  have high (z : UInt16) : (z >>> 8).toUInt8.toNat = z.toNat / 256 % 256 := by
    rw [UInt16.toNat_toUInt8, UInt16.toNat_shiftRight]
    exact congrArg (· % 256) (Nat.shiftRight_eq_div_pow _ 8)
  rw [← UInt8.toNat_inj, UInt16.toNat_toUInt8, UInt16.toNat_toUInt8] at lo
  rw [← UInt8.toNat_inj, high, high] at hi
  apply UInt16.toNat_inj.mp
  omega

theorem length_padTo_salt (p : Parameters) : (p.salt.padTo saltBytes).length = saltBytes := by
  rw [Bytes.length_padTo, Nat.max_eq_left p.salt_le]

/-- Each field is at a place of its own. -/
theorem padded_eq_of_toBytes {p q : Parameters} (h : p.toBytes = q.toBytes) :
    p.padded = q.padded := by
  unfold toBytes at h
  obtain ⟨h, personal⟩ := List.append_inj h (by simp [length_padTo_salt])
  obtain ⟨h, salt⟩ := List.append_inj h rfl
  obtain ⟨h, last⟩ := List.append_inj h rfl
  obtain ⟨h, offset⟩ := List.append_inj h rfl
  obtain ⟨first, leaf⟩ := List.append_inj h rfl
  simp only [List.cons.injEq, and_true] at first last
  obtain ⟨digest, key, fanout, depth⟩ := first
  obtain ⟨lo, hi, node, inner⟩ := last
  simp only [padded, Parameters.mk.injEq]
  exact ⟨digest, key, fanout, depth, Word.toBytes_injective leaf, Word.toBytes_injective offset,
    twoBytes_injective lo hi, node, inner, salt, personal⟩

/-! ## Bytes and the first chain value -/

/-- All 32 bytes are in the words. -/
theorem toBytes_eq_of_words {p q : Parameters} (h : p.words = q.words) : p.toBytes = q.toBytes := by
  have lp : p.toBytes.length = 32 := p.length_toBytes
  have lq : q.toBytes.length = 32 := q.length_toBytes
  have word (i : Nat) (hi : i < 8) : wordAt p.toBytes i = wordAt q.toBytes i := by
    have both : p.words[i] = q.words[i] := by rw [h]
    simpa only [words, Vector.getElem_ofFn] using both
  apply List.ext_getElem (lp.trans lq.symm)
  intro j hj hj'
  obtain ⟨b₀, b₁, b₂, b₃⟩ := Word.ofBytes_injective (word (j / 4) (by omega))
  rw [List.getElem_eq_getD 0, List.getElem_eq_getD 0]
  have place : j = 4 * (j / 4) ∨ j = 4 * (j / 4) + 1 ∨ j = 4 * (j / 4) + 2 ∨
      j = 4 * (j / 4) + 3 := by omega
  rcases place with place | place | place | place <;> rw [place] <;> assumption

/-- The initialization vector hides nothing. -/
theorem words_eq_of_chainValue {p q : Parameters} (h : p.chainValue = q.chainValue) :
    p.words = q.words := by
  ext1 i hi
  have both : p.chainValue[i] = q.chainValue[i] := by rw [h]
  simp only [chainValue, Vector.getElem_zipWith] at both
  exact (UInt32.xor_right_inj _).mp both

theorem padded_eq_of_chainValue {p q : Parameters} (h : p.chainValue = q.chainValue) :
    p.padded = q.padded :=
  padded_eq_of_toBytes (toBytes_eq_of_words (words_eq_of_chainValue h))

end Parameters

end Blake2s
