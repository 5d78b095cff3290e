import Blake2s.Proofs.State.Digest
import Blake2s.Standard.Mac

set_option autoImplicit false

/-! # Tags are those of the standard

A tag is computed with one hash state, one key block and one digest buffer, each of them used again
and again. None of that shows: finishing wipes the state, so the next hash starts as on a fresh one
(`Mac.hashInto_of_lawful`); masking the key block a second time, by both mask bytes at once, gives
the block under the outer mask (`Bytes.mask_mask`); and a digest written over the inner one leaves
nothing of it. So a tag is HMAC as the standard has it (`Mac.tag_eq_standard`). -/

namespace Blake2s

/-! ## Buffers -/

namespace Bytes

/-- Changing a mask for another. -/
theorem mask_mask (a b : UInt8) (bytes : Bytes) :
    (bytes.mask a).mask (b ^^^ a) = bytes.mask b := by
  have same (x : UInt8) : x ^^^ a ^^^ (b ^^^ a) = x ^^^ b := by
    rw [UInt8.xor_comm b a, UInt8.xor_assoc, ← UInt8.xor_assoc a a b, UInt8.xor_self,
      UInt8.zero_xor]
  simp only [mask, List.map_map, Function.comp_def, same]

/-- What is written to a buffer of zeros is padded with them. -/
theorem overwrite_zeros (n : Nat) (bytes : Bytes) :
    overwrite (zeros n) bytes = padTo n bytes := by
  simp only [overwrite, padTo, zeros, List.drop_replicate]

end Bytes

namespace Standard

theorem length_flatMap_wordBytes (words : List Word32) :
    (words.flatMap wordBytes).length = 4 * words.length := by
  induction words with
  | nil => rfl
  | cons w words ih =>
    have four : (wordBytes w).length = 4 := by simp [wordBytes]
    simp only [List.flatMap_cons, List.length_append, List.length_cons, four, ih]
    omega

theorem length_hash (data : Bytes) : (hash data).length = 32 := by
  rw [hash, digest, List.length_take, length_flatMap_wordBytes, Vector.length_toList]
  rfl

theorem length_mac (key message : Bytes) : (mac key message).length = 32 := length_hash _

/-- Nothing is left of what a digest is written over. -/
theorem overwrite_hash {buffer : Bytes} (short : buffer.length ≤ 32) (data : Bytes) :
    buffer.overwrite (hash data) = hash data := by
  have covered : buffer.length ≤ (hash data).length := by rwa [length_hash]
  rw [Bytes.overwrite, List.drop_eq_nil_of_le covered, List.append_nil]

end Standard

namespace Mac

/-! ## One hash after the other on one state -/

/-- The parameter block of unkeyed hashing to 32 bytes. -/
theorem exists_plain :
    ∃ p : Parameters, Parameters.ofFields { digestLength := outBytes } = .ok p ∧
      p.toBytes = Standard.plainParameters ∧ p.keyLength = 0 := ⟨_, rfl, rfl, rfl⟩

section Lawful

variable {σ : Type} {inv : σ → Prop} {e : Engine σ} {m : σ} (lawful : e.Lawful inv) (hm : inv m)

include lawful hm

theorem hashInto_of_lawful (s : State) (pieces : List Bytes) (out : Bytes)
    (room : 32 ≤ out.length) :
    ∃ m', (hashInto e pieces out).runOn s m
        = ((.ok (out.overwrite (Standard.hash pieces.flatten)), {}), m') ∧ inv m' := by
  obtain ⟨p, made, bytes, unkeyed⟩ := exists_plain
  have live := State.outlen_ofParameters_ne p false
  have noKey : ([] : Bytes).length = p.keyLength.toNat := by
    rw [unkeyed]
    rfl
  obtain ⟨s₁, run₁, holds₁⟩ := State.start_holds s noKey false e m
  obtain ⟨s₂, m₂, run₂, hm₂, holds₂⟩ := State.forM_update_of_lawful lawful hm holds₁ live pieces
  obtain ⟨m₃, run₃, hm₃⟩ :=
    State.finalWithin_of_lawful lawful hm₂ holds₂ (some outBytes) (some out.length)
  have digest := Content.finished_of_ok
    (c := (State.ofParameters p false).content.absorb (Standard.keyed [] [] ++ pieces.flatten))
    (n := 32) live (some outBytes) (some out.length) rfl (by simpa using room)
  rw [State.take_bytes_lastChain, bytes, Content.absorb_append] at digest
  rw [digest] at run₃
  have init : (State.init e outBytes).runOn s m = ((.ok (), s₁), m) := by
    simp only [State.init, HashM.runOn_bind]
    rw [show outputLength outBytes = .ok 32 from rfl, made]
    exact run₁
  refine ⟨m₃, ?_, hm₃⟩
  simp only [hashInto, HashM.runOn_bind, init, run₂, State.finalInto_eq_map,
    HashM.runOn_lift_map, run₃]
  rfl

theorem blockKey_of_lawful (s : State) (key : Bytes) :
    ∃ s' m', (blockKey e key).runOn s m = ((.ok (Standard.macKey key), s'), m') ∧ inv m' := by
  unfold blockKey Standard.macKey
  by_cases long : blockBytes < key.length
  · have long' : 64 < key.length := long
    obtain ⟨m', run, hm'⟩ :=
      hashInto_of_lawful lawful hm s [key] (Bytes.zeros blockBytes) (by simp [blockBytes])
    refine ⟨{}, m', ?_, hm'⟩
    rw [if_pos long, if_pos long', run, Bytes.overwrite_zeros, List.flatten_singleton]
    rfl
  · have short : ¬64 < key.length := long
    refine ⟨s, m, ?_, hm⟩
    rw [if_neg long, if_neg short, HashM.runOn_pure, Bytes.overwrite_zeros]
    rfl

theorem fullTag_of_lawful (message key : Bytes) :
    ∃ m', Action.runOn (fullTag e message key) m = (.ok (Standard.mac key message), m') ∧
      inv m' := by
  obtain ⟨s₁, m₁, run₁, hm₁⟩ := blockKey_of_lawful lawful hm {} key
  obtain ⟨m₂, run₂, hm₂⟩ := hashInto_of_lawful lawful hm₁ s₁
    [(Standard.macKey key).mask innerPad, message] (Bytes.zeros outBytes) (by simp [outBytes])
  rw [Standard.overwrite_hash (by simp [outBytes])] at run₂
  have inner : Standard.hash [(Standard.macKey key).mask innerPad, message].flatten
      = Standard.hash ((Standard.macKey key).mask innerPad ++ message) := by simp
  rw [inner] at run₂
  -- the outer digest goes over the inner one, which is as long
  obtain ⟨m₃, run₃, hm₃⟩ := hashInto_of_lawful lawful hm₂ {}
    [(Standard.macKey key).mask outerPad,
      Standard.hash ((Standard.macKey key).mask innerPad ++ message)]
    (Standard.hash ((Standard.macKey key).mask innerPad ++ message))
    (Nat.le_of_eq (Standard.length_hash _).symm)
  rw [Standard.overwrite_hash (Nat.le_of_eq (Standard.length_hash _))] at run₃
  refine ⟨m₃, ?_, hm₃⟩
  rw [fullTag, HashM.runOn_evalFrom]
  simp only [HashM.runOn_bind, run₁, run₂, Bytes.mask_mask, run₃]
  simp [Standard.mac, Bytes.mask, innerPad, outerPad]

/-- A tag, or what is wrong with the length asked for. -/
theorem tag_of_lawful (message key : Bytes) (length : Int) :
    ∃ m', Action.runOn (tag e message key length) m
        = (if 1 ≤ length ∧ length ≤ 32 then
            .ok ((Standard.mac key message).take length.toNat)
          else .error .outputLength, m') ∧ inv m' := by
  obtain ⟨m', run, hm'⟩ := fullTag_of_lawful lawful hm message key
  by_cases inRange : 1 ≤ length ∧ length ≤ 32
  · have accepted : outputLength length = .ok length.toNat := if_pos inRange
    refine ⟨m', ?_, hm'⟩
    simp only [tag, tagWithin, Action.runOn_bind, Action.runOn_lift, accepted, if_pos inRange,
      Option.any_none, Bool.false_eq_true, if_false, run, Action.runOn_pure]
  · have refused : outputLength length = .error .outputLength := if_neg inRange
    refine ⟨m, ?_, hm⟩
    simp only [tag, tagWithin, Action.runOn_bind, Action.runOn_lift, refused, if_neg inRange]

end Lawful

/-! ## Tags in a host -/

/-- **A tag is HMAC over BLAKE2s as RFC 2104 has it**, for keys and messages of any length: it has
    the first bytes of the standard's code, as many as are asked for. Any number of them outside
    `1..32` is refused as a wrong parameter. -/
theorem tag_eq_standard {host : Host} (settled : host.Settled none) (message key : Bytes)
    (length : Int) :
    (Action.runOn (tag (Host.engine none) message key length) host).1
        = (if 1 ≤ length ∧ length ≤ 32 then
            .ok ((Standard.mac key message).take length.toNat)
          else .error .outputLength) ∧
      Fault.outputLength.kind = .parameter := by
  obtain ⟨host', run, -⟩ :=
    tag_of_lawful (Host.engine_settled none) settled message key length
  rw [run]
  exact ⟨rfl, rfl⟩

/-- A key longer than a block, in a host that has not detected a backend yet. -/
theorem tag_eq_standard_long_key :
    ({} : Host).Settled none ∧
      (Action.runOn (tag (Host.engine none) [1, 2, 3] (List.replicate 65 7) 20) {}).1
        = .ok ((Standard.mac (List.replicate 65 7) [1, 2, 3]).take 20) :=
  ⟨Host.settled_fresh, (tag_eq_standard Host.settled_fresh [1, 2, 3] (List.replicate 65 7) 20).1⟩

end Mac

end Blake2s
