import Blake2s.Proofs.Compress.Blocks
import Blake2s.State.Basic
import Mathlib.Data.List.Basic

set_option autoImplicit false

/-! # Masked numbers are words

On numbers below `2 ^ 32` each masked operation does what the operation on words does
(`Masked.mask_add`, `Masked.rotateRight_toNat`), and its result is below `2 ^ 32` again. So the
masked compression of a state whose words are such numbers goes the way of the compression on words,
mix by mix, round by round and block by block (`Masked.State.compress_ofState`), and comes to the
function F of the standard (`Masked.State.compress_eq_standard`). -/

namespace Blake2s.Masked

/-! ## Words -/

/-- The words of a vector as plain numbers. -/
def numbers {n : Nat} (v : Vector UInt32 n) : Vector Nat n := v.map UInt32.toNat

@[simp] theorem getElem_numbers {n : Nat} (v : Vector UInt32 n) (i : Nat) (hi : i < n) :
    (numbers v)[i] = v[i].toNat := by simp [numbers]

@[simp] theorem numbers_set {n : Nat} (v : Vector UInt32 n) (i : Nat) (hi : i < n) (w : UInt32) :
    numbers (v.set i w) = (numbers v).set i w.toNat := Vector.map_set

@[simp] theorem numbers_pair (x y : UInt32) : numbers #v[x, y] = #v[x.toNat, y.toNat] := by
  simp [numbers]

theorem lt_of_mem_numbers {n : Nat} {v : Vector UInt32 n} {w : Nat} (h : w ∈ (numbers v).toList) :
    w < 2 ^ 32 := by
  rw [numbers, Vector.toList_map] at h
  obtain ⟨word, -, rfl⟩ := List.mem_map.mp h
  exact word.toNat_lt

/-- Numbers below `2 ^ 32` are words. -/
theorem numbers_ofNat {n : Nat} {v : Vector Nat n} (h : ∀ w ∈ v.toList, w < 2 ^ 32) :
    numbers (v.map UInt32.ofNat) = v := by
  ext1 i hi
  have small : v[i] < 2 ^ 32 := h v[i] (Vector.mem_toList_iff.mpr (Vector.getElem_mem hi))
  rw [getElem_numbers, Vector.getElem_map, UInt32.toNat_ofNat', Nat.mod_eq_of_lt small]

theorem mask_eq_mod (n : Nat) : mask n = n % 2 ^ 32 := Nat.and_two_pow_sub_one_eq_mod n 32

theorem mask_add (x y : UInt32) : mask (x.toNat + y.toNat) = (x + y).toNat := by
  rw [mask_eq_mod, UInt32.toNat_add]

/-- One mask is enough for two sums. -/
theorem mask_add_add (x y z : UInt32) : mask (x.toNat + y.toNat + z.toNat) = (x + y + z).toNat := by
  rw [mask_eq_mod, UInt32.toNat_add, UInt32.toNat_add, Nat.mod_add_mod]

/-- The part that is shifted to the right needs no mask. -/
theorem rotateRight_toNat (w : UInt32) {n : UInt32} (pos : 0 < n.toNat) (lt : n.toNat < 32) :
    rotateRight w.toNat n.toNat = (Word.rotateRight w n).toNat := by
  have left := Word.toNat_sub_rotation lt
  have short : 32 - n.toNat < 32 := by omega
  rw [rotateRight, mask_eq_mod, Word.rotateRight, UInt32.toNat_or, UInt32.toNat_shiftRight,
    UInt32.toNat_shiftLeft, left, Nat.mod_eq_of_lt lt, Nat.mod_eq_of_lt short]

/-! ## Rounds -/

theorem mix_numbers (v : Working) (p : Places) (x y : UInt32) :
    mix (numbers v) p x.toNat y.toNat = numbers (v.mix p x y) := by
  have by16 (w : UInt32) : rotateRight w.toNat 16 = (Word.rotateRight w 16).toNat :=
    rotateRight_toNat w (n := 16) (by decide) (by decide)
  have by12 (w : UInt32) : rotateRight w.toNat 12 = (Word.rotateRight w 12).toNat :=
    rotateRight_toNat w (n := 12) (by decide) (by decide)
  have by8 (w : UInt32) : rotateRight w.toNat 8 = (Word.rotateRight w 8).toNat :=
    rotateRight_toNat w (n := 8) (by decide) (by decide)
  have by7 (w : UInt32) : rotateRight w.toNat 7 = (Word.rotateRight w 7).toNat :=
    rotateRight_toNat w (n := 7) (by decide) (by decide)
  simp only [mix, Working.mix, numbers_set, Fin.getElem_fin, getElem_numbers, mask_add_add,
    mask_add, ← UInt32.toNat_xor, by16, by12, by8, by7]

theorem step_numbers (m : Vector UInt32 16) (v : Working) (s : Mixing) :
    step (numbers m) (numbers v) s = numbers (v.step m s) := by
  simp only [step, Working.step, Fin.getElem_fin, getElem_numbers, mix_numbers]

theorem round_numbers (m : Vector UInt32 16) (v : Working) (mixings : List Mixing) :
    round (numbers m) (numbers v) mixings = numbers (v.round m mixings) :=
  List.foldl_hom numbers (step_numbers m)

theorem mixAll_numbers (m : Vector UInt32 16) (v : Working) :
    mixAll (numbers m) (numbers v) = numbers (v.mixAll m) :=
  List.foldl_hom numbers (round_numbers m)

theorem feedForward_numbers (h : Vector UInt32 8) (v : Working) :
    feedForward (numbers h) (numbers v) = numbers (Chain.feedForward h v) := by
  ext1 i hi
  simp only [feedForward, Vector.getElem_ofFn, get_eq_getElem, Fin.getElem_fin, getElem_numbers,
    Chain.getElem_feedForward, UInt32.toNat_xor]

/-! ## States -/

namespace State

/-- A state with its words as plain numbers. -/
def ofState (s : Blake2s.State) : State where
  h := numbers s.chain.h
  t := numbers #v[s.chain.t.lo, s.chain.t.hi]
  f := numbers #v[s.chain.f.lastBlock, s.chain.f.lastNode]
  buffer := s.buffer
  filled := s.filled
  outlen := s.outlen
  lastNode := s.lastNode

theorem advance_ofState (s : Blake2s.State) (inc : Nat) :
    (ofState s).advance inc
      = ofState { s with chain := { s.chain with t := s.chain.t.advance inc } } := by
  have lo : mask (s.chain.t.lo.toNat + inc) = (s.chain.t.advance inc).lo.toNat := by
    rw [mask_eq_mod, Counter.toNat_lo_advance]
  have hi : mask (s.chain.t.hi.toNat + if (s.chain.t.advance inc).lo.toNat < inc then 1 else 0)
      = (s.chain.t.advance inc).hi.toNat := by
    have carry : (s.chain.t.advance inc).hi
        = if ((s.chain.t.advance inc).lo.toNat : Int) < inc then s.chain.t.hi + 1
          else s.chain.t.hi := rfl
    rw [carry]
    simp only [Int.ofNat_lt]
    split
    · exact mask_add s.chain.t.hi 1
    · rw [mask_eq_mod, Nat.add_zero, Nat.mod_eq_of_lt s.chain.t.hi.toNat_lt]
  simp only [advance, ofState, numbers_pair, Vector.getElem_mk, List.getElem_toArray,
    List.getElem_cons_zero, List.getElem_cons_succ, lo, hi]

theorem working_ofState (s : Blake2s.State) : (ofState s).working = numbers s.chain.working := by
  have both : numbers s.chain.h ++ iv.map UInt32.toNat = numbers (s.chain.h ++ iv) :=
    Vector.map_append.symm
  simp only [working, Chain.working, ofState, both, numbers_set, numbers_pair, getElem_numbers,
    UInt32.toNat_xor, Vector.getElem_mk, List.getElem_toArray,
    List.getElem_cons_zero, List.getElem_cons_succ]

theorem absorb_ofState (bytes : Bytes) (inc : Nat) (s : Blake2s.State) (i : Nat) :
    (ofState s).absorb bytes inc i
      = ofState { s with
          chain := s.chain.absorb inc (Block.ofBytes (bytes.drop (64 * i))) } := by
  have absorbed (r : Blake2s.State) (block : Block) :
      feedForward (ofState r).h (mixAll (numbers block.words) (ofState r).working)
        = numbers (Chain.feedForward r.chain.h (r.chain.working.mixAll block.words)) := by
    rw [working_ofState, mixAll_numbers]
    exact feedForward_numbers r.chain.h _
  rw [absorb, advance_ofState]
  exact congrArg (fun h => { ofState _ with h }) (absorbed _ _)

/-- **Masking is enough**: to compress the numbers that the words of a state are is to compress the
    words. -/
theorem compress_ofState (s : Blake2s.State) (bytes : Bytes) (count : Int) (inc : Nat) :
    (ofState s).compress bytes count inc
      = ofState { s with chain := s.chain.compress { bytes, count := count.toNat, inc } } := by
  unfold compress
  induction count.toNat with
  | zero => rfl
  | succ n ih =>
    rw [List.range_succ, List.foldl_append, ih, List.foldl_cons, List.foldl_nil, absorb_ofState,
      Chain.compress_succ]

/-! ## Numbers below `2 ^ 32` -/

/-- All words of a state have 32 bits. -/
def Narrow (s : State) : Prop := ∀ w ∈ s.h.toList ++ s.t.toList ++ s.f.toList, w < 2 ^ 32

instance (s : State) : Decidable s.Narrow := inferInstanceAs (Decidable (∀ w ∈ _, w < 2 ^ 32))

theorem narrow_ofState (s : Blake2s.State) : (ofState s).Narrow := by
  intro w hw
  rw [List.mem_append, List.mem_append] at hw
  obtain (h | t) | f := hw
  · exact lt_of_mem_numbers h
  · exact lt_of_mem_numbers t
  · exact lt_of_mem_numbers f

/-- The numbers of such a state are words. -/
theorem Narrow.exists_ofState {s : State} (narrow : s.Narrow) : ∃ r, ofState r = s := by
  have h : numbers (s.h.map UInt32.ofNat) = s.h :=
    numbers_ofNat fun w hw => narrow w (by simp [hw])
  have t : numbers (s.t.map UInt32.ofNat) = s.t :=
    numbers_ofNat fun w hw => narrow w (by simp [hw])
  have f : numbers (s.f.map UInt32.ofNat) = s.f :=
    numbers_ofNat fun w hw => narrow w (by simp [hw])
  -- a vector of length two is the pair of its words
  have pair (v : Vector UInt32 2) : #v[v[0], v[1]] = v := by
    ext1 i hi
    obtain rfl | rfl : i = 0 ∨ i = 1 := by omega
    · rfl
    · rfl
  refine ⟨{
    chain := {
      h := s.h.map UInt32.ofNat
      t := { lo := (s.t.map UInt32.ofNat)[0], hi := (s.t.map UInt32.ofNat)[1] }
      f := { lastBlock := (s.f.map UInt32.ofNat)[0], lastNode := (s.f.map UInt32.ofNat)[1] } }
    buffer := s.buffer, filled := s.filled, outlen := s.outlen, lastNode := s.lastNode }, ?_⟩
  simp only [ofState, pair, h, t, f]

theorem counter_ofState (s : Blake2s.State) : (ofState s).counter = s.chain.t.toNat := by
  have lo : (ofState s).t[0] = s.chain.t.lo.toNat := getElem_numbers _ 0 _
  have hi : (ofState s).t[1] = s.chain.t.hi.toNat := getElem_numbers _ 1 _
  unfold counter Counter.toNat
  rw [lo, hi, Nat.shiftLeft_eq, Nat.mul_comm]

/-- The two words of a counter. -/
theorem numbers_counter (t : Counter) :
    numbers #v[t.lo, t.hi] = #v[t.toNat % 2 ^ 32, t.toNat / 2 ^ 32] := by
  have bound := t.lo.toNat_lt
  have lo : t.toNat % 2 ^ 32 = t.lo.toNat := by
    rw [Counter.toNat]
    omega
  have hi : t.toNat / 2 ^ 32 = t.hi.toNat := by
    rw [Counter.toNat]
    omega
  rw [numbers_pair, lo, hi]

theorem map_toNat_bits {n : Nat} (v : Vector UInt32 n) : (bits v).map BitVec.toNat = numbers v := by
  ext1 i hi
  simp only [Vector.getElem_map, getElem_bits, getElem_numbers, UInt32.toNat_toBitVec]

theorem ofNat_toNat (w : UInt32) : BitVec.ofNat 32 w.toNat = w.toBitVec := by
  rw [← UInt32.toNat_toBitVec, BitVec.ofNat_toNat, BitVec.setWidth_eq]

theorem map_ofNat_numbers {n : Nat} (v : Vector UInt32 n) :
    (numbers v).map (BitVec.ofNat 32) = bits v := by
  ext1 i hi
  rw [Vector.getElem_map, getElem_numbers, getElem_bits, ofNat_toNat]

/-- The chain value after some blocks that are there in full. -/
theorem h_compress (s : Blake2s.State) {bytes : Bytes} {count : Nat}
    (enough : 64 * count ≤ bytes.length) {inc : Nat} (small : inc ≤ 2 ^ 32) :
    numbers (s.chain.compress { bytes, count, inc }).h
      = ((List.range count).foldl
          (fun h i => Standard.compress h ((bytes.drop (64 * i)).take 64)
            (((ofState s).counter + (i + 1) * inc) % 2 ^ 64)
            (.ofNat 32 (ofState s).f[0]) (.ofNat 32 (ofState s).f[1]))
          ((ofState s).h.map (.ofNat 32))).map BitVec.toNat := by
  have whole : ∀ i ∈ List.range count,
      Standard.blockAt bytes i = (bytes.drop (64 * i)).take 64 := by
    intro i hi
    rw [List.mem_range] at hi
    exact Standard.blockAt_of_le (by omega)
  have h : (ofState s).h = numbers s.chain.h := rfl
  have lastBlock : BitVec.ofNat 32 (ofState s).f[0] = s.chain.f.lastBlock.toBitVec := by
    rw [← ofNat_toNat]
    exact congrArg _ (getElem_numbers _ 0 _)
  have lastNode : BitVec.ofNat 32 (ofState s).f[1] = s.chain.f.lastNode.toBitVec := by
    rw [← ofNat_toNat]
    exact congrArg _ (getElem_numbers _ 1 _)
  rw [← map_toNat_bits, s.chain.bits_compress bytes count small, counter_ofState, lastBlock,
    lastNode, h, map_ofNat_numbers]
  refine congrArg _ (List.foldl_ext _ _ _ fun h' i hi => ?_)
  rw [Standard.compress_mod, whole i hi]

/-- **The generic compression is the function F of RFC 7693**, block after block. Take any state
    whose words have 32 bits, any number of blocks that are there in full, and an increment of up to
    a block. The chain value is then what F makes of one block after the other, with the counter
    modulo `2 ^ 64` after each increment and the flags as they are. The counter has been advanced by
    all increments, and the rest of the state is as it was. All words have 32 bits again, and they
    are those of the state that has its words compressed. -/
theorem compress_eq_standard {s : State} (narrow : s.Narrow) {bytes : Bytes} {count : Int}
    (enough : blockBytes * count ≤ bytes.length) {inc : Nat} (small : inc ≤ blockBytes) :
    let total := (s.counter + count.toNat * inc) % 2 ^ 64
    (s.compress bytes count inc
      = { s with
          h := ((List.range count.toNat).foldl
            (fun h i => Standard.compress h ((bytes.drop (64 * i)).take 64)
              ((s.counter + (i + 1) * inc) % 2 ^ 64) (.ofNat 32 s.f[0]) (.ofNat 32 s.f[1]))
            (s.h.map (.ofNat 32))).map BitVec.toNat
          t := #v[total % 2 ^ 32, total / 2 ^ 32] }) ∧
    (s.compress bytes count inc).Narrow ∧
    ∀ r : Blake2s.State, ofState r = s →
      s.compress bytes count inc
        = ofState { r with chain := r.chain.compress { bytes, count := count.toNat, inc } } := by
  intro total
  obtain ⟨r, rfl⟩ := narrow.exists_ofState
  have compressed := compress_ofState r bytes count inc
  have inBound : inc ≤ 2 ^ 32 := Nat.le_trans small (by decide)
  have whole : 64 * count.toNat ≤ bytes.length := by
    rw [blockBytes] at enough
    omega
  refine ⟨?_, ?_, ?_⟩
  · have h := h_compress r whole inBound
    have t : total = (r.chain.compress { bytes, count := count.toNat, inc }).t.toNat := by
      rw [r.chain.toNat_compress_t bytes count.toNat inBound, ← counter_ofState]
    rw [compressed, ← h, t, ← numbers_counter]
    simp only [ofState, Chain.compress_f]
  · rw [compressed]
    exact narrow_ofState _
  · intro r' same
    rw [← same]
    exact compress_ofState r' bytes count inc

/-- Two blocks with the flag of the last node set, on a counter that wraps around. -/
theorem compress_eq_standard_wrapping :
    let s : State :=
      { h := iv.map UInt32.toNat, t := #v[2 ^ 32 - 1, 2 ^ 32 - 1], f := #v[0, 2 ^ 32 - 1],
        buffer := Block.zero, filled := 3, outlen := 32, lastNode := true }
    let bytes := Bytes.zeros 130
    s.Narrow ∧ blockBytes * (2 : Int) ≤ bytes.length ∧ 64 ≤ blockBytes ∧
      s.compress bytes 2 64
        = { s with
            h := (Standard.compress
              (Standard.compress (s.h.map (.ofNat 32)) (bytes.take 64) 63 0 (BitVec.allOnes 32))
              ((bytes.drop 64).take 64) 127 0 (BitVec.allOnes 32)).map BitVec.toNat
            t := #v[127, 0] } := by
  intro s bytes
  have narrow : s.Narrow := by decide +kernel
  have enough : blockBytes * (2 : Int) ≤ bytes.length := by
    rw [Bytes.length_zeros]
    decide
  have small : 64 ≤ blockBytes := Nat.le_refl 64
  have compressed := (compress_eq_standard narrow enough small).1
  have counter : s.counter = 2 ^ 64 - 1 := by decide +kernel
  have lastBlock : s.f[0] = 0 := rfl
  have lastNode : s.f[1] = 2 ^ 32 - 1 := rfl
  rw [counter, lastBlock, lastNode] at compressed
  exact ⟨narrow, enough, small, compressed⟩

end State

end Blake2s.Masked
