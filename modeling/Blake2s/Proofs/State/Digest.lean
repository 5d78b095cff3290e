import Blake2s.Proofs.Compress.Blocks
import Blake2s.Proofs.Host.Lawful
import Blake2s.Proofs.State.Content
import Blake2s.State.Start
import Mathlib.Data.List.Basic

set_option autoImplicit false

/-! # Digests are those of the standard

The standard hashes data in one shot: it numbers the blocks and compresses each with the counter that
its number gives. A state only ever sees what comes next. Both have the same chain value after each
block (`Chain.bits_after`): the counter that a state carries along is the number of bytes absorbed,
modulo `2 ^ 64`, and F looks at its counter modulo `2 ^ 64` only. So a keyed or unkeyed hash, with
its input absorbed in whatever pieces, ends with the digest of the standard
(`State.digest_eq_standard`). -/

namespace Blake2s

/-! ## Data of the standard -/

namespace Standard

theorem blockCount_eq (data : Bytes) : blockCount data = blocksAhead data.length + 1 := by
  unfold blockCount blocksAhead
  omega

theorem keyed_eq_append (key message : Bytes) : keyed key message = keyed key [] ++ message := by
  unfold keyed
  rw [List.append_nil]

/-- A key takes at most a block. -/
theorem length_keyed_nil {key : Bytes} (short : key.length ≤ 64) : (keyed key []).length ≤ 64 := by
  unfold keyed
  split
  · exact Nat.zero_le 64
  · rw [List.append_nil, Bytes.length_padTo]
    omega

/-- The first chain value is that of the parameter block. -/
theorem firstChain_toBytes (p : Parameters) : firstChain p.toBytes = bits p.chainValue := by
  ext1 i hi
  have inside : 4 * i + 4 ≤ p.toBytes.length := by
    rw [p.length_toBytes, parameterBytes]
    omega
  rw [getElem_bits, firstChain, Vector.getElem_ofFn, ivWord_eq, Word.wordAt_eq_toBitVec inside]
  simp only [Parameters.chainValue, Vector.getElem_zipWith, UInt32.toBitVec_xor, Parameters.words,
    Vector.getElem_ofFn]
  rfl

end Standard

/-! ## Chain values block by block -/

namespace Chain

/-- The chain after the first blocks of some data. -/
def after (chain : Chain) (n : Nat) (data : Bytes) : Chain :=
  (Block.split n data).foldl (Chain.absorb 64) chain

/-- They are compressed like a batch. -/
theorem after_eq_compress (chain : Chain) (n : Nat) (data : Bytes) :
    chain.after n data = chain.compress { bytes := data, count := n, inc := (64 : Nat) } := rfl

@[simp] theorem after_f (chain : Chain) (n : Nat) (data : Bytes) :
    (chain.after n data).f = chain.f := by
  rw [after_eq_compress, compress_f]

/-- The counter is the number of bytes absorbed. -/
theorem toNat_after_t (chain : Chain) (n : Nat) (data : Bytes) :
    (chain.after n data).t.toNat = (chain.t.toNat + 64 * n) % 2 ^ 64 := by
  rw [after_eq_compress, toNat_compress_t chain data n (by decide), Nat.mul_comm]

/-- As long as more data follows, a block is to the standard one that is not flagged. -/
theorem bits_after {h : Vector UInt32 8} {parameters : Bytes}
    (first : bits h = Standard.firstChain parameters) (data : Bytes) (lastNode : Bool) {n : Nat}
    (hn : n ≤ blocksAhead data.length) :
    bits (after { h } n data).h
      = (List.range n).foldl (Standard.absorb data lastNode) (Standard.firstChain parameters) := by
  rw [after_eq_compress, bits_compress _ data n (by decide), first]
  refine List.foldl_ext _ _ _ fun h' i hi => ?_
  have inner : i + 1 ≠ Standard.blockCount data := by
    rw [List.mem_range] at hi
    rw [Standard.blockCount_eq]
    omega
  have counter : Counter.toNat {} + (i + 1) * 64 = 64 * (i + 1) := by
    rw [Nat.mul_comm]
    exact Nat.zero_add _
  simp only [Standard.absorb, inner, if_false, false_and, counter]
  rfl

/-- For the last block the counter is the number of all bytes. -/
theorem toNat_last_t (h : Vector UInt32 8) (data : Bytes) :
    ((after { h } (blocksAhead data.length) data).t.advance (Block.held data).length).toNat
      = data.length % 2 ^ 64 := by
  have short : (Block.held data).length ≤ 2 ^ 32 :=
    Nat.le_trans (Block.length_held_le data) (by decide)
  rw [Counter.toNat_advance _ short, toNat_after_t, Block.held, List.length_drop]
  change ((0 + _) % _ + _) % _ = _
  unfold blocksAhead
  omega

end Chain

/-! ## Digests -/

namespace Content

/-- Data that comes first is cut into blocks from its start. -/
theorem absorb_of_fresh {c : Content} {h : Vector UInt32 8} (fresh : c.chain = { h })
    (empty : c.input = []) (data : Bytes) :
    c.absorb data
      = { c with
          chain := Chain.after { h } (blocksAhead data.length) data
          input := Block.held data } := by
  simp only [absorb_eq, Block.ahead, empty, fresh, List.nil_append, Chain.after]

/-- The last block is flagged, and its counter is the length of the data. -/
theorem bits_lastChain {c : Content} {h : Vector UInt32 8} {parameters : Bytes}
    (first : bits h = Standard.firstChain parameters) (fresh : c.chain = { h })
    (empty : c.input = []) (data : Bytes) :
    bits (c.absorb data).lastChain.h = Standard.lastChain parameters data c.lastNode := by
  have flag : (if c.lastNode then wordMask else 0 : UInt32).toBitVec
      = if c.lastNode then BitVec.allOnes 32 else 0 := by
    cases c.lastNode <;> rfl
  have last : blocksAhead data.length + 1 = Standard.blockCount data :=
    (Standard.blockCount_eq data).symm
  rw [absorb_of_fresh fresh empty, lastChain, Chain.bits_absorb, Chain.toNat_last_t, Standard.compress_mod,
    Chain.bits_after first data c.lastNode (Nat.le_refl _), Standard.lastChain, ← last,
    List.range_succ, List.foldl_append, List.foldl_cons, List.foldl_nil]
  simp only [Standard.absorb, last, Standard.blockAt_eq_toList, Chain.after_f, if_true, true_and,
    flag]
  rfl

end Content

theorem Chain.bytes_eq_flatMap (chain : Chain) :
    chain.bytes = (bits chain.h).toList.flatMap Standard.wordBytes := by
  rw [bytes, bits, Vector.toList_map, List.flatMap_map]
  simp only [Word.wordBytes_toBitVec]

namespace State

/-! ## Whole hashes -/

/-- What finishing reads off the chain is the digest of all that was absorbed. -/
theorem take_bytes_lastChain (p : Parameters) (lastNode : Bool) (data : Bytes) (n : Nat) :
    ((ofParameters p lastNode).content.absorb data).lastChain.bytes.take n
      = Standard.digest p.toBytes data lastNode n := by
  have chain := Content.bits_lastChain (c := (ofParameters p lastNode).content)
    (Standard.firstChain_toBytes p).symm rfl rfl data
  rw [Chain.bytes_eq_flatMap, chain]
  rfl

/-- A fresh state, before any input. -/
theorem holds_ofParameters (p : Parameters) (lastNode : Bool) :
    (ofParameters p lastNode).Holds (ofParameters p lastNode).content :=
  ⟨rfl, Nat.zero_le 64⟩

theorem outlen_ofParameters_ne (p : Parameters) (lastNode : Bool) :
    (ofParameters p lastNode).content.outlen ≠ 0 :=
  Nat.ne_of_gt p.digestLength_pos

section Start

variable (s : State) {p : Parameters} {key : Bytes} (hkey : key.length = p.keyLength.toNat)
  (lastNode : Bool)

include hkey

theorem length_keyed_nil_le : (Standard.keyed key []).length ≤ 64 := by
  have short := p.keyLength_le
  rw [← hkey] at short
  exact Standard.length_keyed_nil (Nat.le_trans short (by decide))

/-- A key is absorbed like a first block of data. It takes more input to compress it, so the engine
    does not matter. -/
theorem start_holds {σ : Type} (e : Engine σ) (m : σ) :
    ∃ s', (start e p key lastNode).runOn s m = ((.ok (), s'), m) ∧
      s'.Holds ((ofParameters p lastNode).content.absorb (Standard.keyed key [])) := by
  have fresh := holds_ofParameters p lastNode
  have short := length_keyed_nil_le hkey
  unfold start
  rw [if_neg (not_not.mpr hkey), HashM.runOn_bind, HashM.runOn_set]
  unfold Standard.keyed at short ⊢
  rw [List.append_nil] at short ⊢
  by_cases empty : key = []
  · subst empty
    have nothing : (ofParameters p lastNode).content.input.length ≤ 64 := Nat.zero_le 64
    rw [if_pos rfl, Content.absorb_nil nothing]
    exact ⟨_, rfl, fresh⟩
  · rw [if_neg empty] at short ⊢
    have fits : (ofParameters p lastNode).content.input.length + (key.padTo 64).length ≤ 64 := by
      change 0 + _ ≤ 64
      rwa [Nat.zero_add]
    obtain ⟨run, holds⟩ := update_of_fits fresh (outlen_ofParameters_ne p lastNode) fits e m
    refine ⟨_, ?_, holds⟩
    rw [if_neg (by rwa [List.isEmpty_iff])]
    exact run

end Start

section Recording

variable (s : State) (fed : List Feed) {p : Parameters} {key : Bytes}
  (hkey : key.length = p.keyLength.toNat) (lastNode : Bool)

include hkey

/-- A hash of any input, in whatever pieces, with the digest of the standard. -/
theorem hash_recording (chunks : List Bytes) {requested : Option Int}
    (valid : ∀ n ∈ requested, 1 ≤ n ∧ n ≤ outBytes) :
    let c := (ofParameters p lastNode).content
    let data := Standard.keyed key chunks.flatten
    HashM.runOn
      (do
        start Engine.recording p key lastNode
        chunks.forM (update Engine.recording)
        final Engine.recording requested) s fed
      = ((.ok (Standard.digest p.toBytes data lastNode
            (requested.getD p.digestLength.toNat).toNat), {}),
         fed ++ c.feeds data ++ [(c.absorb data).lastFeed]) := by
  intro c data
  have live : c.outlen ≠ 0 := outlen_ofParameters_ne p lastNode
  obtain ⟨s₁, run₁, holds₁⟩ := start_holds s hkey lastNode Engine.recording fed
  obtain ⟨s₂, run₂, holds₂⟩ := forM_update_recording holds₁ fed live chunks
  have absorbed : (c.absorb (Standard.keyed key [])).absorb chunks.flatten = c.absorb data := by
    rw [← Content.absorb_append, ← Standard.keyed_eq_append]
  have feeds : (c.absorb (Standard.keyed key [])).feeds chunks.flatten = c.feeds data := by
    have unfed : c.feeds (Standard.keyed key []) = [] :=
      Content.feeds_of_le (c := c) (length_keyed_nil_le hkey)
    have both := Content.feeds_append c (Standard.keyed key []) chunks.flatten
    rw [unfed, List.nil_append, ← Standard.keyed_eq_append] at both
    exact both.symm
  rw [feeds] at run₂
  rw [absorbed] at holds₂
  have inRange : 1 ≤ requested.getD p.digestLength.toNat ∧
      requested.getD p.digestLength.toNat ≤ outBytes := by
    cases requested with
    | none => exact ⟨Int.ofNat_le.mpr p.digestLength_pos, Int.ofNat_le.mpr p.digestLength_le⟩
    | some n => exact valid n rfl
  have digest := Content.finished_of_ok (c := c.absorb data) live requested none (if_pos inRange)
    nofun
  rw [take_bytes_lastChain] at digest
  have run₃ := finalWithin_recording holds₂ (fed ++ c.feeds data) requested none
  rw [digest] at run₃
  rw [HashM.runOn_bind, run₁]
  dsimp only
  rw [HashM.runOn_bind, run₂]
  exact run₃

end Recording

section Lawful

variable {σ : Type} {inv : σ → Prop} {e : Engine σ} {m : σ} (lawful : e.Lawful inv) (hm : inv m)

include lawful hm

theorem hash_of_lawful (s : State) {p : Parameters} {key : Bytes}
    (hkey : key.length = p.keyLength.toNat) (lastNode : Bool) (chunks : List Bytes)
    {requested : Option Int} (valid : ∀ n ∈ requested, 1 ≤ n ∧ n ≤ outBytes) :
    (HashM.runOn
      (do
        start e p key lastNode
        chunks.forM (update e)
        final e requested) s m).1.1
      = .ok (Standard.digest p.toBytes (Standard.keyed key chunks.flatten) lastNode
          (requested.getD p.digestLength.toNat).toNat) := by
  have run := hash_recording s [] hkey lastNode chunks valid
  obtain ⟨m', run', -⟩ :=
    (alike_hash lawful.alike_recording p key lastNode chunks requested).transfer hm run
  rw [run']

end Lawful

/-- **Hashing is hashing as RFC 7693 has it.** On a state that is pinned to the generic backend,
    whatever it held before: initialize it from a parameter block and a key of the length given
    there, absorb any chunks of input, and finish it. The outcome is the digest of the key block and
    the input, with the length asked for or else the one of the parameter block. -/
theorem digest_eq_standard {host : Host} {id : BackendId} {i : Backend.Instance}
    (pinned : host.backends[id]? = some i) (generic : i.backend = .generic) (s : State)
    (p : Parameters) {key : Bytes} (hkey : key.length = p.keyLength.toNat) (lastNode : Bool)
    (chunks : List Bytes) {requested : Option Int}
    (valid : ∀ n ∈ requested, 1 ≤ n ∧ n ≤ outBytes) :
    (HashM.runOn
      (do
        start (Host.engine (some id)) p key lastNode
        chunks.forM (update (Host.engine (some id)))
        final (Host.engine (some id)) requested) s host).1.1
      = .ok (Standard.digest p.toBytes (Standard.keyed key chunks.flatten) lastNode
          (requested.getD p.digestLength.toNat).toNat) :=
  hash_of_lawful (Host.engine_settled (some id))
    (Host.settled_of_pinned pinned (generic ▸ Backend.generic_lawful)) s hkey lastNode chunks valid

/-- A keyed hash of three bytes in two chunks, to twenty bytes. -/
theorem digest_eq_standard_keyed :
    let host : Host := { backends := #[{ backend := .generic }] }
    let p : Parameters :=
      { digestLength := 32, keyLength := 2, fanout := 1, depth := 1, leafLength := 0,
        nodeOffset := 0, xofLength := 0, nodeDepth := 0, innerLength := 0, salt := [7],
        personal := [], digestLength_pos := by decide, digestLength_le := by decide,
        keyLength_le := by decide, innerLength_le := by decide, salt_le := by decide,
        personal_le := by decide }
    host.backends[0]? = some { backend := .generic } ∧
      (HashM.runOn
        (do
          start (Host.engine (some 0)) p [1, 2] true
          [[0x61], [], [0x62, 0x63]].forM (update (Host.engine (some 0)))
          final (Host.engine (some 0)) (some 20)) {} host).1.1
        = .ok (Standard.digest p.toBytes (Standard.keyed [1, 2] [0x61, 0x62, 0x63]) true 20) := by
  intro host p
  have valid : ∀ n ∈ some (20 : Int), 1 ≤ n ∧ n ≤ outBytes := by
    rintro _ ⟨⟩
    decide
  refine ⟨rfl, ?_⟩
  exact digest_eq_standard (i := { backend := .generic }) rfl rfl {} p rfl true
    [[0x61], [], [0x62, 0x63]] valid

end State

end Blake2s
