import Blake2s.Proofs.Engine.Recording
import Blake2s.Proofs.Parameters.Layout
import Blake2s.Proofs.State.Digest

set_option autoImplicit false

/-! # The encoding of an input is unambiguous

A `Computation` is a whole hash, from its parameters to its digest. Its first chain value is what its
initialization leaves, and what the compression function is fed in it can be told from the parameters,
the key and the message alone (`Computation.feeds_eq`). The digest is nothing but the compression
function, applied to these feeds (`Computation.run_eq`).

Conversely the feeds, with the first chain value, tell everything that went into the computation
(`Computation.eq_of_feeds`). Only the feed of the last block has a flag set, so none of two lists of
feeds ends within the other (`Computation.feeds_eq_of_part`). A list says how many blocks there are,
and its last counter how much of the last block is padding, though both count modulo `2 ^ 64` only;
and the length of the key, which is in the first chain value, separates a key from its padding. -/

namespace Blake2s

/-! ## Blocks, keys and strings -/

/-- Strings of the same length that their blocks cover are told apart by them. -/
theorem Block.eq_of_split {n : Nat} {xs ys : Bytes} (same : xs.length = ys.length)
    (covered : xs.length ≤ 64 * n) (h : split n xs = split n ys) : xs = ys := by
  induction n generalizing xs ys with
  | zero =>
    have empty : xs.length = 0 := by omega
    rw [List.length_eq_zero_iff.mp empty, List.length_eq_zero_iff.mp (same.symm.trans empty)]
  | succ n ih =>
    obtain ⟨first, rest⟩ := List.cons.inj h
    have front : xs.take 64 = ys.take 64 := by
      have bytes := congrArg Vector.toList first
      rw [toList_ofBytes, toList_ofBytes] at bytes
      refine Bytes.eq_of_padTo ?_ bytes
      rw [List.length_take, List.length_take, same]
    have back : xs.drop 64 = ys.drop 64 := by
      refine ih ?_ ?_ rest
      · rw [List.length_drop, List.length_drop, same]
      · rw [List.length_drop]
        omega
    rw [← List.take_append_drop 64 xs, front, back, List.take_append_drop]

/-- Keys of one length are not mixed up by their padding, nor with the message after them. -/
theorem Standard.keyed_injective {key key' message message' : Bytes}
    (same : key.length = key'.length) (h : keyed key message = keyed key' message') :
    key = key' ∧ message = message' := by
  unfold keyed at h
  by_cases empty : key = []
  · subst empty
    obtain rfl : key' = [] := List.length_eq_zero_iff.mp same.symm
    exact ⟨rfl, h⟩
  · have empty' : key' ≠ [] := by
      rintro rfl
      exact empty (List.length_eq_zero_iff.mp same)
    rw [if_neg empty, if_neg empty'] at h
    have padded : (key.padTo 64).length = (key'.padTo 64).length := by
      rw [Bytes.length_padTo, Bytes.length_padTo, same]
    obtain ⟨keys, messages⟩ := List.append_inj h padded
    exact ⟨Bytes.eq_of_padTo same keys, messages⟩

/-! ## The feeds of a host -/

/-- The backend in use at a place is lawful, and its offers ask to be fed the given. -/
def Host.Fed (id : BackendId) (p : Host) (fed : List Feed) : Prop :=
  ∃ i, p.backends[id]? = some i ∧ i.backend.Lawful ∧ i.fed = fed

/-- A state that is pinned to a lawful backend, against recording. -/
theorem Host.alike_recording (id : BackendId) :
    Engine.Alike (Fed id) (engine (some id)) Engine.recording := by
  intro chain batch p fed hp
  obtain ⟨i, hi, lawful⟩ := hp
  obtain ⟨lt, -⟩ := Array.getElem?_eq_some_iff.mp hi
  obtain ⟨outcome, lawful'⟩ := Backend.Instance.alike_recording chain batch i fed lawful
  have pinned : Action.runOn (engine (some id) chain batch) p
      = Action.runOn (compressBy id chain batch) p := rfl
  rw [pinned, runOn_compressBy_of_some hi]
  refine ⟨outcome, _, ?_, lawful'⟩
  rw [Array.getElem?_setIfInBounds_self_of_lt lt]

/-! ## Whole computations -/

/-- A hash from start to end. -/
structure Computation where
  parameters : Parameters
  key : Bytes
  lastNode : Bool
  /-- The message, in the pieces in which it is absorbed. -/
  chunks : List Bytes
  /-- The length that is asked for in the end, if not the one of the parameters. -/
  requested : Option Int
  /-- What the state held before. -/
  before : State
  /-- The backend that the state is pinned to. -/
  backend : Backend
  key_length : key.length = parameters.keyLength.toNat
  requested_valid : ∀ n ∈ requested, 1 ≤ n ∧ n ≤ outBytes
  lawful : backend.Lawful

namespace Computation

variable (c : Computation)

def message : Bytes := c.chunks.flatten

/-- All the data that is absorbed. -/
def data : Bytes := Standard.keyed c.key c.message

/-- The host before the run: nothing has been offered to the backend yet. -/
def host : Host := { backends := #[{ backend := c.backend }] }

def start : HashM Host Unit :=
  State.start (Host.engine (some 0)) c.parameters c.key c.lastNode

/-- The outcome, the state after it, and the host with all that was offered to the backend. -/
def run : (Except Fault Bytes × State) × Host :=
  HashM.runOn
    (do
      c.start
      c.chunks.forM (State.update (Host.engine (some 0)))
      State.final (Host.engine (some 0)) c.requested) c.before c.host

/-- The chain value that the initialization leaves. -/
def firstChain : Vector UInt32 8 := (c.start.runOn c.before c.host).1.2.chain.h

/-- Everything that the compression function is fed, in order. -/
def feeds : List Feed := (c.run.2.backends[0]?).elim [] (·.fed)

/-- What the compression function makes of the first chain value and the feeds, and of nothing else. -/
def digest : Bytes :=
  (Chain.bytes { h := c.feeds.foldl Feed.apply c.firstChain }).take
    (c.requested.getD c.parameters.digestLength.toNat).toNat

/-- The content before any data. -/
def fresh : Content := (State.ofParameters c.parameters c.lastNode).content

theorem firstChain_eq : c.firstChain = c.parameters.chainValue := by
  obtain ⟨s, run, holds⟩ :=
    State.start_holds c.before c.key_length c.lastNode (Host.engine (some 0)) c.host
  -- a key is kept as input, so nothing is compressed
  have kept := Content.absorb_of_le (c := c.fresh) (State.length_keyed_nil_le c.key_length)
  have chain : s.chain = c.fresh.chain := congrArg Content.chain (holds.content.trans kept)
  rw [firstChain, start, run]
  exact congrArg Chain.h chain

theorem run_fed :
    ∃ p : Host, c.run
        = ((.ok (((c.fresh.absorb c.data).lastChain.bytes).take
            (c.requested.getD c.parameters.digestLength.toNat).toNat), {}), p) ∧
      p.Fed 0 (c.fresh.feeds c.data ++ [(c.fresh.absorb c.data).lastFeed]) := by
  have start : c.host.Fed 0 [] :=
    ⟨{ backend := c.backend }, rfl, c.lawful, rfl⟩
  have run := State.hash_recording c.before [] c.key_length c.lastNode c.chunks c.requested_valid
  dsimp only at run
  rw [← State.take_bytes_lastChain] at run
  exact (State.alike_hash (Host.alike_recording 0) c.parameters c.key c.lastNode c.chunks
    c.requested).transfer start run

/-- All blocks but the last are fed while the data is absorbed, and the last one in the end. -/
theorem feeds_eq : c.feeds = c.fresh.feeds c.data ++ [(c.fresh.absorb c.data).lastFeed] := by
  obtain ⟨p, run, i, hi, -, fed⟩ := c.run_fed
  rw [feeds, run, hi]
  exact fed

/-- The digest comes of the first chain value and the feeds. -/
theorem run_eq : c.run.1.1 = .ok c.digest := by
  obtain ⟨p, run, -⟩ := c.run_fed
  have first : c.fresh.chain.h = c.firstChain := c.firstChain_eq.symm
  have last : (c.fresh.absorb c.data).lastChain.h = c.feeds.foldl Feed.apply c.firstChain := by
    rw [feeds_eq, List.foldl_append, ← first, ← Content.absorb_h, Content.lastChain_h,
      List.foldl_cons, List.foldl_nil]
  rw [run, digest, Chain.bytes, Chain.bytes, last]

/-! ## What the feeds tell -/

theorem map_block_feeds : c.feeds.map Feed.block = Block.split (blocksAhead c.data.length + 1) c.data := by
  have last : (c.fresh.absorb c.data).lastFeed.block = Block.ofBytes (Block.held c.data) := rfl
  rw [feeds_eq, List.map_append, Content.feeds, Chain.map_block_feeds, List.map_singleton, last,
    Block.split_add, Block.split_one]
  rfl

/-- The counter at the end. -/
theorem toNat_lastFeed_t : (c.fresh.absorb c.data).lastFeed.t.toNat = c.data.length % 2 ^ 64 := by
  rw [Content.absorb_of_fresh (h := c.parameters.chainValue) rfl rfl]
  exact Chain.toNat_last_t c.parameters.chainValue c.data

/-- The flags at the end. -/
theorem lastFeed_f :
    (c.fresh.absorb c.data).lastFeed.f
      = { lastBlock := wordMask, lastNode := if c.lastNode then wordMask else 0 } := by
  rw [Content.absorb_of_fresh (h := c.parameters.chainValue) rfl rfl, Content.lastFeed,
    Chain.after_f]
  rfl

variable {a b : Computation}

/-- No list of feeds goes on after the end of another one. -/
theorem feeds_eq_of_part (h : a.feeds <+: b.feeds) : a.feeds = b.feeds := by
  rw [a.feeds_eq, b.feeds_eq] at h
  rw [a.feeds_eq, b.feeds_eq]
  rcases List.prefix_concat_iff.mp h with same | early
  · exact same
  · -- otherwise the last feed of one is fed in the other before the end, with no flag set
    have member : (a.fresh.absorb a.data).lastFeed ∈ b.fresh.feeds b.data :=
      early.subset (by simp)
    have unflagged : (a.fresh.absorb a.data).lastFeed.f = {} := Chain.f_of_mem_feeds member
    rw [lastFeed_f] at unflagged
    have mask : wordMask = 0 := congrArg Flags.lastBlock unflagged
    exact absurd mask (by decide)

/-- The same feeds are fed for the same data only, and as the same kind of node. -/
theorem data_eq_of_feeds (h : a.feeds = b.feeds) : a.data = b.data ∧ a.lastNode = b.lastNode := by
  have blocks : Block.split (blocksAhead a.data.length + 1) a.data
      = Block.split (blocksAhead b.data.length + 1) b.data := by
    rw [← map_block_feeds, ← map_block_feeds, h]
  have last : (a.fresh.absorb a.data).lastFeed = (b.fresh.absorb b.data).lastFeed := by
    rw [a.feeds_eq, b.feeds_eq] at h
    exact (List.append_singleton_inj.mp h).2
  have count : blocksAhead a.data.length = blocksAhead b.data.length := by
    have lengths := congrArg List.length blocks
    simpa only [Block.length_split, Nat.add_right_cancel_iff] using lengths
  have counters : a.data.length % 2 ^ 64 = b.data.length % 2 ^ 64 := by
    rw [← toNat_lastFeed_t, ← toNat_lastFeed_t, last]
  have flags := congrArg Feed.f last
  have same : a.data.length = b.data.length := by
    unfold blocksAhead at count
    omega
  constructor
  · rw [← count] at blocks
    refine Block.eq_of_split same ?_ blocks
    rw [blocksAhead]
    omega
  · rw [lastFeed_f, lastFeed_f] at flags
    have nodes := congrArg Flags.lastNode flags
    revert nodes
    cases a.lastNode <;> cases b.lastNode <;> decide

/-- **The encoding of an input is unambiguous.** Two computations that start from the same chain
    value and feed the compression function the same, or of which one feeds it a part of what the
    other does from the start on, are about the same parameters, up to the zeros that pad salt and
    personalization, and the same key, kind of node and message. The feeds and the first chain value
    are all that their digests come of. -/
theorem eq_of_feeds (first : a.firstChain = b.firstChain)
    (h : a.feeds <+: b.feeds ∨ b.feeds <+: a.feeds) :
    (a.parameters.padded = b.parameters.padded ∧ a.key = b.key ∧ a.lastNode = b.lastNode ∧
      a.message = b.message) ∧ a.run.1.1 = .ok a.digest ∧ b.run.1.1 = .ok b.digest := by
  have chainValue : a.parameters.chainValue = b.parameters.chainValue := by
    rw [← firstChain_eq, first, firstChain_eq]
  have parameters := Parameters.padded_eq_of_chainValue chainValue
  have keyLength : a.parameters.padded.keyLength = b.parameters.padded.keyLength := by
    rw [parameters]
  have sameLength : a.key.length = b.key.length := by
    rw [a.key_length, b.key_length]
    exact congrArg UInt8.toNat keyLength
  have feeds : a.feeds = b.feeds := by
    rcases h with h | h
    · exact feeds_eq_of_part h
    · exact (feeds_eq_of_part h).symm
  obtain ⟨data, lastNode⟩ := data_eq_of_feeds feeds
  obtain ⟨key, message⟩ := Standard.keyed_injective sameLength data
  exact ⟨⟨parameters, key, lastNode, message⟩, a.run_eq, b.run_eq⟩

/-- One message in two ways: with a salt that ends in a zero and without that zero, in one piece and
    in two, compressed generically and lane-parallel. -/
theorem eq_of_feeds_same_message :
    let p : Parameters :=
      { digestLength := 32, keyLength := 1, fanout := 1, depth := 1, leafLength := 0,
        nodeOffset := 0, xofLength := 0, nodeDepth := 0, innerLength := 0, salt := [7, 0],
        personal := [], digestLength_pos := by decide, digestLength_le := by decide,
        keyLength_le := by decide, innerLength_le := by decide, salt_le := by decide,
        personal_le := by decide }
    let q : Parameters := { p with salt := [7], salt_le := by decide }
    let a : Computation :=
      { parameters := p, key := [5], lastNode := true, chunks := [[1, 2]], requested := none,
        before := {}, backend := .generic, key_length := rfl, requested_valid := nofun,
        lawful := Backend.generic_lawful }
    let b : Computation :=
      { parameters := q, key := [5], lastNode := true, chunks := [[1], [2]], requested := none,
        before := { filled := 3 }, backend := .vectorized 1, key_length := rfl,
        requested_valid := nofun, lawful := Backend.vectorized_lawful 1 }
    a.firstChain = b.firstChain ∧ (a.feeds <+: b.feeds ∨ b.feeds <+: a.feeds) ∧
      (a.parameters.padded = b.parameters.padded ∧ a.key = b.key ∧ a.lastNode = b.lastNode ∧
        a.message = b.message) ∧ a.run.1.1 = .ok a.digest ∧ b.run.1.1 = .ok b.digest := by
  intro p q a b
  have bytes : p.toBytes = q.toBytes := rfl
  have chainValue : p.chainValue = q.chainValue := by
    simp only [Parameters.chainValue, Parameters.words, bytes]
  have first : a.firstChain = b.firstChain := by
    rw [firstChain_eq, firstChain_eq]
    exact chainValue
  have fresh : a.fresh = b.fresh := by
    change Content.mk { h := p.chainValue } [] 32 true = Content.mk { h := q.chainValue } [] 32 true
    rw [chainValue]
  have data : a.data = b.data := rfl
  have feeds : a.feeds = b.feeds := by
    rw [a.feeds_eq, b.feeds_eq, fresh, data]
  have parts : a.feeds <+: b.feeds ∨ b.feeds <+: a.feeds := by
    rw [feeds]
    exact .inl List.prefix_rfl
  exact ⟨first, parts, eq_of_feeds first parts⟩

end Computation

end Blake2s
