import Blake2s.Backend.Doubles
import Blake2s.Proofs.Block
import Blake2s.Proofs.Compress.Rows
import Blake2s.Proofs.Engine.Alike

set_option autoImplicit false

/-! # Lawful backends

A backend is *lawful* if whatever it accepts it compresses as the generic compression does. It is
free to accept or decline as it likes, also depending on all that it was offered before. The generic
and the vectorized backend are lawful; for the vectorized one, `tryCompress_vectorized` says in full
what an attempt does to a hash state. Compressing by a lawful backend, with the generic compression
where it declines, is a lawful engine (`Instance.engine_lawful`). -/

namespace Blake2s

/-! ## Excess bytes -/

/-- The blocks of a batch do not depend on what comes after the last of them. -/
theorem Batch.blocks_append {bytes : Bytes} (excess : Bytes) {count : Nat} (inc : Int)
    (enough : blockBytes * count ≤ bytes.length) :
    blocks { bytes := bytes ++ excess, count, inc } = blocks { bytes, count, inc } :=
  Block.split_append count excess enough

theorem Chain.compress_append (chain : Chain) {bytes : Bytes} (excess : Bytes) {count : Nat}
    (inc : Int) (enough : blockBytes * count ≤ bytes.length) :
    chain.compress { bytes := bytes ++ excess, count, inc }
      = chain.compress { bytes, count, inc } := by
  rw [compress, compress, Batch.blocks_append excess inc enough]

namespace Backend

/-! ## Attempts on a hash state -/

theorem Instance.runOn_engine (chain : Chain) (batch : Batch) (i : Instance) :
    Action.runOn (engine chain batch) i
      = (.ok ((i.backend.respond i.offers { chain, batch }).getD (chain.compress batch)),
         { i with offers := i.offers ++ [{ chain, batch }] }) := rfl

/-- An attempt to compress a batch into a state: was the batch accepted, and what is the state
    afterwards? A backend that declines has no effect. -/
def tryCompress (backend : Backend) (earlier : List Offer) (s : State) (batch : Batch) :
    Bool × State :=
  match backend.respond earlier { chain := s.chain, batch } with
  | some chain => (true, { s with chain })
  | none => (false, s)

/-- A state that is on a backend of its own is compressed into by one attempt, and generically if
    that is declined. -/
theorem compress_eq_tryCompress {s : State} {batch : Batch} {i : Instance}
    (full : ¬(1 < batch.count ∧ batch.inc ≠ blockBytes)) :
    (State.compress Instance.engine batch).runOn s i
      = ((.ok (),
          match i.backend.tryCompress i.offers s batch with
          | (true, s') => s'
          | (false, s') => { s' with chain := s'.chain.compress batch }),
         { i with offers := i.offers ++ [{ chain := s.chain, batch }] }) := by
  unfold State.compress tryCompress
  rw [if_neg full, HashM.runOn_bind, HashM.runOn_get]
  dsimp only
  rw [HashM.runOn_bind, HashM.runOn_ofEngine, Instance.runOn_engine]
  cases i.backend.respond i.offers { chain := s.chain, batch } with
  | some chain => rfl
  | none => rfl

theorem respond_vectorized (minBlocks : Int) (earlier : List Offer) (offer : Offer) :
    (vectorized minBlocks).respond earlier offer
      = if offer.batch.count < minBlocks then none
        else some (offer.chain.compress offer.batch) := by
  change (if _ then _ else some (Lanes.compress offer.chain offer.batch)) = _
  rw [Lanes.compress_eq]

/-- **The vectorized path is the generic one.** A batch of too few blocks is declined and the state
    is as it was. Any other batch is accepted: chain value and counter are then those of the generic
    compression, and the rest of the state is as it was. Bytes after the last block of the batch do
    not matter. -/
theorem tryCompress_vectorized (minBlocks : Int) (earlier : List Offer) (s : State)
    (batch : Batch) (enough : blockBytes * batch.count ≤ batch.bytes.length) :
    ((vectorized minBlocks).tryCompress earlier s batch
      = if batch.count < minBlocks then (false, s)
        else
          (true, { s with
            chain := { s.chain with
              h := (s.chain.compress batch).h
              t := (s.chain.compress batch).t } })) ∧
    ∀ excess, (vectorized minBlocks).tryCompress earlier s
        { batch with bytes := batch.bytes ++ excess }
      = (vectorized minBlocks).tryCompress earlier s batch := by
  -- the flags are the part of the chain that a compression leaves alone
  have parts (batch : Batch) : s.chain.compress batch
      = { s.chain with h := (s.chain.compress batch).h, t := (s.chain.compress batch).t } := by
    change _ = Chain.mk _ _ s.chain.f
    rw [← Chain.compress_f s.chain batch]
  constructor
  · unfold tryCompress
    rw [respond_vectorized]
    by_cases few : batch.count < minBlocks
    · rw [if_pos few, if_pos few]
    · rw [if_neg few, if_neg few, ← parts]
  · intro excess
    unfold tryCompress
    rw [respond_vectorized, respond_vectorized]
    by_cases few : batch.count < minBlocks
    · rw [if_pos few, if_pos few]
    · rw [if_neg few, if_neg few, Chain.compress_append s.chain excess batch.inc enough]

/-- Two blocks and a byte, offered to a backend that takes batches from two blocks on. -/
theorem tryCompress_vectorized_two_blocks :
    let s : State := {}
    let batch : Batch := { bytes := Bytes.zeros 128, count := 2, inc := 64 }
    blockBytes * batch.count ≤ batch.bytes.length ∧
      (vectorized 2).tryCompress [] s { batch with bytes := batch.bytes ++ [7] }
        = (true, { s with
            chain := { s.chain with
              h := (s.chain.compress batch).h
              t := (s.chain.compress batch).t } }) := by
  intro s batch
  have enough : blockBytes * batch.count ≤ batch.bytes.length :=
    Nat.le_of_eq (Bytes.length_zeros 128).symm
  have both := tryCompress_vectorized 2 [] s batch enough
  have taken : ¬(batch.count : Int) < 2 := by decide
  refine ⟨enough, ?_⟩
  rw [both.2 [7], both.1, if_neg taken]

/-! ## Lawfulness -/

/-- Each answer declines, or is the chain of the generic compression. -/
def Lawful (backend : Backend) : Prop :=
  ∀ earlier offer, backend.respond earlier offer = none ∨
    backend.respond earlier offer = some (offer.chain.compress offer.batch)

theorem generic_lawful : generic.Lawful := fun _ _ => .inl rfl

theorem vectorized_lawful (minBlocks : Int) : (vectorized minBlocks).Lawful := by
  intro earlier offer
  rw [respond_vectorized]
  split
  · exact .inl rfl
  · exact .inr rfl

/-! ## Engines from backends -/

namespace Instance

/-- What a lawful backend declines is compressed once, by the generic compression; what it accepts
    is not compressed again. -/
theorem outcome_of_lawful {i : Instance} (lawful : i.backend.Lawful) (chain : Chain)
    (batch : Batch) : (Action.runOn (engine chain batch) i).1 = .ok (chain.compress batch) := by
  rw [runOn_engine]
  rcases lawful i.offers { chain, batch } with declined | accepted
  · rw [declined, Option.getD_none]
  · rw [accepted, Option.getD_some]

theorem engine_lawful : engine.Lawful fun i => i.backend.Lawful := by
  intro chain batch i lawful
  exact ⟨outcome_of_lawful lawful chain batch, lawful⟩

end Instance

end Backend

end Blake2s
