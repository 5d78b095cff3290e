import Blake2s.Proofs.Parameters.Layout
import Blake2s.Proofs.State.Digest
import Mathlib.Algebra.Order.Ring.Int

set_option autoImplicit false

/-! # The batches of a run

A state hands its input on in batches. What an update hands on depends on how full the buffer is and
on the input alone, not on what the engine makes of it (`State.batches`): all blocks of what has come
so far, but for the last one (`Batches.ahead_batches`). Over a whole run, the batches take every block of
the stream once, in order, and only the last one may advance the counter by less than a block
(`Batches.Ahead.covers`). -/

namespace Blake2s

/-! ## Batches that take a stream -/

namespace Batch

/-- The bytes that a batch takes. -/
def taken (batch : Batch) : Bytes := batch.bytes.take (64 * batch.count)

/-- A batch of blocks that are all there and all count in full. -/
structure Full (batch : Batch) : Prop where
  count_pos : 1 ≤ batch.count
  enough : 64 * batch.count ≤ batch.bytes.length
  inc : batch.inc = 64

theorem length_taken {batch : Batch} (enough : 64 * batch.count ≤ batch.bytes.length) :
    batch.taken.length = 64 * batch.count := by
  rw [taken, List.length_take, Nat.min_eq_left enough]

end Batch

namespace State

theorem enough_bufferBatch (buffer : Block) (n : Nat) :
    1 ≤ (bufferBatch buffer n).count ∧
      64 * (bufferBatch buffer n).count ≤ (bufferBatch buffer n).bytes.length := by
  simp [bufferBatch]

theorem taken_bufferBatch (buffer : Block) (n : Nat) :
    (bufferBatch buffer n).taken = buffer.toList := by
  have whole : buffer.toList.length ≤ 64 := by simp
  exact List.take_of_length_le whole

end State

namespace Batches

variable {batches more : List Batch} {stream : Bytes}

theorem sum_count (full : ∀ batch ∈ batches, batch.Full) :
    64 * (batches.map (·.count)).sum = (batches.flatMap Batch.taken).length := by
  induction batches with
  | nil => rfl
  | cons batch batches ih =>
    obtain ⟨first, rest⟩ := List.forall_mem_cons.mp full
    rw [List.map_cons, List.sum_cons, List.flatMap_cons, List.length_append, ← ih rest,
      Batch.length_taken first.enough, Nat.mul_add]

theorem sum_inc (full : ∀ batch ∈ batches, batch.Full) :
    (batches.map fun batch => (batch.count : Int) * batch.inc).sum
      = 64 * ((batches.map (·.count)).sum : Nat) := by
  induction batches with
  | nil => rfl
  | cons batch batches ih =>
    obtain ⟨first, rest⟩ := List.forall_mem_cons.mp full
    simp only [List.map_cons, List.sum_cons, ih rest, first.inc]
    omega

/-- Full batches that take all blocks of a stream but the last one, which more input may still follow.
    -/
structure Ahead (batches : List Batch) (stream : Bytes) : Prop where
  full : ∀ batch ∈ batches, batch.Full
  taken : batches.flatMap Batch.taken = stream.take (64 * blocksAhead stream.length)

namespace Ahead

theorem nil (short : stream.length ≤ 64) : Ahead [] stream where
  full _ h := nomatch h
  taken := by rw [blocksAhead_of_le short]; rfl

/-- What was held back comes first in the batches that follow. -/
theorem append {xs ys : Bytes} (first : Ahead batches xs)
    (second : Ahead more (Block.held xs ++ ys)) : Ahead (batches ++ more) (xs ++ ys) where
  full batch h := (List.mem_append.mp h).elim (first.full batch) (second.full batch)
  taken := by
    have whole := Block.whole_blocksAhead xs
    have rest : (xs ++ ys).drop (64 * blocksAhead xs.length) = Block.held xs ++ ys :=
      List.drop_append_of_le_length whole
    have both := Block.blocksAhead_append xs ys
    rw [List.flatMap_append, first.taken, second.taken, both, Nat.mul_add, List.take_add, rest,
      List.take_append_of_le_length whole]

end Ahead

/-- The batches of a run over a stream: each is of blocks that are all there, only the last one may
    count in part, and it does not count at all just if there is no input; together they take the
    stream, padded with zeros to whole blocks, at least one. -/
structure Covers (batches : List Batch) (stream : Bytes) : Prop where
  enough : ∀ batch ∈ batches, 1 ≤ batch.count ∧ 64 * batch.count ≤ batch.bytes.length
  before_last : ∀ batch ∈ batches.dropLast, batch.inc = 64
  last : ∃ batch, batches.getLast? = some batch ∧ batch.count = 1 ∧
    0 ≤ batch.inc ∧ batch.inc ≤ 64 ∧ (batch.inc = 0 ↔ stream = [])
  sum_count : (batches.map (·.count)).sum = max 1 ((stream.length + 63) / 64)
  sum_inc : (batches.map fun batch => (batch.count : Int) * batch.inc).sum = stream.length
  taken : batches.flatMap Batch.taken
    = stream.padTo (64 * max 1 ((stream.length + 63) / 64))

theorem length_held (stream : Bytes) :
    64 * blocksAhead stream.length + (Block.held stream).length = stream.length := by
  have whole := Block.whole_blocksAhead stream
  rw [Block.held, List.length_drop]
  omega

/-- Nothing is held back only if there was nothing. -/
theorem length_held_eq_zero_iff : (Block.held stream).length = 0 ↔ stream = [] := by
  have split := length_held stream
  rw [← List.length_eq_zero_iff]
  constructor
  · intro none
    rw [none, blocksAhead] at split
    omega
  · intro empty
    omega

/-- The batch of a last block, of which some input is held back. -/
def lastOf (held : Bytes) : Batch := State.bufferBatch (Block.ofBytes held) held.length

theorem taken_lastOf {held : Bytes} (short : held.length ≤ 64) :
    (lastOf held).taken = held.padTo 64 := by
  rw [lastOf, State.taken_bufferBatch, Block.toList_ofBytes, List.take_of_length_le short]

/-- The blocks ahead and the last one make up a whole run. -/
theorem Ahead.covers (ahead : Ahead batches stream) :
    Covers (batches ++ [lastOf (Block.held stream)]) stream := by
  have blocks : blocksAhead stream.length + 1 = max 1 ((stream.length + 63) / 64) :=
    (Standard.blockCount_eq stream).symm
  have split := length_held stream
  have short := Block.length_held_le stream
  have whole := Block.whole_blocksAhead stream
  have counted : (batches.map (·.count)).sum = blocksAhead stream.length := by
    have lengths := sum_count ahead.full
    rw [ahead.taken, List.length_take, Nat.min_eq_left whole] at lengths
    omega
  constructor
  case enough =>
    intro batch h
    rcases List.mem_append.mp h with h | h
    · exact ⟨(ahead.full batch h).count_pos, (ahead.full batch h).enough⟩
    · obtain rfl := List.mem_singleton.mp h
      exact State.enough_bufferBatch _ _
  case before_last =>
    rw [List.dropLast_concat]
    exact fun batch h => (ahead.full batch h).inc
  case last =>
    refine ⟨_, List.getLast?_concat, rfl, Int.natCast_nonneg _, Int.ofNat_le.mpr short, ?_⟩
    rw [← length_held_eq_zero_iff]
    exact Int.natCast_eq_zero
  case sum_count =>
    rw [List.map_append, List.sum_append, counted]
    exact blocks
  case sum_inc =>
    have last : ([lastOf (Block.held stream)].map fun batch => (batch.count : Int) * batch.inc).sum
        = (Block.held stream).length := by
      simp [lastOf, State.bufferBatch]
    rw [List.map_append, List.sum_append, Batches.sum_inc ahead.full, counted, last]
    omega
  case taken =>
    have room : 64 * (blocksAhead stream.length + 1) - stream.length
        = 64 - (Block.held stream).length := by
      omega
    rw [List.flatMap_append, ahead.taken, List.flatMap_singleton, taken_lastOf short, ← blocks,
      Bytes.padTo, Bytes.padTo, room, ← List.append_assoc, Block.held, List.take_append_drop]

end Batches

/-! ## Batches of a state -/

namespace State

/-- The batches for which a state asks its engine to absorb some input: one if the buffer is topped
    off, and another one if more than a block comes after that. -/
def batches (s : State) (data : Bytes) : List Batch :=
  if data.length ≤ 64 - s.filled then []
  else
    let rest := data.drop (64 - s.filled)
    bufferBatch (s.toppedOff data) 64 :: if rest.length ≤ 64 then [] else [aheadBatch rest]

/-- How many blocks the batches have, and how much a block counts. -/
theorem shapes_batches (s : State) (data : Bytes) :
    (s.batches data).map (fun batch => (batch.count, batch.inc))
      = if data.length ≤ 64 - s.filled then []
        else
          let rest := data.length - (64 - s.filled)
          (1, 64) :: if rest ≤ 64 then [] else [((rest + 63) / 64 - 1, 64)] := by
  unfold batches
  split
  · rfl
  · simp only [List.length_drop]
    split
    · rfl
    · have count (n : Nat) : blocksAhead n = (n + 63) / 64 - 1 := by
        rw [blocksAhead]
        omega
      simp only [List.map_cons, List.map_nil, aheadBatch, List.length_drop, count]
      rfl

/-- Input on an empty buffer goes on in one batch, if it is more than a block. -/
theorem ahead_aheadBatch (data : Bytes) :
    Batches.Ahead (if data.length ≤ 64 then [] else [aheadBatch data]) data := by
  split
  next short => exact .nil short
  next long =>
    constructor
    · intro batch h
      obtain rfl := List.mem_singleton.mp h
      refine ⟨?_, Block.whole_blocksAhead data, rfl⟩
      change 1 ≤ blocksAhead data.length
      rw [blocksAhead]
      omega
    · exact List.flatMap_singleton Batch.taken _

/-- Topping off the buffer takes the first block of what it holds and the input. -/
theorem full_toppedOff {s : State} (fits : s.filled ≤ 64) {data : Bytes}
    (long : 64 - s.filled < data.length) :
    (bufferBatch (s.toppedOff data) 64).Full ∧
      (bufferBatch (s.toppedOff data) 64).taken = (s.content.input ++ data).take 64 := by
  have filled := length_input_content fits
  have whole : ((s.content.input ++ data).take 64).length = 64 := by
    rw [List.length_take, List.length_append]
    omega
  have enough := enough_bufferBatch (s.toppedOff data) 64
  refine ⟨⟨enough.1, enough.2, rfl⟩, ?_⟩
  rw [taken_bufferBatch, toppedOff_eq_ofBytes fits long, Block.toList_ofBytes,
    Bytes.padTo_eq_self_iff.mpr (Nat.le_of_eq whole.symm)]

/-- **An update hands on all blocks but the last one** of what the buffer holds and the input. -/
theorem ahead_batches {s : State} (fits : s.filled ≤ 64) (data : Bytes) :
    Batches.Ahead (s.batches data) (s.content.input ++ data) := by
  have filled := length_input_content fits
  unfold batches
  split
  next short =>
    apply Batches.Ahead.nil
    rw [List.length_append]
    omega
  next long =>
    obtain ⟨full, first⟩ := full_toppedOff fits (Nat.lt_of_not_le long)
    have after := ahead_aheadBatch (data.drop (64 - s.filled))
    have rest : (s.content.input ++ data).drop 64 = data.drop (64 - s.filled) := by
      rw [List.drop_append, List.drop_eq_nil_of_le (by omega), List.nil_append, filled]
    have blocks : blocksAhead (s.content.input ++ data).length
        = 1 + blocksAhead (data.drop (64 - s.filled)).length := by
      simp only [blocksAhead, List.length_append, List.length_drop]
      omega
    constructor
    · exact List.forall_mem_cons.mpr ⟨full, after.full⟩
    · rw [List.flatMap_cons, first, after.taken, blocks, Nat.mul_add, List.take_add, Nat.mul_one,
        rest]

/-- The batch with which a state finishes. -/
theorem lastBatch_eq {s : State} (fits : s.filled ≤ 64) :
    bufferBatch s.closeLastBlock.buffer s.filled = Batches.lastOf s.content.input := by
  rw [Batches.lastOf, buffer_closeLastBlock fits, length_input_content fits]

end State

end Blake2s
