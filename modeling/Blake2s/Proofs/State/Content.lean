import Blake2s.Proofs.Engine.Recording
import Blake2s.Proofs.State.Phases

set_option autoImplicit false

/-! # What a hash state has absorbed

The bytes of a buffer past the filled ones are left over from earlier input and never matter. The
`Content` of a state is what does: the chain, the input that is not compressed yet, and what the
state was initialized with. On contents absorbing is a function, `Content.absorb`, with a law for
strings put together (`Content.absorb_append`); it is what the three phases of `State.update` come
to (`State.content_update`), and the outcome of finishing is a function of the content as well
(`State.finalWithin_recording`). So is what the compression function is fed meanwhile
(`Content.feeds`, `Content.lastFeed`). All of this is about the engine that records its feeds;
`Engine.Lawful` engines have the same outcomes and leave the same states
(`State.update_of_lawful`, `State.finalWithin_of_lawful`). -/

namespace Blake2s

/-- What matters in a hash state. -/
structure Content where
  chain : Chain
  /-- The input that is not compressed yet. -/
  input : Bytes
  outlen : Nat
  lastNode : Bool
  deriving DecidableEq, Repr

/-- The content of a state. -/
def State.content (s : State) : Content :=
  { chain := s.chain, input := s.buffer.toList.take s.filled, outlen := s.outlen,
    lastNode := s.lastNode }

/-! ## Which blocks are compressed ahead -/

namespace Block

/-- The blocks of some input that are compressed while more may come. -/
def ahead (bytes : Bytes) : List Block := split (blocksAhead bytes.length) bytes

/-- What is held back of some input while more may come. -/
def held (bytes : Bytes) : Bytes := bytes.drop (64 * blocksAhead bytes.length)

theorem ahead_of_le {bytes : Bytes} (h : bytes.length ≤ 64) : ahead bytes = [] := by
  rw [ahead, blocksAhead_of_le h, split_zero]

theorem held_of_le {bytes : Bytes} (h : bytes.length ≤ 64) : held bytes = bytes := by
  rw [held, blocksAhead_of_le h, Nat.mul_zero, List.drop_zero]

theorem length_held_le (bytes : Bytes) : (held bytes).length ≤ 64 := by
  rw [held, List.length_drop, blocksAhead]
  omega

/-- More input after some adds the blocks of what was held back with the new input behind. -/
theorem blocksAhead_append (xs ys : Bytes) :
    blocksAhead (xs ++ ys).length
      = blocksAhead xs.length + blocksAhead (held xs ++ ys).length := by
  simp only [held, blocksAhead, List.length_append, List.length_drop]
  omega

theorem whole_blocksAhead (xs : Bytes) : 64 * blocksAhead xs.length ≤ xs.length := by
  rw [blocksAhead]
  omega

theorem ahead_append (xs ys : Bytes) : ahead (xs ++ ys) = ahead xs ++ ahead (held xs ++ ys) := by
  have whole := whole_blocksAhead xs
  rw [ahead, blocksAhead_append, split_add, split_append _ ys whole,
    List.drop_append_of_le_length whole]
  rfl

theorem held_append (xs ys : Bytes) : held (xs ++ ys) = held (held xs ++ ys) := by
  rw [held, blocksAhead_append, Nat.mul_add, ← List.drop_drop,
    List.drop_append_of_le_length (whole_blocksAhead xs)]
  rfl

variable {xs data : Bytes}

/-- What tops off a first block is compressed with it, and the rest is input after that. -/
theorem topOff (fits : xs.length ≤ 64) (h : 64 - xs.length < data.length) :
    ahead (xs ++ data) = ofBytes (xs ++ data) :: ahead (data.drop (64 - xs.length)) ∧
      held (xs ++ data) = held (data.drop (64 - xs.length)) := by
  have rest : (xs ++ data).drop 64 = data.drop (64 - xs.length) := by
    rw [List.drop_append, List.drop_eq_nil_of_le fits, List.nil_append]
  have count : blocksAhead (xs ++ data).length
      = 1 + blocksAhead (data.drop (64 - xs.length)).length := by
    simp only [blocksAhead, List.length_append, List.length_drop]
    omega
  constructor
  · rw [ahead, count, split_add, split_one, rest]
    rfl
  · rw [held, count, Nat.mul_add, ← List.drop_drop, Nat.mul_one, rest]
    rfl

end Block

/-! ## Absorbing as a function -/

namespace Content

/-- Absorbs input. -/
def absorb (c : Content) (data : Bytes) : Content :=
  let all := c.input ++ data
  let n := blocksAhead all.length
  { c with
    chain := (Block.split n all).foldl (Chain.absorb 64) c.chain
    input := all.drop (64 * n) }

/-- What the compression function is fed when input is absorbed. -/
def feeds (c : Content) (data : Bytes) : List Feed :=
  c.chain.feeds 64 (Block.ahead (c.input ++ data))

theorem absorb_eq (c : Content) (data : Bytes) :
    c.absorb data
      = { c with
          chain := (Block.ahead (c.input ++ data)).foldl (Chain.absorb 64) c.chain
          input := Block.held (c.input ++ data) } := rfl

/-- What fits is kept. -/
theorem absorb_of_le {c : Content} {data : Bytes} (h : (c.input ++ data).length ≤ 64) :
    c.absorb data = { c with input := c.input ++ data } := by
  rw [absorb_eq, Block.ahead_of_le h, Block.held_of_le h, List.foldl_nil]

theorem feeds_of_le {c : Content} {data : Bytes} (h : (c.input ++ data).length ≤ 64) :
    c.feeds data = [] := by
  rw [feeds, Block.ahead_of_le h, Chain.feeds]

/-- What does not fit tops off a first block, and only the rest of it is still to be absorbed. -/
theorem absorb_of_lt {c : Content} {data : Bytes} (fits : c.input.length ≤ 64)
    (h : 64 - c.input.length < data.length) :
    c.absorb data
      = absorb { c with chain := c.chain.absorb 64 (Block.ofBytes (c.input ++ data)), input := [] }
          (data.drop (64 - c.input.length)) := by
  obtain ⟨ahead, held⟩ := Block.topOff fits h
  rw [absorb_eq, ahead, held, List.foldl_cons]
  rfl

theorem feeds_of_lt {c : Content} {data : Bytes} (fits : c.input.length ≤ 64)
    (h : 64 - c.input.length < data.length) :
    c.feeds data
      = c.chain.feed 64 (Block.ofBytes (c.input ++ data)) ::
          feeds { c with chain := c.chain.absorb 64 (Block.ofBytes (c.input ++ data)), input := [] }
            (data.drop (64 - c.input.length)) := by
  rw [feeds, (Block.topOff fits h).1]
  rfl

/-- Absorbing one string and then another is absorbing both at once. -/
theorem absorb_append (c : Content) (xs ys : Bytes) :
    c.absorb (xs ++ ys) = (c.absorb xs).absorb ys := by
  simp only [absorb_eq, ← List.append_assoc c.input xs ys, Block.ahead_append (c.input ++ xs) ys,
    Block.held_append (c.input ++ xs) ys, List.foldl_append]

theorem feeds_append (c : Content) (xs ys : Bytes) :
    c.feeds (xs ++ ys) = c.feeds xs ++ (c.absorb xs).feeds ys := by
  simp only [feeds, absorb_eq, ← List.append_assoc c.input xs ys,
    Block.ahead_append (c.input ++ xs) ys, Chain.feeds_append]

theorem absorb_nil {c : Content} (h : c.input.length ≤ 64) : c.absorb [] = c := by
  rw [absorb_of_le (by rwa [List.append_nil]), List.append_nil]

theorem feeds_nil {c : Content} (h : c.input.length ≤ 64) : c.feeds [] = [] :=
  feeds_of_le (by rwa [List.append_nil])

/-- The chain after the last block. -/
def lastChain (c : Content) : Chain :=
  Chain.absorb c.input.length
    { c.chain with
      f := { lastBlock := wordMask
             lastNode := if c.lastNode then wordMask else c.chain.f.lastNode } }
    (Block.ofBytes c.input)

/-- What the compression function is fed for the last block. -/
def lastFeed (c : Content) : Feed :=
  { block := Block.ofBytes c.input
    t := c.chain.t.advance c.input.length
    f := { lastBlock := wordMask
           lastNode := if c.lastNode then wordMask else c.chain.f.lastNode } }

/-- The chain values are those that the compression function makes of the feeds. -/
theorem absorb_h (c : Content) (data : Bytes) :
    (c.absorb data).chain.h = (c.feeds data).foldl Feed.apply c.chain.h :=
  Chain.foldl_absorb_h _

theorem lastChain_h (c : Content) : c.lastChain.h = c.lastFeed.apply c.chain.h := rfl

/-- The outcome of finishing: the digest, or what is wrong with the request. -/
def finished (c : Content) (requested : Option Int) (room : Option Nat) : Except Fault Bytes :=
  if c.outlen = 0 then .error .notLive
  else
    match outputLength (requested.getD c.outlen) with
    | .error e => .error e
    | .ok n => if room.any (· < n) then .error (.outputRoom n) else .ok (c.lastChain.bytes.take n)

theorem finished_eq (c : Content) (requested : Option Int) (room : Option Nat) :
    c.finished requested room
      = (State.finalLength c.outlen requested room).map (c.lastChain.bytes.take ·) := by
  unfold finished State.finalLength
  split
  · rfl
  · cases outputLength (requested.getD c.outlen) with
    | error fault => rfl
    | ok n =>
      dsimp only
      split <;> rfl

theorem finished_of_ok {c : Content} (live : c.outlen ≠ 0) (requested : Option Int)
    (room : Option Nat) {n : Nat} (h : outputLength (requested.getD c.outlen) = .ok n)
    (enough : ∀ r ∈ room, n ≤ r) :
    c.finished requested room = .ok (c.lastChain.bytes.take n) := by
  have fits : ¬room.any (· < n) = true := by
    cases room with
    | none => simp
    | some r => simpa using enough r rfl
  rw [finished_eq, State.finalLength_of_ok live h fits]
  rfl

end Content

/-! ## Operations through the recording engine -/

namespace State

theorem length_input_content {s : State} (h : s.filled ≤ 64) :
    s.content.input.length = s.filled := Block.length_take_toList s.buffer h

/-- Input that fits is added to the content of the buffer. -/
theorem content_kept {s : State} {data : Bytes} (h : s.filled + data.length ≤ 64) :
    (s.kept data).content = { s.content with input := s.content.input ++ data } := by
  simp only [content, kept, Block.take_toList_write s.buffer h]

/-- Topping off the buffer makes it the first block of the whole input. -/
theorem toppedOff_eq_ofBytes {s : State} (fits : s.filled ≤ 64) {data : Bytes}
    (h : 64 - s.filled < data.length) :
    s.toppedOff data = Block.ofBytes (s.content.input ++ data) :=
  Block.write_take_eq_ofBytes s.buffer data fits (Nat.le_of_lt h)

/-- What comes after topping off compresses all blocks but the last one, and keeps that. -/
theorem content_compressAhead_keep {s : State} (empty : s.filled = 0) (data : Bytes)
    (fed : List Feed) :
    ∃ s', HashM.runOn (compressAhead Engine.recording data >>= keep) s fed
        = ((.ok (), s'), fed ++ s.content.feeds data) ∧
      s'.content = s.content.absorb data ∧ s'.filled ≤ 64 := by
  have input : s.content.input = [] := by
    rw [content, empty, List.take_zero]
  rw [HashM.runOn_bind]
  by_cases h : data.length ≤ 64
  · have room : s.filled + data.length ≤ 64 := by omega
    have all : (s.content.input ++ data).length ≤ 64 := by rwa [input, List.nil_append]
    rw [runOn_compressAhead_of_le h, Content.feeds_of_le all, List.append_nil]
    refine ⟨s.kept data, rfl, ?_, room⟩
    rw [content_kept room, Content.absorb_of_le all]
  · have room : s.filled + (Block.held data).length ≤ 64 := by
      rw [empty, Nat.zero_add]
      exact Block.length_held_le data
    rw [runOn_compressAhead (by omega), Engine.runOn_recording]
    refine ⟨State.kept { s with chain := s.chain.compress (aheadBatch data) } (Block.held data),
      ?_, ?_, room⟩
    · rw [Content.feeds, input]
      rfl
    · refine (content_kept (s := { s with chain := s.chain.compress _ }) room).trans ?_
      simp only [Content.absorb_eq, content, empty, List.take_zero, List.nil_append]
      rfl

/-- **Updating absorbs into the content**: the three phases together compress all blocks of the
    input but the last one, wherever the input in the buffer ends. -/
theorem content_update {s : State} (live : s.outlen ≠ 0) (fits : s.filled ≤ 64) (data : Bytes)
    (fed : List Feed) :
    ∃ s', (update Engine.recording data).runOn s fed
        = ((.ok (), s'), fed ++ s.content.feeds data) ∧
      s'.content = s.content.absorb data ∧ s'.filled ≤ 64 := by
  have filled := length_input_content fits
  by_cases h : data.length ≤ 64 - s.filled
  · -- all of it goes to the buffer
    have room : s.filled + data.length ≤ 64 := by omega
    have all : (s.content.input ++ data).length ≤ 64 := by
      rw [List.length_append]
      omega
    rw [update_of_le live h, Content.feeds_of_le all, List.append_nil]
    refine ⟨s.kept data, rfl, ?_, room⟩
    rw [content_kept room, Content.absorb_of_le all]
  · -- the buffer is topped off to the first block of the whole input
    have long : 64 - s.filled < data.length := by omega
    have first := toppedOff_eq_ofBytes fits long
    obtain ⟨s', run, content, fits'⟩ := content_compressAhead_keep
      (s := { s with
        chain := s.chain.absorb 64 (s.toppedOff data), buffer := s.toppedOff data, filled := 0 })
      rfl (data.drop (64 - s.filled)) (fed ++ [s.chain.feed 64 (s.toppedOff data)])
    rw [update_of_lt live long, Engine.runOn_recording, compress_bufferBatch, blocks_bufferBatch,
      Content.feeds_of_lt (c := s.content) (by omega) (by omega), filled, ← first]
    refine ⟨s', ?_, ?_, fits'⟩
    · rw [List.append_assoc] at run
      exact run
    · rw [content, Content.absorb_of_lt (c := s.content) (by omega) (by omega), filled, ← first]
      rfl

/-- Closing the last block pads the input in the buffer with zeros. -/
theorem buffer_closeLastBlock {s : State} (fits : s.filled ≤ 64) :
    s.closeLastBlock.buffer = Block.ofBytes s.content.input := by
  have full := Block.write_take_eq_ofBytes s.buffer (Bytes.zeros (64 - s.filled)) fits
    (by simp)
  rw [List.take_of_length_le (by simp), Block.ofBytes_append_zeros] at full
  exact full

/-- What is compressed to finish a state is a matter of its content. -/
theorem finish_recording {s : State} (fits : s.filled ≤ 64) (n : Nat) (fed : List Feed) :
    (finish Engine.recording n).runOn s fed
      = ((.ok (s.content.lastChain.bytes.take n), {}), fed ++ [s.content.lastFeed]) := by
  have last : s.closeLastBlock.chain.compress (bufferBatch s.closeLastBlock.buffer s.filled)
      = s.content.lastChain := by
    rw [compress_bufferBatch, buffer_closeLastBlock fits, Content.lastChain,
      length_input_content fits]
    rfl
  rw [runOn_finish, Engine.runOn_recording, last, blocks_bufferBatch, buffer_closeLastBlock fits,
    Content.lastFeed, length_input_content fits]
  rfl

/-! ## States that hold a content -/

/-- A state has the given content, and its buffer is not overfull. -/
structure Holds (s : State) (c : Content) : Prop where
  content : s.content = c
  fits : s.filled ≤ 64

theorem Holds.length_input {s : State} {c : Content} (h : s.Holds c) : c.input.length = s.filled := by
  rw [← h.content, length_input_content h.fits]

theorem Holds.outlen {s : State} {c : Content} (h : s.Holds c) : s.outlen = c.outlen := by
  rw [← h.content]
  rfl

/-- Input that fits in the buffer is absorbed, whatever the engine does. -/
theorem update_of_fits {σ : Type} {s : State} {c : Content} (holds : s.Holds c)
    (live : c.outlen ≠ 0) {data : Bytes} (h : c.input.length + data.length ≤ 64) (e : Engine σ)
    (m : σ) :
    (update e data).runOn s m = ((.ok (), s.kept data), m) ∧ (s.kept data).Holds (c.absorb data) := by
  have room : s.filled + data.length ≤ 64 := by
    rw [← holds.length_input]
    exact h
  have live' : s.outlen ≠ 0 := by
    rw [holds.outlen]
    exact live
  refine ⟨update_of_le live' (by omega) m, ?_, room⟩
  rw [content_kept room, holds.content, Content.absorb_of_le (by rwa [List.length_append])]

/-- What fits is absorbed into whatever the state holds. -/
theorem update_of_room {σ : Type} {s : State} (live : s.outlen ≠ 0) (fits : s.filled ≤ 64)
    {data : Bytes} (h : data.length ≤ 64 - s.filled) (e : Engine σ) (m : σ) :
    (update e data).runOn s m = ((.ok (), s.kept data), m) ∧
      (s.kept data).Holds (s.content.absorb data) := by
  have holds : s.Holds s.content := ⟨rfl, fits⟩
  have filled := holds.length_input
  exact update_of_fits holds live (by omega) e m

theorem Holds.content_but_chain {s : State} {c : Content} (h : s.Holds c) :
    s.content = { c with chain := s.chain } := by
  rw [← h.content]
  rfl

section Recording

variable {s : State} {c : Content} (holds : s.Holds c) (fed : List Feed)

include holds

theorem update_recording (live : c.outlen ≠ 0) (data : Bytes) :
    ∃ s', (update Engine.recording data).runOn s fed = ((.ok (), s'), fed ++ c.feeds data) ∧
      s'.Holds (c.absorb data) := by
  rw [← holds.outlen] at live
  obtain ⟨s', run, content, fits⟩ := content_update live holds.fits data fed
  rw [holds.content] at run content
  exact ⟨s', run, content, fits⟩

/-- One update after the other absorbs all strings put together. -/
theorem forM_update_recording (live : c.outlen ≠ 0) (chunks : List Bytes) :
    ∃ s', (chunks.forM (update Engine.recording)).runOn s fed
        = ((.ok (), s'), fed ++ c.feeds chunks.flatten) ∧
      s'.Holds (c.absorb chunks.flatten) := by
  induction chunks generalizing s c fed with
  | nil =>
    have short : c.input.length ≤ 64 := by
      rw [holds.length_input]
      exact holds.fits
    rw [List.flatten_nil, Content.feeds_nil short, Content.absorb_nil short, List.append_nil]
    exact ⟨s, rfl, holds⟩
  | cons chunk chunks ih =>
    obtain ⟨s₁, run₁, holds₁⟩ := update_recording holds fed live chunk
    obtain ⟨s₂, run₂, holds₂⟩ := ih holds₁ (fed ++ c.feeds chunk) live
    rw [List.flatten_cons, Content.feeds_append, Content.absorb_append, ← List.append_assoc]
    refine ⟨s₂, ?_, holds₂⟩
    change HashM.runOn (update Engine.recording chunk >>= fun _ =>
      chunks.forM (update Engine.recording)) s fed = _
    rw [HashM.runOn_bind, run₁]
    exact run₂

/-- Finishing wipes the state if it succeeds, and leaves it alone if not. -/
theorem finalWithin_recording (requested : Option Int) (room : Option Nat) :
    (finalWithin Engine.recording requested room).runOn s fed
      = ((c.finished requested room, if (c.finished requested room).isOk then {} else s),
         if (c.finished requested room).isOk then fed ++ [c.lastFeed] else fed) := by
  have fits := holds.fits
  rw [← holds.content]
  have outlen : s.content.outlen = s.outlen := rfl
  rw [finalWithin_eq, Content.finished_eq, outlen]
  cases finalLength s.outlen requested room with
  | error fault => rfl
  | ok n => exact finish_recording fits n fed

end Recording

/-! ## Operations through lawful engines -/

section Lawful

variable {σ : Type} {inv : σ → Prop} {e : Engine σ} {m : σ} {s : State} {c : Content}
  (lawful : e.Lawful inv) (hm : inv m) (holds : s.Holds c)

include lawful hm holds

theorem update_of_lawful (live : c.outlen ≠ 0) (data : Bytes) :
    ∃ s' m', (update e data).runOn s m = ((.ok (), s'), m') ∧ inv m' ∧
      s'.Holds (c.absorb data) := by
  obtain ⟨s', run, holds'⟩ := update_recording holds [] live data
  obtain ⟨m', run', hm'⟩ := (alike_update lawful.alike_recording data).transfer hm run
  exact ⟨s', m', run', hm', holds'⟩

theorem forM_update_of_lawful (live : c.outlen ≠ 0) (chunks : List Bytes) :
    ∃ s' m', (chunks.forM (update e)).runOn s m = ((.ok (), s'), m') ∧ inv m' ∧
      s'.Holds (c.absorb chunks.flatten) := by
  obtain ⟨s', run, holds'⟩ := forM_update_recording holds [] live chunks
  have alike := HashM.Alike.forM (alike_update lawful.alike_recording) chunks
  obtain ⟨m', run', hm'⟩ := alike.transfer hm run
  exact ⟨s', m', run', hm', holds'⟩

theorem finalWithin_of_lawful (requested : Option Int) (room : Option Nat) :
    ∃ m', (finalWithin e requested room).runOn s m
        = ((c.finished requested room,
            if (c.finished requested room).isOk then {} else s), m') ∧ inv m' :=
  (alike_finalWithin lawful.alike_recording requested room).transfer hm
    (finalWithin_recording holds [] requested room)

end Lawful

theorem update_of_eq {σ : Type} {e : Engine σ} {m : σ} {s : State} (dead : s.outlen = 0)
    (data : Bytes) : (update e data).runOn s m = ((.error .notLive, s), m) := by
  rw [update, HashM.runOn_bind, requireLive_of_eq dead]

theorem finalWithin_of_eq {σ : Type} {e : Engine σ} {m : σ} {s : State} (dead : s.outlen = 0)
    (requested : Option Int) (room : Option Nat) :
    (finalWithin e requested room).runOn s m = ((.error .notLive, s), m) :=
  finalWithin_of_refused (finalLength_of_eq dead requested room) m

end State

end Blake2s
