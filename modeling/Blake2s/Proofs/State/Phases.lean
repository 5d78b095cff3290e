import Blake2s.Proofs.Block
import Blake2s.Proofs.Engine.Operations

set_option autoImplicit false

/-! # Operations on a state, phase by phase

What the operations of a hash state ask of its engine, and what they make of the answer, whatever
engine it is. An update asks at most twice: for the block that tops off the buffer
(`State.update_of_lt`), and for the full blocks after it (`State.runOn_compressAhead`). Finishing asks
once (`State.runOn_finish`). -/

namespace Blake2s

/-- How many blocks of `n` bytes are compressed while more may come: all but the last one, which may
    be a full one. -/
def blocksAhead (n : Nat) : Nat := (n - 1) / 64

theorem blocksAhead_of_le {n : Nat} (h : n ≤ 64) : blocksAhead n = 0 := by
  rw [blocksAhead]
  omega

namespace State

variable {σ : Type} {e : Engine σ}

theorem requireLive_of_ne {s : State} (h : s.outlen ≠ 0) (m : σ) :
    requireLive.runOn s m = ((.ok (), s), m) := by
  simp only [requireLive, HashM.runOn_bind, HashM.runOn_get, if_neg h, HashM.runOn_pure]

theorem requireLive_of_eq {s : State} (h : s.outlen = 0) (m : σ) :
    requireLive.runOn s m = ((.error .notLive, s), m) := by
  simp only [requireLive, HashM.runOn_bind, HashM.runOn_get, if_pos h, HashM.runOn_throw]

/-! ## Compressing -/

/-- Only the chain of the state changes, and only if the engine does not fail. -/
theorem runOn_compress (batch : Batch) (h : batch.count ≤ 1 ∨ batch.inc = 64) (s : State) (m : σ) :
    (compress e batch).runOn s m
      = match Action.runOn (e s.chain batch) m with
        | (.ok chain, m) => ((.ok (), { s with chain }), m)
        | (.error fault, m) => ((.error fault, s), m) := by
  have full : ¬(1 < batch.count ∧ batch.inc ≠ blockBytes) := by
    rintro ⟨count, inc⟩
    rcases h with h | h
    · omega
    · exact inc h
  unfold compress
  rw [if_neg full, HashM.runOn_bind, HashM.runOn_get]
  dsimp only
  rw [HashM.runOn_bind, HashM.runOn_ofEngine]
  rcases Action.runOn (e s.chain batch) m with ⟨_ | _, _⟩ <;> rfl

/-- The batch of the buffer alone. -/
def bufferBatch (buffer : Block) (n : Nat) : Batch := { bytes := buffer.toList, count := 1, inc := n }

theorem blocks_bufferBatch (buffer : Block) (n : Nat) : (bufferBatch buffer n).blocks = [buffer] := by
  rw [bufferBatch, Batch.blocks, Block.split_one, Block.ofBytes_toList]

theorem compress_bufferBatch (chain : Chain) (buffer : Block) (n : Nat) :
    chain.compress (bufferBatch buffer n) = chain.absorb n buffer := by
  rw [Chain.compress, blocks_bufferBatch]
  rfl

theorem runOn_compressBuffer (n : Nat) (s : State) (m : σ) :
    (compressBuffer e n).runOn s m
      = match Action.runOn (e s.chain (bufferBatch s.buffer n)) m with
        | (.ok chain, m) => ((.ok (), { s with chain }), m)
        | (.error fault, m) => ((.error fault, s), m) := by
  simp only [compressBuffer, HashM.runOn_bind, HashM.runOn_get]
  exact runOn_compress _ (.inl (Nat.le_refl 1)) s m

/-! ## Updating -/

/-- The state with some input added to its buffer. -/
def kept (s : State) (data : Bytes) : State :=
  { s with buffer := s.buffer.write s.filled data, filled := s.filled + data.length }

/-- The batch of the full blocks of some input without the last one. -/
def aheadBatch (data : Bytes) : Batch :=
  { bytes := data, count := blocksAhead data.length, inc := blockBytes }

/-- Nothing is topped off by input that fits. -/
theorem runOn_topOff_of_le {s : State} {data : Bytes} (h : data.length ≤ 64 - s.filled) (m : σ) :
    (topOff e data).runOn s m = ((.ok data, s), m) := by
  have fits : data.length ≤ blockBytes - s.filled := h
  simp only [topOff, HashM.runOn_bind, HashM.runOn_get, if_pos fits, HashM.runOn_pure]

/-- Other input tops off the buffer. If that cannot be compressed, nothing but the unused part of the
    buffer has changed. -/
theorem runOn_topOff_of_lt {s : State} {data : Bytes} (h : 64 - s.filled < data.length) (m : σ) :
    (topOff e data).runOn s m
      = match Action.runOn (e s.chain (bufferBatch (s.toppedOff data) 64)) m with
        | (.ok chain, m) =>
          ((.ok (data.drop (64 - s.filled)),
            { s with chain, buffer := s.toppedOff data, filled := 0 }), m)
        | (.error fault, m) => ((.error fault, { s with buffer := s.toppedOff data }), m) := by
  have long : ¬data.length ≤ blockBytes - s.filled := Nat.not_le.mpr h
  have asked : (compressBuffer e blockBytes).runOn
        { s with buffer := s.toppedOff data } m = _ :=
    runOn_compressBuffer _ _ m
  simp only [topOff, HashM.runOn_bind, HashM.runOn_get, if_neg long, HashM.runOn_set, asked]
  change _ = match Action.runOn (e s.chain (bufferBatch (s.toppedOff data) blockBytes)) m with
    | (.ok chain, m) => _
    | (.error fault, m) => _
  rcases Action.runOn (e s.chain _) m with ⟨_ | _, _⟩ <;> rfl

theorem runOn_compressAhead_of_le {data : Bytes} (h : data.length ≤ 64) (s : State) (m : σ) :
    (compressAhead e data).runOn s m = ((.ok data, s), m) := by
  have short : data.length ≤ blockBytes := h
  rw [compressAhead, if_pos short, HashM.runOn_pure]

theorem runOn_compressAhead {data : Bytes} (h : 64 < data.length) (s : State) (m : σ) :
    (compressAhead e data).runOn s m
      = match Action.runOn (e s.chain (aheadBatch data)) m with
        | (.ok chain, m) =>
          ((.ok (data.drop (64 * blocksAhead data.length)), { s with chain }), m)
        | (.error fault, m) => ((.error fault, s), m) := by
  have long : ¬data.length ≤ blockBytes := Nat.not_le.mpr h
  have count : (data.length + blockBytes - 1) / blockBytes - 1 = blocksAhead data.length := by
    simp only [blockBytes, blocksAhead]
    omega
  have batch := runOn_compress (e := e) (aheadBatch data) (.inr rfl) s m
  unfold aheadBatch at batch ⊢
  rw [compressAhead, if_neg long]
  simp only [HashM.runOn_bind, count, batch]
  rcases Action.runOn (e s.chain _) m with ⟨_ | _, _⟩ <;> rfl

/-- Input that fits goes to the buffer. The engine is not asked. -/
theorem update_of_le {s : State} (live : s.outlen ≠ 0) {data : Bytes}
    (h : data.length ≤ 64 - s.filled) (m : σ) :
    (update e data).runOn s m = ((.ok (), s.kept data), m) := by
  have noneAhead : data.length ≤ 64 := by omega
  simp only [update, HashM.runOn_bind, requireLive_of_ne live, runOn_topOff_of_le h,
    runOn_compressAhead_of_le noneAhead]
  rfl

/-- Other input tops off the buffer first, and only the rest of it goes on. -/
theorem update_of_lt {s : State} (live : s.outlen ≠ 0) {data : Bytes}
    (h : 64 - s.filled < data.length) (m : σ) :
    (update e data).runOn s m
      = match Action.runOn (e s.chain (bufferBatch (s.toppedOff data) 64)) m with
        | (.ok chain, m) =>
          HashM.runOn (compressAhead e (data.drop (64 - s.filled)) >>= keep)
            { s with chain, buffer := s.toppedOff data, filled := 0 } m
        | (.error fault, m) => ((.error fault, { s with buffer := s.toppedOff data }), m) := by
  rw [update, HashM.runOn_bind, requireLive_of_ne live]
  dsimp only
  rw [HashM.runOn_bind, runOn_topOff_of_lt h]
  rcases Action.runOn (e s.chain (bufferBatch (s.toppedOff data) 64)) m with ⟨_ | _, _⟩ <;> rfl

/-! ## Finishing -/

theorem runOn_finish (s : State) (n : Nat) (m : σ) :
    (finish e n).runOn s m
      = match Action.runOn (e s.closeLastBlock.chain
            (bufferBatch s.closeLastBlock.buffer s.filled)) m with
        | (.ok chain, m) => ((.ok (chain.bytes.take n), {}), m)
        | (.error fault, m) => ((.error fault, s.closeLastBlock), m) := by
  have filled : s.closeLastBlock.filled = s.filled := rfl
  simp only [finish, HashM.runOn_bind, HashM.runOn_modify, HashM.runOn_get, filled,
    runOn_compressBuffer, wipe_eq, HashM.runOn_set]
  rcases Action.runOn (e s.closeLastBlock.chain _) m with ⟨_ | _, _⟩ <;> rfl

/-- The length of the digest that a request to finish a state comes to, or what is wrong with the
    request. -/
def finalLength (outlen : Nat) (requested : Option Int) (room : Option Nat) : Except Fault Nat :=
  if outlen = 0 then .error .notLive
  else
    match outputLength (requested.getD outlen) with
    | .error fault => .error fault
    | .ok n => if room.any (· < n) then .error (.outputRoom n) else .ok n

/-- Nothing is changed and the engine is not asked unless the request is in order. -/
theorem finalWithin_eq (requested : Option Int) (room : Option Nat) (s : State) (m : σ) :
    (finalWithin e requested room).runOn s m
      = match finalLength s.outlen requested room with
        | .ok n => (finish e n).runOn s m
        | .error fault => ((.error fault, s), m) := by
  unfold finalWithin finalLength
  rw [HashM.runOn_bind]
  by_cases live : s.outlen = 0
  · rw [requireLive_of_eq live, if_pos live]
  · rw [requireLive_of_ne live, if_neg live]
    simp only [HashM.runOn_bind, HashM.runOn_get, HashM.runOn_lift]
    cases outputLength (requested.getD s.outlen) with
    | error fault => rfl
    | ok n =>
      by_cases small : room.any (· < n) = true
      · simp only [if_pos small, HashM.runOn_bind, HashM.runOn_throw]
      · simp only [if_neg small]

theorem finalWithin_of_granted {requested : Option Int} {room : Option Nat} {s : State} {n : Nat}
    (granted : finalLength s.outlen requested room = .ok n) (m : σ) :
    (finalWithin e requested room).runOn s m = (finish e n).runOn s m := by
  rw [finalWithin_eq, granted]

theorem finalWithin_of_refused {requested : Option Int} {room : Option Nat} {s : State}
    {fault : Fault} (refused : finalLength s.outlen requested room = .error fault) (m : σ) :
    (finalWithin e requested room).runOn s m = ((.error fault, s), m) := by
  rw [finalWithin_eq, refused]

theorem finalLength_of_ok {outlen : Nat} (live : outlen ≠ 0) {requested : Option Int} {n : Nat}
    (valid : outputLength (requested.getD outlen) = .ok n) {room : Option Nat}
    (enough : ¬room.any (· < n) = true) : finalLength outlen requested room = .ok n := by
  simp only [finalLength, if_neg live, valid, if_neg enough]

/-- The state and the request decide whether it comes to finishing. -/
theorem runOn_finalWithin {s : State} (live : s.outlen ≠ 0) {requested : Option Int} {n : Nat}
    (valid : outputLength (requested.getD s.outlen) = .ok n) {room : Option Nat}
    (enough : ¬room.any (· < n) = true) (m : σ) :
    (finalWithin e requested room).runOn s m = (finish e n).runOn s m :=
  finalWithin_of_granted (finalLength_of_ok live valid enough) m

theorem finalLength_of_eq {outlen : Nat} (dead : outlen = 0) (requested : Option Int)
    (room : Option Nat) : finalLength outlen requested room = .error .notLive := if_pos dead

/-- What can be wrong with a request to finish a live state is the length, or the room for it. -/
theorem eq_of_finalLength_error {outlen : Nat} (live : outlen ≠ 0) {requested : Option Int}
    {room : Option Nat} {fault : Fault}
    (refused : finalLength outlen requested room = .error fault) :
    fault = .outputLength ∨ ∃ n, fault = .outputRoom n := by
  simp only [finalLength, if_neg live] at refused
  cases length : outputLength (requested.getD outlen) with
  | error fault' =>
    rw [length] at refused
    cases refused
    unfold outputLength at length
    split at length
    · exact nomatch length
    · exact .inl (Except.error.inj length).symm
  | ok n =>
    rw [length] at refused
    dsimp only at refused
    split at refused
    · exact .inr ⟨n, (Except.error.inj refused).symm⟩
    · exact nomatch refused

end State

end Blake2s
