import Blake2s.Proofs.State.Content

set_option autoImplicit false

/-! # When an engine fails

The engine of a state fails if finding out how to compress fails. An operation that meets such a
failure stops there, so what it can have changed by then is little: an update has filled up the part
of the buffer that no input was in, and the content of the state is what it was
(`State.update_of_failsAt`). An update whose input fits in the buffer is not
concerned: it never asks the engine (`State.update_of_fits`). -/

namespace Blake2s

variable {σ : Type}

namespace State

variable {e : Engine σ} {m m' : σ} {fault : Fault} {s : State} {c : Content}

/-- Filling up the unused part of the buffer does not touch the input in it. -/
theorem content_topOff (fits : s.filled ≤ 64) {data : Bytes} (h : 64 - s.filled < data.length) :
    content { s with buffer := s.toppedOff data } = s.content := by
  have room : s.filled + (s.filling data).length ≤ 64 :=
    Nat.le_of_eq (filled_add_length_filling fits (Nat.le_of_lt h))
  simp only [content, toppedOff, Block.take_toList_write_of_le s.buffer room]

/-- Closing the last block does not touch the input either. -/
theorem content_closeLastBlock (fits : s.filled ≤ 64) :
    s.closeLastBlock.content = { s.content with chain := s.closeLastBlock.chain } := by
  have room : s.filled + s.padding.length ≤ 64 := Nat.le_of_eq (filled_add_length_padding fits)
  simp only [content, closeLastBlock, Block.take_toList_write_of_le s.buffer room]

/-- Input that does not fit in the buffer is not absorbed. -/
theorem update_of_failsAt (fails : e.FailsAt m fault m') (holds : s.Holds c) (live : c.outlen ≠ 0)
    {data : Bytes} (h : 64 < c.input.length + data.length) :
    ∃ s', (update e data).runOn s m = ((.error fault, s'), m') ∧ s'.Holds c := by
  have live' : s.outlen ≠ 0 := by
    rw [holds.outlen]
    exact live
  have fits := holds.fits
  have filled := holds.length_input
  have long : 64 - s.filled < data.length := by omega
  refine ⟨{ s with buffer := s.toppedOff data }, ?_, ?_, fits⟩
  · rw [update_of_lt live' long, fails]
  · rw [content_topOff fits long, holds.content]

theorem finalWithin_of_failsAt (fails : e.FailsAt m fault m') (live : s.outlen ≠ 0)
    {requested : Option Int} {n : Nat} (valid : outputLength (requested.getD s.outlen) = .ok n)
    {room : Option Nat} (enough : ¬room.any (· < n) = true) :
    (finalWithin e requested room).runOn s m = ((.error fault, s.closeLastBlock), m') := by
  rw [runOn_finalWithin live valid enough, runOn_finish, fails]

/-- Finishing asks the engine once, from the memory that it starts with. -/
theorem finalWithin_congr (same : ∀ chain batch,
      Action.runOn (e chain batch) m = Action.runOn (e chain batch) m')
    (live : s.outlen ≠ 0) {requested : Option Int} {n : Nat}
    (valid : outputLength (requested.getD s.outlen) = .ok n) {room : Option Nat}
    (enough : ¬room.any (· < n) = true) :
    (finalWithin e requested room).runOn s m = (finalWithin e requested room).runOn s m' := by
  rw [runOn_finalWithin live valid enough, runOn_finalWithin live valid enough, runOn_finish,
    runOn_finish, same]

end State

end Blake2s
