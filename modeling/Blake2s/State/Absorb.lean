import Blake2s.State.Basic

set_option autoImplicit false

/-! # Absorbing input

`State.update` takes in bytes in three phases. The buffer is topped off and compressed if there is
more input than it has room for; full blocks are compressed right from the input, except for the
last one; what is left goes to the buffer. So after an update that had any input the buffer is not
empty. -/

namespace Blake2s.State

variable {σ : Type}

/-- The input that fills up the buffer. -/
def filling (s : State) (data : Bytes) : Bytes := data.take (blockBytes - s.filled)

theorem filled_add_length_filling {s : State} (fits : s.filled ≤ blockBytes) {data : Bytes}
    (enough : blockBytes - s.filled ≤ data.length) :
    s.filled + (s.filling data).length = blockBytes := by
  rw [filling, List.length_take, Nat.min_eq_left enough]
  exact Nat.add_sub_cancel' fits

/-- The buffer filled up from some input. -/
def toppedOff (s : State) (data : Bytes) : Block := s.buffer.write s.filled (s.filling data)

/-- Fills up the buffer and compresses it, provided that some input is left over by that. Returns
    the input that is still to be absorbed. -/
def topOff (engine : Engine σ) (data : Bytes) : HashM σ Bytes := do
  let s ← get
  let room := blockBytes - s.filled
  if data.length ≤ room then return data
  set { s with buffer := s.toppedOff data }
  compressBuffer engine blockBytes
  modify fun s => { s with filled := 0 }
  return data.drop room

/-- Compresses the full blocks of the input without the last one, which may itself be full. Returns
    the input that is still to be absorbed. -/
def compressAhead (engine : Engine σ) (data : Bytes) : HashM σ Bytes := do
  if data.length ≤ blockBytes then return data
  let blocks := (data.length + blockBytes - 1) / blockBytes
  compress engine { bytes := data, count := blocks - 1, inc := blockBytes }
  return data.drop (blockBytes * (blocks - 1))

def keep (data : Bytes) : HashM σ Unit :=
  modify fun s =>
    { s with buffer := s.buffer.write s.filled data, filled := s.filled + data.length }

def update (engine : Engine σ) (data : Bytes) : HashM σ Unit := do
  requireLive
  let data ← topOff engine data
  let data ← compressAhead engine data
  keep data

end Blake2s.State
