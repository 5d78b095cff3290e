import Blake2s.Compress.Lanes
import Blake2s.Engine

set_option autoImplicit false

/-! # Compression backends

A backend is offered each batch before the generic compression: it either compresses the whole batch
or declines it, and then the generic compression runs. What it does may depend on all the offers
that were made to it before, so a `Backend.Instance` keeps them. -/

namespace Blake2s

/-- A batch, and the chain it is to be compressed into. -/
structure Offer where
  chain : Chain
  batch : Batch
  deriving DecidableEq, Repr

structure Backend where
  name : String
  /-- The least batch size it was set up with, if it has one. -/
  minBlocks : Option Int
  /-- The answer to an offer, given the earlier offers, oldest first: the new chain, or nothing if
      the backend declines. -/
  respond : List Offer → Offer → Option Chain

namespace Backend

/-- The backend that declines everything. -/
def generic : Backend := { name := "generic", minBlocks := none, respond := fun _ _ => none }

/-- The backend that compresses lane-parallel. It declines batches of fewer than `minBlocks`. -/
def vectorized (minBlocks : Int) : Backend :=
  { name := "numpy-vectorized"
    minBlocks := some minBlocks
    respond := fun _ offer =>
      if offer.batch.count < minBlocks then none
      else some (Lanes.compress offer.chain offer.batch) }

/-- A backend in use, with all the offers made to it, oldest first. -/
structure Instance where
  backend : Backend
  offers : List Offer := []

namespace Instance

def answer (i : Instance) (offer : Offer) : Option Chain × Instance :=
  (i.backend.respond i.offers offer, { i with offers := i.offers ++ [offer] })

/-- Compresses by a backend, and generically where that declines. -/
def engine : Engine Instance := fun chain batch => do
  let (answer, i) := (← get).answer { chain, batch }
  set i
  return answer.getD (chain.compress batch)

end Instance

end Backend

end Blake2s
