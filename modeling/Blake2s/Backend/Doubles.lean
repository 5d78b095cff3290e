import Blake2s.Backend.Basic

set_option autoImplicit false

/-! # Backends for testing

Two backends that stand in for a real one: `Backend.recording` is there for its offers, and
`Backend.corrupting` gives wrong results from a chosen offer on, as broken hardware would. -/

namespace Blake2s.Backend

/-- A backend that declines everything and is asked afterwards what it was offered. -/
def recording : Backend := { name := "spy", minBlocks := none, respond := fun _ _ => none }

/-- The chain with the lowest bit of its first word flipped. -/
def flipLowestBit (chain : Chain) : Chain :=
  { chain with h := chain.h.mapIdx fun i word => if i = 0 then word ^^^ 1 else word }

/-- A backend that never declines. Its results are right for the first `good` offers and wrong from
    then on. -/
def corrupting (minBlocks : Int) (good : Int) : Backend :=
  { name := "corrupting"
    minBlocks := some minBlocks
    respond := fun earlier offer =>
      let chain := offer.chain.compress offer.batch
      some (if good ≤ earlier.length then flipLowestBit chain else chain) }

end Blake2s.Backend
