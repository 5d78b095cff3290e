import Blake2s.Compress.Generic
import Blake2s.Fault

set_option autoImplicit false

/-! # Engines

A hash state does not compress by itself: it hands each batch to an `Engine`. An engine may remember
things from call to call, in a memory of type `σ`, and it may fail, because finding out how to
compress can fail. `Engine.generic` does neither. -/

namespace Blake2s

/-- A way of compressing: from a chain and a batch to the next chain, over a memory `σ`. -/
abbrev Engine (σ : Type) := Chain → Batch → ExceptT Fault (StateM σ) Chain

/-- The generic compression as an engine. -/
def Engine.generic {σ : Type} : Engine σ := fun chain batch => pure (chain.compress batch)

end Blake2s
