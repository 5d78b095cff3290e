import Blake2s.Proofs.Backend.Lawful

set_option autoImplicit false

/-! # What the compression function is fed

The compression function maps a chain value to the next one. Besides the chain value it reads a
block, the counter and the flags: a `Feed`. A chain and the blocks of a batch determine a list of
feeds, and compressing the blocks applies them to the chain value one after the other
(`Chain.foldl_absorb_h`). `Engine.recording` is the generic engine with a memory of all that it was
fed; a lawful backend that has received some offers is like it (`Backend.Instance.alike_recording`). -/

namespace Blake2s

/-- What the compression function reads besides the chain value. -/
structure Feed where
  block : Block
  t : Counter
  f : Flags
  deriving DecidableEq, Repr

/-- The compression function. -/
def Feed.apply (h : Vector UInt32 8) (feed : Feed) : Vector UInt32 8 :=
  Chain.feedForward h ((Chain.working { h, t := feed.t, f := feed.f }).mixAll feed.block.words)

/-! ## Feeds of a chain -/

namespace Chain

/-- What is fed to absorb a block. -/
def feed (inc : Int) (chain : Chain) (block : Block) : Feed :=
  { block, t := chain.t.advance inc, f := chain.f }

/-- What is fed to absorb blocks in order. -/
def feeds (inc : Int) : Chain → List Block → List Feed
  | _, [] => []
  | chain, block :: blocks => chain.feed inc block :: feeds inc (chain.absorb inc block) blocks

variable {inc : Int} {chain : Chain}

theorem feeds_append (xs ys : List Block) :
    chain.feeds inc (xs ++ ys) = chain.feeds inc xs ++ (xs.foldl (absorb inc) chain).feeds inc ys := by
  induction xs generalizing chain with
  | nil => rfl
  | cons x xs ih => simp only [List.cons_append, feeds, List.foldl_cons, ih]

/-- Compressing is the compression function, applied to one feed after the other. -/
theorem foldl_absorb_h (blocks : List Block) :
    (blocks.foldl (absorb inc) chain).h = (chain.feeds inc blocks).foldl Feed.apply chain.h := by
  induction blocks generalizing chain with
  | nil => rfl
  | cons block blocks ih =>
    rw [List.foldl_cons, ih]
    rfl

theorem map_block_feeds (blocks : List Block) :
    (chain.feeds inc blocks).map Feed.block = blocks := by
  induction blocks generalizing chain with
  | nil => rfl
  | cons block blocks ih => rw [feeds, List.map_cons, ih, feed]

/-- The flags do not change on the way. -/
theorem f_of_mem_feeds {blocks : List Block} {feed : Feed} (h : feed ∈ chain.feeds inc blocks) :
    feed.f = chain.f := by
  induction blocks generalizing chain with
  | nil => exact nomatch h
  | cons block blocks ih =>
    rcases List.mem_cons.mp h with rfl | h
    · rfl
    · have later : feed.f = (chain.absorb inc block).f := ih h
      rw [later, absorb_f]

end Chain

/-- What an offer asks to be fed. -/
def Offer.feeds (offer : Offer) : List Feed :=
  offer.chain.feeds offer.batch.inc offer.batch.blocks

/-! ## Recording -/

namespace Engine

/-- The generic compression, with a memory of all that it was fed. -/
def recording : Engine (List Feed) := fun chain batch => do
  modify (· ++ chain.feeds batch.inc batch.blocks)
  return chain.compress batch

theorem runOn_recording (chain : Chain) (batch : Batch) (fed : List Feed) :
    Action.runOn (recording chain batch) fed
      = (.ok (chain.compress batch), fed ++ chain.feeds batch.inc batch.blocks) := rfl

/-- A lawful engine against recording, with nothing said of what was recorded. -/
theorem Lawful.alike_recording {σ : Type} {inv : σ → Prop} {e : Engine σ} (lawful : e.Lawful inv) :
    Alike (fun m _ => inv m) e recording := by
  intro chain batch m fed hm
  rw [runOn_recording]
  exact lawful chain batch m hm

end Engine

namespace Backend.Instance

/-- All that the offers to a backend ask to be fed, oldest first. -/
def fed (i : Instance) : List Feed := i.offers.flatMap Offer.feeds

/-- A lawful backend, used with the generic compression where it declines, against recording. -/
theorem alike_recording :
    Engine.Alike (fun i fed => i.backend.Lawful ∧ i.fed = fed) engine Engine.recording := by
  rintro chain batch i _ ⟨lawful, rfl⟩
  rw [Engine.runOn_recording]
  refine ⟨outcome_of_lawful lawful chain batch, lawful, ?_⟩
  rw [runOn_engine, fed, fed, List.flatMap_append, List.flatMap_singleton]
  rfl

end Backend.Instance

end Blake2s
