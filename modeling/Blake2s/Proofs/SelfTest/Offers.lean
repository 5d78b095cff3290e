import Blake2s.Proofs.Engine.Offering
import Blake2s.Proofs.Output
import Blake2s.Proofs.SelfTest.Hashes

set_option autoImplicit false

/-! # What the self-test offers

The lengths of all inputs of the self-test are known, so it is known how large the batches are that an
engine is offered on the way, whatever it answers (`SelfTest.offers_of_passed`). No batch is of more
than fifteen blocks: that many come after the key block and the first block of 1024 bytes, and before
the block that is held back. -/

namespace Blake2s

/-! ## Sizes -/

namespace State

/-- How many blocks are in the batches of an update by so many bytes, if so much of the buffer is
    filled. -/
def sizes (filled length : Nat) : List Nat :=
  if length ≤ 64 - filled then []
  else
    let rest := length - (64 - filled)
    1 :: if rest ≤ 64 then [] else [(rest + 63) / 64 - 1]

/-- How much of the buffer is filled after an update. -/
def fill (filled length : Nat) : Nat := filled + length - 64 * blocksAhead (filled + length)

theorem counts_batches (s : State) (data : Bytes) :
    (s.batches data).map (·.count) = sizes s.filled data.length := by
  have shapes := congrArg (List.map Prod.fst) (shapes_batches s data)
  rw [List.map_map] at shapes
  refine Eq.trans shapes ?_
  unfold sizes
  split
  · rfl
  · dsimp only
    split <;> rfl

/-- A state for digests of the given length that can be used, with so much of its buffer filled. -/
structure Filled (outlen filled : Nat) (s : State) : Prop where
  usable : s.Usable
  outlen : s.outlen = outlen
  filled : s.filled = filled

end State

variable {σ α β : Type} (inv : σ → Prop) (offered : σ → List Batch → σ → Prop)

/-- From every memory with `inv` an action succeeds and keeps `inv`. On the way it offers batches of
    the given sizes, and what it returns has `post`. -/
def Action.Offers (sizes : List Nat) (post : α → Prop) (x : Action σ α) : Prop :=
  ∀ m, inv m → ∃ a m' batches, x.runOn m = (.ok a, m') ∧ inv m' ∧ offered m batches m' ∧
    batches.map (·.count) = sizes ∧ post a

/-- From every state with `pre` and every memory with `inv` an operation succeeds and keeps `inv`. On
    the way it offers batches of the given sizes, and what it returns and the state it leaves have
    `post`. -/
def HashM.Offers (pre : State → Prop) (sizes : List Nat) (post : α → State → Prop)
    (x : HashM σ α) : Prop :=
  ∀ s m, pre s → inv m → ∃ a s' m' batches, x.runOn s m = ((.ok a, s'), m') ∧ inv m' ∧
    offered m batches m' ∧ batches.map (·.count) = sizes ∧ post a s'

variable {inv : σ → Prop} {offered : σ → List Batch → σ → Prop} {e : Engine σ}
  (offering : e.Offering inv offered)

namespace HashM.Offers

variable {pre : State → Prop} {xs ys : List Nat}

include offering

theorem bind {mid : α → State → Prop} {post : β → State → Prop} {x : HashM σ α}
    {f : α → HashM σ β} (hx : Offers inv offered pre xs mid x)
    (hf : ∀ a, Offers inv offered (mid a) ys post (f a)) :
    Offers inv offered pre (xs ++ ys) post (x >>= f) := by
  intro s m hs hm
  obtain ⟨a, s₁, m₁, batches, run₁, hm₁, offered₁, rfl, hs₁⟩ := hx s m hs hm
  obtain ⟨b, s₂, m₂, more, run₂, hm₂, offered₂, rfl, hs₂⟩ := hf a s₁ m₁ hs₁ hm₁
  refine ⟨b, s₂, m₂, batches ++ more, ?_, hm₂, offering.append offered₁ offered₂,
    List.map_append, hs₂⟩
  rw [runOn_bind, run₁]
  exact run₂

omit offering

theorem ofEngine {post : α → Prop} {x : Action σ α} (h : x.Offers inv offered xs post) :
    Offers inv offered pre xs (fun a s => post a ∧ pre s) (HashM.ofEngine x) := by
  intro s m hs hm
  obtain ⟨a, m', batches, run, hm', offered, counts, ha⟩ := h m hm
  refine ⟨a, s, m', batches, ?_, hm', offered, counts, ha, hs⟩
  rw [runOn_ofEngine, run]

theorem evalFrom {post : α → Prop} {x : HashM σ α}
    (h : Offers inv offered (fun _ => True) xs (fun a _ => post a) x) (s : State) :
    Action.Offers inv offered xs post (HashM.evalFrom s x) := by
  intro m hm
  obtain ⟨a, s', m', batches, run, hm', offered, counts, ha⟩ := h s m trivial hm
  refine ⟨a, m', batches, ?_, hm', offered, counts, ha⟩
  rw [runOn_evalFrom, run]

end HashM.Offers

/-! ## Operations on a hash state -/

namespace State

variable {outlen filled : Nat}

include offering

/-- To start a state makes no offer. -/
theorem offers_start_bind {x : HashM σ Unit} {p : Parameters} {key : Bytes} {lastNode : Bool}
    (h : x.Started p key lastNode) (digestLength : p.digestLength.toNat = outlen)
    (short : key.length ≤ keyBytes) {f : Unit → HashM σ α} {xs : List Nat}
    {post : α → State → Prop}
    (hf : (f ()).Offers inv offered (Filled outlen (Standard.keyed key []).length) xs post) :
    (x >>= f).Offers inv offered (fun _ => True) xs post := by
  have block : (Standard.keyed key []).length ≤ 64 :=
    Standard.length_keyed_nil (Nat.le_trans short (by decide))
  have started : x.Offers inv offered (fun _ => True) []
      fun _ => Filled outlen (Standard.keyed key []).length := by
    intro s m _ hm
    obtain ⟨s', run, holds⟩ := h s m
    refine ⟨(), s', m, [], run, hm, offering.none m, rfl, holds.usable,
      holds.outlen.trans digestLength, ?_⟩
    rw [← holds.length_input, Content.input_started, Block.held_of_le block]
  exact .bind offering started fun _ => hf

theorem offers_update (data : Bytes) :
    (update e data).Offers inv offered (Filled outlen filled) (sizes filled data.length)
      fun _ => Filled outlen (fill filled data.length) := by
  rintro s m ⟨usable, rfl, rfl⟩ hm
  obtain ⟨s', m', run, hm', offered, outlen, fits, input⟩ :=
    update_offers offering hm usable.live usable.fits data
  have input := congrArg List.length input
  have before := length_input_content usable.fits
  have split := Batches.length_held (s.content.input ++ data)
  rw [length_input_content fits] at input
  rw [List.length_append, before, ← input] at split
  refine ⟨(), s', m', s.batches data, run, hm', offered, counts_batches s data,
    ⟨outlen ▸ usable.outlen_pos, outlen ▸ usable.outlen_le, fits⟩, outlen, ?_⟩
  rw [fill]
  omega

theorem offers_final :
    (final e none).Offers inv offered (Filled outlen filled) [1]
      fun digest _ => digest.length = outlen := by
  rintro s m ⟨usable, rfl, rfl⟩ hm
  have granted : finalLength s.outlen none none = .ok s.outlen := by
    rw [finalLength, if_neg usable.live, usable.outputLength]
    rfl
  obtain ⟨digest, m', run, hm', offered⟩ := finalWithin_offers offering hm granted
  -- the digest may be wrong, but its length is not
  have length := returns_finish (e := e) usable.outlen_le s m digest
  rw [← finalWithin_of_granted granted, run] at length
  exact ⟨digest, {}, m', _, run, hm', offered, rfl, length rfl⟩

end State

/-! ## The self-test -/

namespace SelfTest

open State (sizes fill Filled)

/-- The sizes of the batches of a hash of so many bytes, on a buffer with so much filled already. -/
def hashSizes (filled length : Nat) : List Nat := sizes filled length ++ [1]

/-- The sizes of the batches for one generated case, if so much of the buffer of the grand hash is
    filled. -/
def caseSizes (filled outlen inlen : Nat) : List Nat :=
  hashSizes 0 inlen ++ (sizes filled outlen ++
    (hashSizes 64 inlen ++ sizes (fill filled outlen) outlen))

/-- The sizes of the batches for the given generated cases. -/
def casesSizes (filled : Nat) : List (Nat × Nat) → List Nat
  | [] => []
  | (outlen, inlen) :: cases =>
    caseSizes filled outlen inlen ++ casesSizes (fill (fill filled outlen) outlen) cases

/-- The sizes of the batches of a hash that the self-test checks. -/
def answerSizes : KnownAnswer → List Nat
  | .empty => hashSizes 0 0
  | .abc => hashSizes 0 3
  | .grand => casesSizes 0 cases ++ [1]

/-- The sizes of all batches of a self-test that passes. -/
def batchSizes : List Nat := [KnownAnswer.empty, .abc, .grand].flatMap answerSizes

/-- **The largest batch of the self-test** is of fifteen blocks. -/
theorem largest_batchSizes : 15 ∈ batchSizes ∧ ∀ size ∈ batchSizes, size ≤ 15 := by
  decide +kernel

include offering

theorem offers_hash {outlen : Nat} (h : 1 ≤ outlen ∧ outlen ≤ outBytes) (data key : Bytes)
    (hkey : key.length ≤ keyBytes) :
    Action.Offers inv offered (hashSizes (Standard.keyed key []).length data.length)
      (·.length = outlen) (hash e outlen data key) := by
  have valid : 1 ≤ (outlen : Int) ∧ (outlen : Int) ≤ outBytes := by omega
  have rest : HashM.Offers inv offered (Filled outlen (Standard.keyed key []).length)
      (hashSizes (Standard.keyed key []).length data.length) (fun digest _ => digest.length = outlen)
      (do State.update e data; State.final e none) :=
    .bind offering (State.offers_update offering data) fun _ => State.offers_final offering
  refine HashM.Offers.evalFrom ?_ {}
  dsimp only
  by_cases unkeyed : key.isEmpty = true
  · rw [if_pos unkeyed]
    rw [List.isEmpty_iff] at unkeyed
    subst unkeyed
    obtain ⟨p, digestLength, started⟩ := State.started_init (e := e) valid
    exact State.offers_start_bind offering started digestLength hkey rest
  · rw [if_neg unkeyed]
    rw [List.isEmpty_iff, ← List.length_eq_zero_iff] at unkeyed
    have inRange : ¬(key.length < 1 ∨ keyBytes < key.length) := by omega
    obtain ⟨p, digestLength, started⟩ := State.started_initKeyed (e := e) valid inRange
    exact State.offers_start_bind offering started digestLength hkey rest

theorem offers_absorbCase {outlen : Nat} (h : 1 ≤ outlen ∧ outlen ≤ outBytes) (inlen filled : Nat) :
    HashM.Offers inv offered (Filled outBytes filled) (caseSizes filled outlen inlen)
      (fun _ => Filled outBytes (fill (fill filled outlen) outlen)) (absorbCase e outlen inlen) := by
  have length_data := length_sequence inlen inlen
  have length_key := length_sequence outlen outlen
  have short : (sequence outlen outlen).length ≤ keyBytes := by
    rw [length_key]
    exact h.2
  have block : (Standard.keyed (sequence outlen outlen) []).length = 64 := by
    have some : sequence outlen outlen ≠ [] := by
      rw [← List.length_pos_iff, length_key]
      exact h.1
    rw [Standard.keyed, if_neg some, List.append_nil, Bytes.length_padTo, length_key]
    exact Nat.max_eq_left (Nat.le_trans h.2 (by decide))
  have unkeyed := offers_hash offering h (sequence inlen inlen) [] (Nat.zero_le keyBytes)
  have keyed := offers_hash offering h (sequence inlen inlen) (sequence outlen outlen) short
  rw [length_data] at unkeyed keyed
  rw [block] at keyed
  have update (filled : Nat) (digest : Bytes) : HashM.Offers inv offered
      (fun s => digest.length = outlen ∧ Filled outBytes filled s) (sizes filled outlen)
      (fun _ => Filled outBytes (fill filled outlen)) (State.update e digest) := by
    rintro s m ⟨rfl, hs⟩ hm
    exact State.offers_update offering digest s m hs hm
  refine .bind offering (.ofEngine unkeyed) fun digest => ?_
  refine .bind offering (update filled digest) fun _ => ?_
  refine .bind offering (.ofEngine keyed) fun digest => ?_
  exact update _ digest

theorem offers_cases {cases : List (Nat × Nat)} (h : ∀ c ∈ cases, (1 ≤ c.1 ∧ c.1 ≤ 32) ∧ c.2 ≤ 1024)
    (filled : Nat) :
    HashM.Offers inv offered (Filled outBytes filled) (casesSizes filled cases)
      (fun _ s => ∃ filled, Filled outBytes filled s) (cases.forM fun c => absorbCase e c.1 c.2) := by
  induction cases generalizing filled with
  | nil => exact fun s m hs hm => ⟨_, s, m, [], rfl, hm, offering.none m, rfl, filled, hs⟩
  | cons c cases ih =>
    obtain ⟨first, rest⟩ := List.forall_mem_cons.mp h
    exact .bind offering (offers_absorbCase offering first.1 c.2 filled) fun _ => ih rest _

theorem offers_grandHash :
    Action.Offers inv offered (answerSizes .grand) (·.length = outBytes) (grandHash e) := by
  have valid : 1 ≤ (outBytes : Int) ∧ (outBytes : Int) ≤ outBytes := by decide
  obtain ⟨p, digestLength, started⟩ := State.started_init (e := e) valid
  have final : HashM.Offers inv offered (fun s => ∃ filled, Filled outBytes filled s) [1]
      (fun digest _ => digest.length = outBytes) (State.final e none) := by
    rintro s m ⟨filled, hs⟩ hm
    exact State.offers_final offering s m hs hm
  rw [grandHash, forM_cases]
  refine HashM.Offers.evalFrom ?_ {}
  refine State.offers_start_bind offering started digestLength (Nat.zero_le keyBytes) ?_
  exact .bind offering (offers_cases offering bounds_of_mem_cases _) fun _ => final

theorem offers_compute (answer : KnownAnswer) :
    Action.Offers inv offered (answerSizes answer) (·.length = outBytes) (compute e answer) := by
  have whole : 1 ≤ outBytes ∧ outBytes ≤ outBytes := by decide
  have unkeyed : ([] : Bytes).length ≤ keyBytes := Nat.zero_le keyBytes
  cases answer with
  | empty => exact offers_hash offering whole [] [] unkeyed
  | abc => exact offers_hash offering whole [0x61, 0x62, 0x63] [] unkeyed
  | grand => exact offers_grandHash offering

theorem offers_of_firstMismatch {answers : List KnownAnswer} {m m' : σ} (hm : inv m)
    (passed : Action.runOn (firstMismatch e answers) m = (.ok none, m')) :
    ∃ batches, offered m batches m' ∧ batches.map (·.count) = answers.flatMap answerSizes := by
  induction answers generalizing m with
  | nil =>
    cases passed
    exact ⟨[], offering.none _, rfl⟩
  | cons answer answers ih =>
    obtain ⟨digest, m₁, batches, run, hm₁, offered₁, counts, -⟩ :=
      offers_compute offering answer m hm
    rw [firstMismatch, Action.runOn_bind, run] at passed
    dsimp only at passed
    split at passed
    · obtain ⟨more, offered₂, counts'⟩ := ih hm₁ passed
      refine ⟨batches ++ more, offering.append offered₁ offered₂, ?_⟩
      rw [List.map_append, counts, counts', List.flatMap_cons]
    · obtain ⟨⟩ := passed

/-- **A self-test that passes offers batches of known sizes**, whatever the engine made of them. -/
theorem offers_of_passed {m m' : σ} (hm : inv m)
    (passed : Action.runOn (run e) m = (.ok none, m')) :
    ∃ batches, offered m batches m' ∧ batches.map (·.count) = batchSizes :=
  offers_of_firstMismatch offering hm passed

end SelfTest

end Blake2s
