import Blake2s.Proofs.State.Starting
import Blake2s.SelfTest

set_option autoImplicit false

/-! # Engines that do not fail

An engine is *total* if it always gives some chain, right or wrong. Through a total engine an update
of a live state succeeds, and so does a finish that passes its checks; nothing but the chain of the
state depends on what the engine gives (`State.update_of_total`). So the self-test always comes to a
verdict (`SelfTest.succeeds_run`), whatever backend it is run on. -/

namespace Blake2s

variable {σ α β : Type} {inv : σ → Prop}

/-- From every memory with `inv`, an engine gives a chain and keeps `inv`. -/
def Engine.Total (inv : σ → Prop) (e : Engine σ) : Prop :=
  ∀ chain batch m, inv m →
    ∃ chain' m', Action.runOn (e chain batch) m = (.ok chain', m') ∧ inv m'

/-- A backend answers or declines; it does not fail. -/
theorem Backend.Instance.engine_total : engine.Total fun _ => True := by
  intro chain batch i _
  exact ⟨_, _, runOn_engine chain batch i, trivial⟩

/-! ## Operations on a hash state -/

namespace State

variable {e : Engine σ} (total : e.Total inv) {m : σ} (hm : inv m)

include total hm

theorem compressAhead_keep_of_total {s : State} (empty : s.filled = 0) (data : Bytes) :
    ∃ s' m', HashM.runOn (compressAhead e data >>= keep) s m = ((.ok (), s'), m') ∧ inv m' ∧
      s'.filled ≤ 64 ∧
      s'.content = { s.content with chain := s'.chain, input := Block.held data } := by
  have input : s.content.input = [] := by
    rw [content, empty, List.take_zero]
  rw [HashM.runOn_bind]
  by_cases h : data.length ≤ 64
  · have room : s.filled + data.length ≤ 64 := by omega
    rw [runOn_compressAhead_of_le h, Block.held_of_le h]
    refine ⟨s.kept data, m, rfl, hm, room, ?_⟩
    rw [content_kept room, input, List.nil_append]
    rfl
  · have room : s.filled + (Block.held data).length ≤ 64 := by
      rw [empty, Nat.zero_add]
      exact Block.length_held_le data
    obtain ⟨chain, m', run, hm'⟩ := total s.chain (aheadBatch data) m hm
    rw [runOn_compressAhead (by omega), run]
    refine ⟨State.kept { s with chain } (Block.held data), m', rfl, hm', room, ?_⟩
    refine (content_kept (s := { s with chain }) room).trans ?_
    change { s.content with chain, input := s.content.input ++ Block.held data } = _
    rw [input, List.nil_append]
    rfl

theorem compressAhead_of_total (s : State) (data : Bytes) :
    ∃ rest s' m', (compressAhead e data).runOn s m = ((.ok rest, s'), m') := by
  by_cases h : data.length ≤ 64
  · exact ⟨data, s, m, runOn_compressAhead_of_le h s m⟩
  · obtain ⟨chain, m', run, -⟩ := total s.chain (aheadBatch data) m hm
    have asked := runOn_compressAhead (e := e) (Nat.lt_of_not_le h) s m
    rw [run] at asked
    exact ⟨_, _, m', asked⟩

/-- An update succeeds, and in all but the chain it absorbs the input. -/
theorem update_of_total {s : State} (live : s.outlen ≠ 0) (fits : s.filled ≤ 64) (data : Bytes) :
    ∃ s' m', (update e data).runOn s m = ((.ok (), s'), m') ∧ inv m' ∧ s'.filled ≤ 64 ∧
      s'.content = { s.content.absorb data with chain := s'.chain } := by
  by_cases h : data.length ≤ 64 - s.filled
  · obtain ⟨run, holds⟩ := update_of_room live fits h e m
    exact ⟨s.kept data, m, run, hm, holds.fits, holds.content_but_chain⟩
  · have long : 64 - s.filled < data.length := by omega
    obtain ⟨chain, m₁, run₁, hm₁⟩ := total s.chain (bufferBatch (s.toppedOff data) 64) m hm
    obtain ⟨s', m₂, run₂, hm₂, fits', content⟩ := compressAhead_keep_of_total total hm₁
      (s := { s with chain, buffer := s.toppedOff data, filled := 0 }) rfl
      (data.drop (64 - s.filled))
    refine ⟨s', m₂, ?_, hm₂, fits', ?_⟩
    · rw [update_of_lt live long, run₁]
      exact run₂
    · have filled := length_input_content fits
      have short : s.content.input.length ≤ 64 := by omega
      have more : 64 - s.content.input.length < data.length := by omega
      rw [content, Content.absorb_eq, (Block.topOff short more).2, filled]
      rfl

/-- Finishing, once it comes to that, returns some digest and wipes the state. -/
theorem finish_of_total (s : State) (n : Nat) :
    ∃ digest m', (finish e n).runOn s m = ((.ok digest, {}), m') ∧ inv m' := by
  obtain ⟨chain, m', run, hm'⟩ :=
    total s.closeLastBlock.chain (bufferBatch s.closeLastBlock.buffer s.filled) m hm
  refine ⟨chain.bytes.take n, m', ?_, hm'⟩
  rw [runOn_finish, run]

end State

/-! ## What always succeeds -/

/-- From every memory with `inv` an action succeeds, and it keeps `inv`. -/
def Action.Succeeds (inv : σ → Prop) (x : Action σ α) : Prop :=
  ∀ m, inv m → ∃ a m', x.runOn m = (.ok a, m') ∧ inv m'

namespace Action.Succeeds

theorem pure (a : α) : Succeeds inv (Pure.pure a) := fun m hm => ⟨a, m, rfl, hm⟩

theorem bind {x : Action σ α} {f : α → Action σ β} (hx : Succeeds inv x)
    (hf : ∀ a, Succeeds inv (f a)) : Succeeds inv (x >>= f) := by
  intro m hm
  obtain ⟨a, m₁, run₁, hm₁⟩ := hx m hm
  obtain ⟨b, m₂, run₂, hm₂⟩ := hf a m₁ hm₁
  refine ⟨b, m₂, ?_, hm₂⟩
  rw [runOn_bind, run₁]
  exact run₂

end Action.Succeeds

/-- From a state with `pre` and a memory with `inv` an operation succeeds; it leaves a state with
    `post`, and it keeps `inv`. -/
def HashM.Succeeds (inv : σ → Prop) (pre post : State → Prop) (x : HashM σ α) : Prop :=
  ∀ s m, pre s → inv m → ∃ a s' m', x.runOn s m = ((.ok a, s'), m') ∧ post s' ∧ inv m'

namespace HashM.Succeeds

variable {pre mid post : State → Prop}

theorem bind {x : HashM σ α} {f : α → HashM σ β} (hx : Succeeds inv pre mid x)
    (hf : ∀ a, Succeeds inv mid post (f a)) : Succeeds inv pre post (x >>= f) := by
  intro s m hs hm
  obtain ⟨a, s₁, m₁, run₁, hs₁, hm₁⟩ := hx s m hs hm
  obtain ⟨b, s₂, m₂, run₂, hs₂, hm₂⟩ := hf a s₁ m₁ hs₁ hm₁
  refine ⟨b, s₂, m₂, ?_, hs₂, hm₂⟩
  rw [runOn_bind, run₁]
  exact run₂

theorem forM {f : β → HashM σ PUnit} {l : List β} (h : ∀ b ∈ l, Succeeds inv pre pre (f b)) :
    Succeeds inv pre pre (l.forM f) := by
  induction l with
  | nil => exact fun s m hs hm => ⟨_, s, m, rfl, hs, hm⟩
  | cons b l ih =>
    exact .bind (h b List.mem_cons_self) fun _ => ih fun b' hb' => h b' (List.mem_cons_of_mem b hb')

theorem ofEngine {x : Action σ α} (h : x.Succeeds inv) :
    Succeeds inv pre pre (HashM.ofEngine x) := by
  intro s m hs hm
  obtain ⟨a, m', run, hm'⟩ := h m hm
  refine ⟨a, s, m', ?_, hs, hm'⟩
  rw [runOn_ofEngine, run]

theorem evalFrom {x : HashM σ α} (h : Succeeds inv (fun _ => True) (fun _ => True) x) (s : State) :
    Action.Succeeds inv (HashM.evalFrom s x) := by
  intro m hm
  obtain ⟨a, s', m', run, -, hm'⟩ := h s m trivial hm
  refine ⟨a, m', ?_, hm'⟩
  rw [runOn_evalFrom, run]

end HashM.Succeeds

/-! ## The self-test -/

/-- A state that can be used: it has an output length, and its buffer is not overfull. -/
structure State.Usable (s : State) : Prop where
  outlen_pos : 1 ≤ s.outlen
  outlen_le : s.outlen ≤ outBytes
  fits : s.filled ≤ blockBytes

namespace State

theorem Usable.live {s : State} (h : s.Usable) : s.outlen ≠ 0 := Nat.ne_of_gt h.outlen_pos

theorem Holds.usable {s : State} {p : Parameters} {key : Bytes} {lastNode : Bool}
    (h : s.Holds (.started p key lastNode)) : s.Usable where
  outlen_pos := by
    rw [h.outlen]
    exact p.digestLength_pos
  outlen_le := by
    rw [h.outlen]
    exact p.digestLength_le
  fits := h.fits

/-- The output length that a usable state was initialized with is a valid one. -/
theorem Usable.outputLength {s : State} (h : s.Usable) :
    outputLength ((none : Option Int).getD s.outlen) = .ok s.outlen :=
  outputLength_eq_ok ⟨Int.ofNat_le.mpr h.outlen_pos, Int.ofNat_le.mpr h.outlen_le⟩

variable {e : Engine σ}

theorem succeeds_of_started {x : HashM σ Unit} {p : Parameters} {key : Bytes} {lastNode : Bool}
    (h : x.Started p key lastNode) : x.Succeeds inv (fun _ => True) Usable := by
  intro s m _ hm
  obtain ⟨s', run, holds⟩ := h s m
  exact ⟨(), s', m, run, holds.usable, hm⟩

theorem succeeds_update (total : e.Total inv) (data : Bytes) :
    (update e data).Succeeds inv Usable Usable := by
  intro s m usable hm
  obtain ⟨s', m', run, hm', fits, content⟩ := update_of_total total hm usable.live usable.fits data
  have outlen : s'.outlen = s.outlen := congrArg Content.outlen content
  refine ⟨(), s', m', run, ⟨?_, ?_, fits⟩, hm'⟩
  · exact outlen ▸ usable.outlen_pos
  · exact outlen ▸ usable.outlen_le

theorem succeeds_final (total : e.Total inv) :
    (final e none).Succeeds inv Usable fun _ => True := by
  intro s m usable hm
  obtain ⟨digest, m', run, hm'⟩ := finish_of_total total hm s s.outlen
  have unlimited : ¬(none : Option Nat).any (· < s.outlen) = true := nofun
  refine ⟨digest, {}, m', ?_, trivial, hm'⟩
  rw [final, runOn_finalWithin usable.live usable.outputLength unlimited, run]

end State

namespace SelfTest

variable {e : Engine σ} (total : e.Total inv)

include total

theorem succeeds_hash {outlen : Nat} (h : 1 ≤ outlen ∧ outlen ≤ outBytes) (data : Bytes)
    {key : Bytes} (hkey : key.length ≤ keyBytes) :
    Action.Succeeds inv (hash e outlen data key) := by
  have valid : 1 ≤ (outlen : Int) ∧ (outlen : Int) ≤ outBytes := by omega
  have rest : HashM.Succeeds inv State.Usable (fun _ => True)
      (do State.update e data; State.final e none) :=
    .bind (State.succeeds_update total data) fun _ => State.succeeds_final total
  refine HashM.Succeeds.evalFrom ?_ {}
  dsimp only
  by_cases unkeyed : key.isEmpty = true
  · rw [if_pos unkeyed]
    obtain ⟨p, -, started⟩ := State.started_init (e := e) valid
    exact .bind (State.succeeds_of_started started) fun _ => rest
  · rw [if_neg unkeyed]
    rw [List.isEmpty_iff, ← List.length_eq_zero_iff] at unkeyed
    have inRange : ¬(key.length < 1 ∨ keyBytes < key.length) := by omega
    obtain ⟨p, -, started⟩ := State.started_initKeyed (e := e) valid inRange
    exact .bind (State.succeeds_of_started started) fun _ => rest

theorem succeeds_absorbCase {outlen : Nat} (h : 1 ≤ outlen ∧ outlen ≤ outBytes) (inlen : Nat) :
    HashM.Succeeds inv State.Usable State.Usable (absorbCase e outlen inlen) := by
  have unkeyed : ([] : Bytes).length ≤ keyBytes := Nat.zero_le keyBytes
  have short : (sequence outlen outlen).length ≤ keyBytes := by
    rw [length_sequence]
    exact h.2
  refine .bind (.ofEngine (succeeds_hash total h _ unkeyed)) fun digest => ?_
  refine .bind (State.succeeds_update total digest) fun _ => ?_
  refine .bind (.ofEngine (succeeds_hash total h _ short)) fun digest => ?_
  exact State.succeeds_update total digest

theorem succeeds_grandHash : Action.Succeeds inv (grandHash e) := by
  have lengths : ∀ outlen ∈ digestLengths, 1 ≤ outlen ∧ outlen ≤ outBytes := by decide
  have valid : 1 ≤ (outBytes : Int) ∧ (outBytes : Int) ≤ outBytes := by decide
  obtain ⟨p, -, started⟩ := State.started_init (e := e) valid
  refine HashM.Succeeds.evalFrom ?_ {}
  refine .bind (State.succeeds_of_started started) fun _ => ?_
  refine .bind (.forM fun outlen hout => .forM fun inlen _ => ?_) fun _ => ?_
  · exact succeeds_absorbCase total (lengths outlen hout) inlen
  · exact State.succeeds_final total

theorem succeeds_compute (answer : KnownAnswer) : Action.Succeeds inv (compute e answer) := by
  have whole : 1 ≤ outBytes ∧ outBytes ≤ outBytes := by decide
  have unkeyed : ([] : Bytes).length ≤ keyBytes := Nat.zero_le keyBytes
  cases answer with
  | empty => exact succeeds_hash total whole _ unkeyed
  | abc => exact succeeds_hash total whole _ unkeyed
  | grand => exact succeeds_grandHash total

theorem succeeds_firstMismatch (answers : List KnownAnswer) :
    Action.Succeeds inv (firstMismatch e answers) := by
  induction answers with
  | nil => exact .pure _
  | cons answer answers ih =>
    refine .bind (succeeds_compute total answer) fun digest => ?_
    split
    · exact ih
    · exact .pure _

/-- **The self-test comes to a verdict**, whatever the engine computes. -/
theorem succeeds_run : Action.Succeeds inv (run e) := succeeds_firstMismatch total _

end SelfTest

end Blake2s
