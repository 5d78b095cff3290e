import Blake2s.Proofs.Engine.Total
import Blake2s.Proofs.State.Batches

set_option autoImplicit false

/-! # What an engine is offered

Some engines keep what they are asked to compress: their memory tells which batches they were offered,
whatever they answered (`Engine.Offering`). A state offers such an engine all its batches, one after the
other. So the offers of an update and of a finish are known beforehand (`State.update_offers`,
`State.finalWithin_offers`), and those of many updates take the stream block by block
(`State.forM_update_offers`). -/

namespace Blake2s

variable {σ : Type} {inv : σ → Prop} {offered : σ → List Batch → σ → Prop} {m m' m'' : σ}

/-- From every memory with `inv` an engine gives some chain, right or wrong, and the memory it leaves
    tells, in comparison, that it was offered the batch. -/
structure Engine.Offering (e : Engine σ) (inv : σ → Prop)
    (offered : σ → List Batch → σ → Prop) : Prop where
  none : ∀ m, offered m [] m
  append : ∀ {m m' m'' batches more}, offered m batches m' → offered m' more m'' →
    offered m (batches ++ more) m''
  ask : ∀ chain batch m, inv m →
    ∃ chain' m', Action.runOn (e chain batch) m = (.ok chain', m') ∧ inv m' ∧ offered m [batch] m'

theorem Engine.Offering.total {e : Engine σ} (offering : e.Offering inv offered) : e.Total inv := by
  intro chain batch m hm
  obtain ⟨chain', m', run, hm', -⟩ := offering.ask chain batch m hm
  exact ⟨chain', m', run, hm'⟩

namespace State

variable {e : Engine σ} (offering : e.Offering inv offered) (hm : inv m) {s : State}

include offering hm

theorem compressAhead_keep_offers (s : State) (data : Bytes) :
    ∃ s' m', HashM.runOn (compressAhead e data >>= keep) s m = ((.ok (), s'), m') ∧ inv m' ∧
      offered m (if data.length ≤ 64 then [] else [aheadBatch data]) m' := by
  rw [HashM.runOn_bind]
  by_cases short : data.length ≤ 64
  · rw [runOn_compressAhead_of_le short, if_pos short]
    exact ⟨_, m, rfl, hm, offering.none m⟩
  · obtain ⟨chain, m', asked, hm', batch⟩ := offering.ask s.chain (aheadBatch data) m hm
    rw [runOn_compressAhead (Nat.lt_of_not_le short), asked, if_neg short]
    exact ⟨_, m', rfl, hm', batch⟩

/-- **An update offers the batches of its input**, and no others. -/
theorem update_offers (live : s.outlen ≠ 0) (fits : s.filled ≤ 64) (data : Bytes) :
    ∃ s' m', (update e data).runOn s m = ((.ok (), s'), m') ∧ inv m' ∧
      offered m (s.batches data) m' ∧ s'.outlen = s.outlen ∧ s'.filled ≤ 64 ∧
      s'.content.input = Block.held (s.content.input ++ data) := by
  obtain ⟨s', m', run, hm', fits', content⟩ := update_of_total offering.total hm live fits data
  have outlen : s'.outlen = s.outlen := congrArg Content.outlen content
  refine ⟨s', m', run, hm', ?_, outlen, fits', congrArg Content.input content⟩
  unfold State.batches
  by_cases short : data.length ≤ 64 - s.filled
  · rw [update_of_le live short] at run
    obtain ⟨-, rfl⟩ := Prod.mk.inj run
    rw [if_pos short]
    exact offering.none m
  · obtain ⟨chain, m₁, first, hm₁, offered₁⟩ :=
      offering.ask s.chain (bufferBatch (s.toppedOff data) 64) m hm
    obtain ⟨s₂, m₂, after, -, offered₂⟩ := compressAhead_keep_offers offering hm₁
      { s with chain, buffer := s.toppedOff data, filled := 0 } (data.drop (64 - s.filled))
    rw [update_of_lt live (Nat.lt_of_not_le short), first] at run
    obtain ⟨-, rfl⟩ := Prod.mk.inj (after.symm.trans run)
    rw [if_neg short]
    exact offering.append offered₁ offered₂

/-- One update after the other offers all blocks of the stream but the last one. -/
theorem forM_update_offers (live : s.outlen ≠ 0) (fits : s.filled ≤ 64) {stream : Bytes}
    (held : s.content.input = Block.held stream) (chunks : List Bytes) :
    ∃ s' m' batches, HashM.runOn (chunks.forM (update e)) s m = ((.ok (), s'), m') ∧ inv m' ∧
      offered m batches m' ∧ s'.outlen = s.outlen ∧ s'.filled ≤ 64 ∧
      s'.content.input = Block.held (stream ++ chunks.flatten) ∧
      ∀ earlier, Batches.Ahead earlier stream →
        Batches.Ahead (earlier ++ batches) (stream ++ chunks.flatten) := by
  induction chunks generalizing s m stream with
  | nil =>
    refine ⟨s, m, [], rfl, hm, offering.none m, rfl, fits, ?_, ?_⟩
    · rw [List.flatten_nil, List.append_nil, held]
    · intro earlier ahead
      rwa [List.flatten_nil, List.append_nil, List.append_nil]
  | cons chunk chunks ih =>
    obtain ⟨s₁, m₁, run₁, hm₁, offered₁, outlen₁, fits₁, input₁⟩ :=
      update_offers offering hm live fits chunk
    rw [held, ← Block.held_append] at input₁
    obtain ⟨s₂, m₂, batches₂, run₂, hm₂, offered₂, outlen₂, fits₂, input₂, ahead₂⟩ :=
      ih hm₁ (outlen₁ ▸ live) fits₁ input₁
    rw [List.flatten_cons, ← List.append_assoc]
    refine ⟨s₂, m₂, s.batches chunk ++ batches₂, ?_, hm₂, offering.append offered₁ offered₂,
      outlen₂.trans outlen₁, fits₂, input₂, ?_⟩
    · change HashM.runOn (update e chunk >>= fun _ => chunks.forM (update e)) s m = _
      rw [HashM.runOn_bind, run₁]
      exact run₂
    · intro earlier ahead
      rw [← List.append_assoc]
      refine ahead₂ _ (ahead.append ?_)
      rw [← held]
      exact ahead_batches fits chunk

/-- **A finish offers the last block**, once. -/
theorem finalWithin_offers {requested : Option Int} {room : Option Nat} {n : Nat}
    (granted : finalLength s.outlen requested room = .ok n) :
    ∃ digest m', (finalWithin e requested room).runOn s m = ((.ok digest, {}), m') ∧ inv m' ∧
      offered m [bufferBatch s.closeLastBlock.buffer s.filled] m' := by
  obtain ⟨chain, m', asked, hm', last⟩ :=
    offering.ask s.closeLastBlock.chain (bufferBatch s.closeLastBlock.buffer s.filled) m hm
  rw [finalWithin_of_granted granted, runOn_finish, asked]
  exact ⟨_, m', rfl, hm', last⟩

end State

end Blake2s
