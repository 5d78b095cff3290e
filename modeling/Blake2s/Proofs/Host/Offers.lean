import Blake2s.Proofs.Engine.Offering
import Blake2s.Proofs.Host.Sound
import Blake2s.Proofs.State.Increments

set_option autoImplicit false

/-! # What a backend is offered

A state that compresses through a backend in use offers it all its batches, one after the other, whether
the backend takes them or not (`Host.runOn_engine_of_uses`). So the offers of an update and of a finish
are known beforehand, and those of a whole run take the stream block by block (`Host.run_offers`). All
together is `Host.offers_exact`. -/

namespace Blake2s

namespace Host

variable {p q r : Host} {pin : Option BackendId} {id : BackendId} {batches more : List Batch}

/-! ## Offers to one backend -/

/-- The host in which more was offered to one backend in use. -/
def offer (p : Host) (id : BackendId) (offers : List Offer) : Host :=
  { p with backends := p.backends.modify id fun i => { i with offers := i.offers ++ offers } }

theorem offer_nil (p : Host) (id : BackendId) : p.offer id [] = p := by
  have same : (fun i : Backend.Instance => { i with offers := i.offers ++ [] }) = fun i => i := by
    funext i
    rw [List.append_nil]
  have kept : p.backends.modify id (fun i => i) = p.backends := by
    apply Array.ext_getElem?
    intro other
    rw [Array.getElem?_modify]
    split
    · rw [Option.map_id']
    · rfl
  rw [offer, same, kept]

theorem offer_offer (p : Host) (id : BackendId) (offers more : List Offer) :
    (p.offer id offers).offer id more = p.offer id (offers ++ more) := by
  unfold offer
  congr 1
  apply Array.ext_getElem?
  intro other
  simp only [Array.getElem?_modify]
  by_cases h : id = other
  · simp only [if_pos h, Option.map_map]
    congr 1
    funext i
    simp only [Function.comp_apply, List.append_assoc]
  · simp only [if_neg h]

/-- Is the one host the other, but that the backend has received offers of the given batches? -/
def Offered (p : Host) (id : BackendId) (batches : List Batch) (q : Host) : Prop :=
  ∃ offers : List Offer, q = p.offer id offers ∧ offers.map (·.batch) = batches

theorem Offered.refl (p : Host) (id : BackendId) : p.Offered id [] p :=
  ⟨[], (p.offer_nil id).symm, rfl⟩

theorem Offered.trans (h : p.Offered id batches q) (h' : q.Offered id more r) :
    p.Offered id (batches ++ more) r := by
  obtain ⟨offers, rfl, rfl⟩ := h
  obtain ⟨offers', rfl, rfl⟩ := h'
  exact ⟨offers ++ offers', p.offer_offer id offers offers', List.map_append⟩

/-- Do states with the given pin compress through this backend in use? -/
structure Uses (p : Host) (pin : Option BackendId) (id : BackendId) : Prop where
  chosen : p.Chosen pin (some id)
  present : id < p.backends.size

theorem Uses.offered (uses : p.Uses pin id) (h : p.Offered id batches q) : q.Uses pin id := by
  obtain ⟨offers, rfl, -⟩ := h
  refine ⟨?_, ?_⟩
  · cases pin with
    | some _ => exact uses.chosen
    | none => exact uses.chosen
  · rw [offer, Array.size_modify]
    exact uses.present

/-- **Each batch is offered**, and the answer, right or wrong, is some chain. -/
theorem runOn_engine_of_uses (uses : p.Uses pin id) (chain : Chain) (batch : Batch) :
    ∃ chain' q, Action.runOn (engine pin chain batch) p = (.ok chain', q) ∧
      p.Offered id [batch] q := by
  obtain ⟨i, found⟩ : ∃ i, p.backends[id]? = some i :=
    ⟨_, Array.getElem?_eq_getElem uses.present⟩
  have asked : Action.runOn (engine pin chain batch) p
      = Action.runOn (compressBy id chain batch) p := by
    rw [engine_eq, Action.runOn_bind, uses.chosen.runOn_resolve]
    rfl
  have after : { p with
      backends := p.backends.setIfInBounds id
        { i with offers := i.offers ++ [{ chain, batch }] } }
      = p.offer id [{ chain, batch }] := by
    unfold offer
    congr 1
    apply Array.ext_getElem?
    intro other
    rw [Array.getElem?_setIfInBounds, Array.getElem?_modify]
    by_cases h : id = other
    · subst h
      rw [if_pos rfl, if_pos uses.present, if_pos rfl, found, Option.map_some]
    · rw [if_neg h, if_neg h]
  rw [asked, runOn_compressBy_of_some found, Backend.Instance.runOn_engine, after]
  exact ⟨_, _, rfl, _, rfl, rfl⟩

/-- States that use a backend compress through an engine that keeps what it is offered. -/
theorem offering_engine (pin : Option BackendId) (id : BackendId) :
    (engine pin).Offering (fun p => p.Uses pin id) fun p batches q => p.Offered id batches q where
  none p := .refl p id
  append := Offered.trans
  ask chain batch p uses := by
    obtain ⟨chain', q, asked, offered⟩ := runOn_engine_of_uses uses chain batch
    exact ⟨chain', q, asked, uses.offered offered, offered⟩

/-! ## Whole runs -/

/-- Finding out by what to compress is all that tells the first compression from the later ones. -/
theorem alike_engine_of_resolve {choice : Option BackendId}
    (found : Action.runOn (resolve pin) p = (.ok choice, q)) :
    Engine.Alike (fun m n => m = n ∨ m = p ∧ n = q) (engine pin) (engine pin) := by
  rintro chain batch m n (rfl | ⟨rfl, rfl⟩)
  · exact ⟨rfl, .inl rfl⟩
  · rw [runOn_engine_of_resolve found]
    exact ⟨rfl, .inl rfl⟩

/-- **A run offers its whole stream**: what was in the buffer, and then the input. -/
theorem run_offers (found : Action.runOn (resolve pin) p = (.ok (some id), q))
    (present : id < q.backends.size) {s : State} (live : s.outlen ≠ 0) (fits : s.filled ≤ 64)
    {requested : Option Int} {room : Option Nat} {n : Nat}
    (granted : State.finalLength s.outlen requested room = .ok n) (chunks : List Bytes) :
    ∃ digest r batches,
      HashM.runOn
        (do
          chunks.forM (State.update (engine pin))
          State.finalWithin (engine pin) requested room) s p = ((.ok digest, {}), r) ∧
      q.Offered id batches r ∧ Batches.Covers batches (s.content.input ++ chunks.flatten) := by
  have uses : q.Uses pin id := ⟨chosen_of_resolve found, present⟩
  have short : s.content.input.length ≤ 64 := by
    rw [State.length_input_content fits]
    exact fits
  have offering := offering_engine pin id
  obtain ⟨s₁, q₁, batches, run₁, uses₁, offered₁, outlen, fits₁, input, ahead⟩ :=
    State.forM_update_offers offering uses live fits (Block.held_of_le short).symm chunks
  rw [← outlen] at granted
  obtain ⟨digest, r, run₂, -, offered₂⟩ := State.finalWithin_offers offering uses₁ granted
  have alike := HashM.Alike.forM (State.alike_update (alike_engine_of_resolve found)) chunks
  obtain ⟨p₁, run₁', found₁⟩ := alike.transfer (.inr ⟨rfl, rfl⟩) run₁
  have covers := (ahead [] (.nil short)).covers
  rw [List.nil_append, ← input, ← State.lastBatch_eq fits₁] at covers
  refine ⟨digest, r, _, ?_, offered₁.trans offered₂, covers⟩
  rw [HashM.runOn_bind, run₁']
  dsimp only
  rcases found₁ with rfl | ⟨rfl, rfl⟩
  · exact run₂
  · -- nothing has been compressed so far, so it is found out only now
    rw [State.finalWithin_of_granted granted, State.runOn_finish] at run₂ ⊢
    rw [runOn_engine_of_resolve found]
    exact run₂

/-- **What a backend is offered.** Take any host and any state in it. To initialize the state, keyed or
    not, makes no offer, and no run of the state fails for a partial increment. Let now the state
    compress through a backend, even if that has to be detected first. An update makes no offer if its
    input fits in the buffer; otherwise it offers one block that counts in full and then, just if more
    than a block of input is left, all full blocks of that but the last in one batch. A finish that is
    granted makes one offer, of one block that counts what is in the buffer. Over a whole run the
    batches offered cover the stream, which begins with the key block if there is a key. -/
theorem offers_exact (p : Host) (pin : Option BackendId) :
    (∀ (setup : Setup) (s : State), ((setup.apply (engine pin)).runOn s p).2 = p) ∧
    (∀ (setup : Setup) (s : State) (chunks : List Bytes) (requested : Option Int)
        (room : Option Nat),
      (HashM.runOn
        (do
          setup.apply (engine pin)
          chunks.forM (State.update (engine pin))
          State.finalWithin (engine pin) requested room) s p).1.1 ≠ .error .partialIncrement) ∧
    ∀ (id : BackendId) (q : Host), Action.runOn (resolve pin) p = (.ok (some id), q) →
      id < q.backends.size →
      (∀ (s : State) (data : Bytes), s.outlen ≠ 0 → s.filled ≤ 64 →
        if s.filled + data.length ≤ 64 then
          ∃ s', (State.update (engine pin) data).runOn s p = ((.ok (), s'), p)
        else
          ∃ s' r batches, (State.update (engine pin) data).runOn s p = ((.ok (), s'), r) ∧
            q.Offered id batches r ∧
            batches.map (fun batch => (batch.count, batch.inc))
              = let rest := data.length - (64 - s.filled)
                (1, 64) :: if rest ≤ 64 then [] else [((rest + 63) / 64 - 1, 64)]) ∧
      (∀ (s : State) (requested : Option Int) (room : Option Nat) (n : Nat),
        State.finalLength s.outlen requested room = .ok n →
          ∃ digest r batch,
            (State.finalWithin (engine pin) requested room).runOn s p = ((.ok digest, {}), r) ∧
            q.Offered id [batch] r ∧ batch.count = 1 ∧ batch.inc = s.filled) ∧
      ∀ (setup : Setup) (s s₁ : State), (setup.apply (engine pin)).runOn s p = ((.ok (), s₁), p) →
        ∀ (chunks : List Bytes) (requested : Option Int) (room : Option Nat) (n : Nat),
          State.finalLength s₁.outlen requested room = .ok n →
            ∃ digest r batches,
              HashM.runOn
                (do
                  setup.apply (engine pin)
                  chunks.forM (State.update (engine pin))
                  State.finalWithin (engine pin) requested room) s p = ((.ok digest, {}), r) ∧
              q.Offered id batches r ∧
              Batches.Covers batches (Standard.keyed setup.key chunks.flatten) := by
  refine ⟨fun setup s => setup.memory_apply _ s p, ?_, ?_⟩
  · intro setup s chunks requested room failed
    have whole : HashM.FaultsHave (· ≠ .partialIncrement)
        (do
          setup.apply (engine pin)
          chunks.forM (State.update (engine pin))
          State.finalWithin (engine pin) requested room) := by
      refine .bind (setup.whole_apply (whole_engine pin)) fun _ => ?_
      refine .bind (.forM (State.whole_update (whole_engine pin)) chunks) fun _ => ?_
      exact State.whole_finalWithin (whole_engine pin) requested room
    exact whole s p _ failed rfl
  intro id q found present
  have uses : q.Uses pin id := ⟨chosen_of_resolve found, present⟩
  refine ⟨?_, ?_, ?_⟩
  · intro s data live fits
    by_cases h : s.filled + data.length ≤ 64
    · have short : data.length ≤ 64 - s.filled := by omega
      rw [if_pos h]
      exact ⟨_, State.update_of_le live short p⟩
    · have long : ¬data.length ≤ 64 - s.filled := by omega
      obtain ⟨s', r, run, -, offered, -⟩ :=
        State.update_offers (offering_engine pin id) uses live fits data
      have shapes := State.shapes_batches s data
      rw [if_neg long] at shapes
      rw [if_neg h]
      refine ⟨s', r, _, ?_, offered, shapes⟩
      rw [State.update_of_lt live (Nat.lt_of_not_le long)] at run ⊢
      rw [runOn_engine_of_resolve found]
      exact run
  · intro s requested room n granted
    obtain ⟨digest, r, run, -, offered⟩ :=
      State.finalWithin_offers (offering_engine pin id) uses granted
    refine ⟨digest, r, _, ?_, offered, rfl, rfl⟩
    rw [State.finalWithin_of_granted granted, State.runOn_finish] at run ⊢
    rw [runOn_engine_of_resolve found]
    exact run
  · intro setup s s₁ run₁ chunks requested room n granted
    obtain ⟨live, fits, input⟩ := Setup.of_apply run₁
    obtain ⟨digest, r, batches, run, offered, covers⟩ :=
      run_offers found present live fits granted chunks
    refine ⟨digest, r, batches, ?_, offered, ?_⟩
    · rw [HashM.runOn_bind, run₁]
      exact run
    · have short : (Standard.keyed setup.key []).length ≤ 64 :=
        Standard.length_keyed_nil (Nat.le_trans (Setup.length_key_le run₁) (by decide))
      rwa [input, Block.held_of_le short, ← Standard.keyed_eq_append] at covers

/-- In a host in which nothing has happened yet: 200 bytes on a buffer with ten bytes in it, and a keyed
    run in three chunks. -/
theorem offers_exact_fresh :
    let p : Host := {}
    let q := (Action.runOn (resolve none) p).2
    let s : State := { filled := 10, outlen := 32 }
    let setup : Setup := .keyed 32 [7]
    let chunks : List Bytes := [Bytes.zeros 65, [], Bytes.zeros 100]
    Action.runOn (resolve none) p = (.ok (some 0), q) ∧ 0 < q.backends.size ∧
      s.outlen ≠ 0 ∧ s.filled ≤ 64 ∧
      (∃ s' r batches,
        (State.update (engine none) (Bytes.zeros 200)).runOn s p = ((.ok (), s'), r) ∧
        q.Offered 0 batches r ∧
        batches.map (fun batch => (batch.count, batch.inc)) = [(1, 64), (2, 64)]) ∧
      State.finalLength s.outlen (some 20) none = .ok 20 ∧
      (∃ digest r batch,
        (State.finalWithin (engine none) (some 20) none).runOn s p = ((.ok digest, {}), r) ∧
        q.Offered 0 [batch] r ∧ batch.count = 1 ∧ batch.inc = s.filled) ∧
      ∃ s₁, (setup.apply (engine none)).runOn s p = ((.ok (), s₁), p) ∧
        State.finalLength s₁.outlen none none = .ok 32 ∧
        ∃ digest r batches,
          HashM.runOn
            (do
              setup.apply (engine none)
              chunks.forM (State.update (engine none))
              State.finalWithin (engine none) none none) s p = ((.ok digest, {}), r) ∧
          q.Offered 0 batches r ∧
          Batches.Covers batches (Standard.keyed [7] chunks.flatten) := by
  intro p q s setup chunks
  have found : Action.runOn (resolve none) p = (.ok (some 0), q) := rfl
  have present : 0 < q.backends.size := Nat.one_pos
  have live : s.outlen ≠ 0 := nofun
  have fits : s.filled ≤ 64 := by decide
  have granted : State.finalLength s.outlen (some 20) none = .ok 20 := rfl
  have valid : 1 ≤ (32 : Int) ∧ (32 : Int) ≤ outBytes := by decide
  obtain ⟨params, digestLength, started⟩ := State.started_initKeyed (e := engine none) valid
    (show ¬(([7] : Bytes).length < 1 ∨ keyBytes < ([7] : Bytes).length) by decide)
  obtain ⟨s₁, run₁, holds⟩ := started s p
  have outlen : s₁.outlen = 32 := holds.outlen.trans digestLength
  have granted₁ : State.finalLength s₁.outlen none none = .ok 32 := by rw [outlen]; rfl
  obtain ⟨-, -, resolved⟩ := offers_exact p none
  obtain ⟨updates, finals, runs⟩ := resolved 0 q found present
  refine ⟨found, present, live, fits, ?_, granted, finals s (some 20) none 20 granted,
    s₁, run₁, granted₁, runs setup s s₁ run₁ chunks none none 32 granted₁⟩
  -- only the length of the input matters, so its bytes are made opaque
  generalize input : Bytes.zeros 200 = data
  have length : data.length = 200 := by rw [← input, Bytes.length_zeros]
  have update := updates s data live fits
  have filled : s.filled = 10 := rfl
  rw [length, filled, if_neg (by decide)] at update
  exact update

end Host

end Blake2s
