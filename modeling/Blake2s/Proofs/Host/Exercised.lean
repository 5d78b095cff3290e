import Blake2s.Proofs.Host.Verdict
import Blake2s.Proofs.SelfTest.Agreeing
import Blake2s.Proofs.SelfTest.Answers
import Blake2s.Proofs.SelfTest.Offers

set_option autoImplicit false

/-! # What a self-test tells about a backend

A backend that is selected after a self-test has been offered the batches of the test. Those that it
declined were compressed generically, so the test tells nothing about a backend that declined all of
them. Whether it did is a matter of its least batch size alone, since no batch of the self-test is of
more than fifteen blocks: a backend set up with a larger least size passes without having compressed
anything (`Backend.TakesFrom.passes`), and it is selected (`Host.exercised_of_detect`). -/

namespace Blake2s

namespace Backend

/-- Does a backend take just the batches of at least so many blocks? What it makes of them is left
    open. -/
def TakesFrom (backend : Backend) (minBlocks : Int) : Prop :=
  ∀ earlier offer, backend.respond earlier offer = none ↔ (offer.batch.count : Int) < minBlocks

theorem vectorized_takesFrom (minBlocks : Int) : (vectorized minBlocks).TakesFrom minBlocks := by
  intro earlier offer
  rw [respond_vectorized]
  split
  next few => exact iff_of_true rfl few
  next enough => exact iff_of_false nofun enough

namespace Instance

/-! ## Offers -/

/-- Is the one backend the other, but that it has received offers of the given batches? -/
def Offered (i : Instance) (batches : List Batch) (j : Instance) : Prop :=
  ∃ offers : List Offer, j = { i with offers := i.offers ++ offers } ∧
    offers.map (·.batch) = batches

/-- A backend keeps what it is offered. -/
theorem offering_engine : engine.Offering (fun _ => True) Offered where
  none i := ⟨[], by rw [List.append_nil], rfl⟩
  append := by
    rintro i _ _ _ _ ⟨offers, rfl, rfl⟩ ⟨more, rfl, rfl⟩
    exact ⟨offers ++ more, by rw [List.append_assoc], List.map_append⟩
  ask chain batch i _ := ⟨_, _, runOn_engine chain batch i, trivial, [{ chain, batch }], rfl, rfl⟩

/-- Has a backend taken one of the offers that were made to it? -/
def Exercised (i : Instance) : Prop :=
  ∃ earlier offer later, i.offers = earlier ++ offer :: later ∧
    (i.backend.respond earlier offer).isSome = true

theorem exercised_iff {i : Instance} {minBlocks : Int} (takes : i.backend.TakesFrom minBlocks) :
    i.Exercised ↔ ∃ offer ∈ i.offers, minBlocks ≤ offer.batch.count := by
  have taken (earlier : List Offer) (offer : Offer) :
      (i.backend.respond earlier offer).isSome = true ↔ minBlocks ≤ offer.batch.count := by
    rw [Option.isSome_iff_ne_none, ne_eq, takes, Int.not_lt]
  simp only [Exercised, taken, List.mem_iff_append]
  constructor
  · rintro ⟨earlier, offer, later, split, enough⟩
    exact ⟨offer, ⟨earlier, later, split⟩, enough⟩
  · rintro ⟨offer, ⟨earlier, later, split⟩, enough⟩
    exact ⟨earlier, offer, later, split, enough⟩

end Instance

/-! ## Backends that pass -/

theorem Lawful.passes {backend : Backend} (lawful : backend.Lawful) : backend.Passes :=
  SelfTest.run_of_lawful Instance.engine_lawful (m := { backend }) lawful

/-- Compresses by a backend, and generically where that declines. The memory is that of the offers. -/
def engine (backend : Backend) : Engine (List Offer) := fun chain batch => do
  let offer : Offer := { chain, batch }
  let earlier ← get
  set (earlier ++ [offer])
  return (backend.respond earlier offer).getD (chain.compress batch)

theorem alike_engine (backend : Backend) :
    Engine.Alike (fun i earlier => i.backend = backend ∧ i.offers = earlier) Instance.engine
      backend.engine := by
  rintro chain batch i _ ⟨rfl, rfl⟩
  exact ⟨rfl, rfl, rfl⟩

theorem generic_engine_lawful : (engine generic).Lawful fun _ => True :=
  fun _ _ _ _ => ⟨rfl, trivial⟩

/-- **A backend that takes large batches only passes**, whatever it makes of them. -/
theorem TakesFrom.passes {backend : Backend} {minBlocks : Int} (takes : backend.TakesFrom minBlocks)
    (large : 15 < minBlocks) : backend.Passes := by
  have agree : backend.engine.Agree (engine generic) := by
    intro chain batch small
    have declined (earlier : List Offer) : backend.respond earlier { chain, batch } = none :=
      (takes earlier { chain, batch }).mpr (by dsimp only; omega)
    simp only [engine, declined]
    rfl
  -- so the self-test goes as with an engine that compresses everything generically
  have alike := SelfTest.alike_run (alike_engine backend) { backend } [] ⟨rfl, rfl⟩
  rw [Passes, alike.1, SelfTest.run_of_agree agree]
  exact SelfTest.run_of_lawful generic_engine_lawful trivial

/-- What a backend is left as by the self-test, if it passes. -/
structure LeftByTest (backend : Backend) (i : Instance) : Prop where
  passed : Action.runOn (SelfTest.run Instance.engine) { backend } = (.ok none, i)
  backend_eq : i.backend = backend
  /-- The largest batch that the backend was offered. -/
  largest : (∃ offer ∈ i.offers, offer.batch.count = 15) ∧ ∀ offer ∈ i.offers, offer.batch.count ≤ 15

theorem leftByTest {backend : Backend} {i : Instance}
    (passed : Action.runOn (SelfTest.run Instance.engine) { backend } = (.ok none, i)) :
    backend.LeftByTest i := by
  obtain ⟨batches, ⟨offers, rfl, rfl⟩, counts⟩ :=
    SelfTest.offers_of_passed Instance.offering_engine trivial passed
  obtain ⟨reached, bounded⟩ := SelfTest.largest_batchSizes
  rw [List.map_map] at counts
  rw [← counts] at reached bounded
  refine ⟨passed, rfl, ?_, fun offer h => bounded _ (List.mem_map_of_mem h)⟩
  obtain ⟨offer, h, count⟩ := List.mem_map.mp reached
  exact ⟨offer, h, count⟩

theorem leftByTest_of_tested {backend : Backend} {i : Instance}
    (found : (Instance.tested { backend }).1 = .ok i) : backend.LeftByTest i := by
  rw [Instance.tested] at found
  rcases run : Action.runOn (SelfTest.run Instance.engine) { backend } with ⟨fault | _ | answer, j⟩
  · rw [run] at found
    cases found
  · rw [run] at found
    obtain rfl := Except.ok.inj found
    exact leftByTest run
  · rw [run] at found
    cases found

theorem LeftByTest.exercised_iff {backend : Backend} {i : Instance} (left : backend.LeftByTest i)
    {minBlocks : Int} (takes : backend.TakesFrom minBlocks) : i.Exercised ↔ minBlocks ≤ 15 := by
  obtain ⟨⟨offer, here, count⟩, bounded⟩ := left.largest
  rw [Instance.exercised_iff (left.backend_eq ▸ takes)]
  constructor
  · rintro ⟨offer, here, enough⟩
    have := bounded offer here
    omega
  · intro few
    exact ⟨offer, here, by omega⟩

end Backend

/-! ## Detection -/

namespace Host

variable {p : Host} {config : Option Config} {c : Config}

theorem eq_of_askedFor {candidate : Candidate} {backend : Backend}
    (asked : askedFor candidate c = some backend) : backend = candidate.build c.minBlocks := by
  obtain ⟨-, same⟩ := Option.ite_none_right_eq_some.mp asked
  exact (Option.some.inj same).symm

theorem tested_of_judged {candidate : Candidate} {i : Backend.Instance}
    (found : (judged candidate c).1 = .ok (some i)) (on : c.selfTest = true) :
    (Backend.Instance.tested { backend := candidate.build c.minBlocks }).1 = .ok i := by
  by_cases few : c.minBlocks < 1
  · rw [judged, if_pos few] at found
    exact nomatch found
  · rw [judged, if_neg few, Finding.bind_eq_ok_iff, proposal_eq_ok] at found
    obtain ⟨_, ⟨⟩, found⟩ := found
    rw [if_pos on] at found
    obtain ⟨-, -, found⟩ := Finding.bind_eq_ok_iff.mp found
    cases asked : askedFor candidate c with
    | none =>
      rw [asked] at found
      exact nomatch found
    | some backend =>
      rw [asked] at found
      obtain ⟨_, passed, ⟨⟩⟩ := Finding.bind_eq_ok_iff.mp found
      obtain rfl := eq_of_askedFor asked
      exact passed

/-- A backend that is detected with the self-test on is in use as the test leaves it. -/
theorem leftByTest_of_detect (read : configured p.environment config = .ok c)
    (on : c.selfTest = true) {id : BackendId}
    (returned : (Action.runOn (detect config) p).1 = .ok (some id)) :
    ∃ i, (Action.runOn (detect config) p).2.backends[id]? = some i ∧
      (p.candidate.build c.minBlocks).LeftByTest i := by
  rw [runOn_detect_verdict] at returned ⊢
  rcases found : verdict p.environment p.candidate config with ⟨fault | choice, events⟩
  · rw [found] at returned
    exact nomatch returned
  rw [found] at returned
  obtain ⟨i, rfl, rfl⟩ := Option.map_eq_some_iff.mp (Except.ok.inj returned)
  obtain ⟨c', read', judged⟩ := Finding.bind_eq_ok_iff.mp (congrArg Prod.fst found)
  obtain rfl := Except.ok.inj (read.symm.trans read')
  exact ⟨i, Array.getElem?_push_size, Backend.leftByTest_of_tested (tested_of_judged judged on)⟩

/-- A backend that is asked for and passes is selected. -/
theorem detect_of_passes (read : configured p.environment config = .ok c) (simd : c.simd = true)
    (available : p.candidate.available = true) (enough : 1 ≤ c.minBlocks)
    (passes : (p.candidate.build c.minBlocks).Passes) :
    (Action.runOn (detect config) p).1 = .ok (some p.backends.size) := by
  have allPass (backend : Backend) : ¬FailsTest p.candidate c backend := by
    rintro ⟨fails, rfl | ⟨-, asked⟩⟩
    · exact fails Backend.generic_lawful.passes
    · exact fails (eq_of_askedFor asked ▸ passes)
  -- a detection that fails has a configuration or a backend to blame, and here there is none
  cases outcome : (Action.runOn (detect config) p).1 with
  | error fault =>
    obtain unread | ⟨c', read', reason⟩ := verdict_eq_error_iff.mp (detect_eq_error_iff.mp outcome)
    · exact nomatch read.symm.trans unread
    · obtain rfl := Except.ok.inj (read.symm.trans read')
      obtain ⟨few, -⟩ | ⟨-, -, backend, fails, -⟩ := reason
      · omega
      · exact absurd fails (allPass backend)
  | ok id =>
    obtain ⟨c', read', chosen, placed, -⟩ := detect_choice outcome
    obtain rfl := Except.ok.inj (read.symm.trans read')
    cases id with
    | none =>
      rw [simd, available] at chosen
      exact absurd (chosen.mp rfl) (by decide)
    | some id => rw [(placed id rfl).1]

/-- **What a self-test exercises.** Let a detection test backends, and let the backend that it asks for
    take just the batches of at least `c.minBlocks` blocks. If it is selected, it is in use as it was left
    by the self-test that it passed: offered batches of up to fifteen blocks. It took one of them if and
    only if `c.minBlocks` is at most fifteen. With a larger number the backend is selected whatever it
    makes of the batches that it takes. -/
theorem exercised_of_detect (read : configured p.environment config = .ok c)
    (on : c.selfTest = true) (takes : (p.candidate.build c.minBlocks).TakesFrom c.minBlocks) :
    (∀ id, (Action.runOn (detect config) p).1 = .ok (some id) →
      ∃ i : Backend.Instance, (Action.runOn (detect config) p).2.backends[id]? = some i ∧
        (p.candidate.build c.minBlocks).LeftByTest i ∧ (i.Exercised ↔ c.minBlocks ≤ 15)) ∧
    (15 < c.minBlocks → c.simd = true → p.candidate.available = true →
      (Action.runOn (detect config) p).1 = .ok (some p.backends.size)) := by
  constructor
  · intro id returned
    obtain ⟨i, inUse, left⟩ := leftByTest_of_detect read on returned
    exact ⟨i, inUse, left, left.exercised_iff takes⟩
  · intro large simd available
    exact detect_of_passes read simd available (by omega) (takes.passes large)

/-- The vectorized backend, set up for batches from fifteen blocks on. -/
theorem exercised_of_detect_fifteen :
    let p : Host := {}
    let c : Config := { minBlocks := 15, selfTest := true }
    configured p.environment (some c) = .ok c ∧ c.selfTest = true ∧
      (p.candidate.build c.minBlocks).TakesFrom c.minBlocks ∧
      (Action.runOn (detect (some c)) p).1 = .ok (some 0) ∧
      ∃ i : Backend.Instance, (Action.runOn (detect (some c)) p).2.backends[0]? = some i ∧
        (Backend.vectorized 15).LeftByTest i ∧ i.Exercised := by
  intro p c
  have read : configured p.environment (some c) = .ok c := rfl
  have takes : (p.candidate.build c.minBlocks).TakesFrom c.minBlocks :=
    Backend.vectorized_takesFrom 15
  have returned : (Action.runOn (detect (some c)) p).1 = .ok (some 0) :=
    detect_of_passes read rfl rfl (by decide) (Backend.vectorized_lawful 15).passes
  obtain ⟨i, inUse, left, exercised⟩ := (exercised_of_detect read rfl takes).1 0 returned
  exact ⟨read, rfl, takes, returned, i, inUse, left, exercised.mpr (by decide)⟩

/-- With one more block the same backend is selected without having taken any batch. -/
theorem not_exercised_of_detect_sixteen :
    let p : Host := {}
    let c : Config := { minBlocks := 16, selfTest := true }
    (Action.runOn (detect (some c)) p).1 = .ok (some 0) ∧
      ∃ i : Backend.Instance, (Action.runOn (detect (some c)) p).2.backends[0]? = some i ∧
        (Backend.vectorized 16).LeftByTest i ∧ ¬i.Exercised := by
  intro p c
  have read : configured p.environment (some c) = .ok c := rfl
  have returned : (Action.runOn (detect (some c)) p).1 = .ok (some 0) :=
    detect_of_passes read rfl rfl (by decide) (Backend.vectorized_lawful 16).passes
  obtain ⟨i, inUse, left⟩ := leftByTest_of_detect read rfl returned
  refine ⟨returned, i, inUse, left, ?_⟩
  rw [left.exercised_iff (Backend.vectorized_takesFrom 16)]
  decide

end Host

end Blake2s
