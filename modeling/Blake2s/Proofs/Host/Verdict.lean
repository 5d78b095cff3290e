import Blake2s.Proofs.Engine.Total
import Blake2s.Proofs.Host.Detection

set_option autoImplicit false

/-! # What a detection comes to

An examination reads a configuration, looks at the candidate and perhaps tests backends. What it finds
is a function of the environment and the candidate, `Host.verdict`; nothing else in the host has a part
in it (`Host.finds_examine`). A detection that fails leaves just the reports
(`Host.runOn_detect_verdict`). -/

namespace Blake2s

/-- What comes of an action on a host that changes nothing but the log: its outcome, and what it
    reports. -/
abbrev Finding (α : Type) := Except Fault α × List Event

namespace Finding

variable {α β : Type}

def pure (a : α) : Finding α := (.ok a, [])

/-- One finding after the other; nothing is found after a fault. -/
def bind : Finding α → (α → Finding β) → Finding β
  | (.ok a, events), f => ((f a).1, events ++ (f a).2)
  | (.error fault, events), _ => (.error fault, events)

theorem bind_eq_error_iff {x : Finding α} {f : α → Finding β} {fault : Fault} :
    (x.bind f).1 = .error fault ↔
      x.1 = .error fault ∨ ∃ a, x.1 = .ok a ∧ (f a).1 = .error fault := by
  rcases x with ⟨_ | a, events⟩ <;> simp [bind]

theorem bind_eq_ok_iff {x : Finding α} {f : α → Finding β} {b : β} :
    (x.bind f).1 = .ok b ↔ ∃ a, x.1 = .ok a ∧ (f a).1 = .ok b := by
  rcases x with ⟨_ | a, events⟩ <;> simp [bind]

end Finding

namespace Backend

/-- Does the backend, taken into use for that alone, pass the self-test? -/
def Passes (backend : Backend) : Prop :=
  (Action.runOn (SelfTest.run Instance.engine) { backend }).1 = .ok none

/-- What testing a backend finds; if it passes, that is the backend as the test leaves it. -/
@[irreducible] def Instance.tested (i : Instance) : Finding Instance :=
  match Action.runOn (SelfTest.run engine) i with
  | (.ok none, j) => (.ok j, [])
  | (.ok (some answer), j) =>
    (.error (.selfTest j.backend.name), [.mismatch answer, .backendFailed j.backend.name])
  | (.error fault, _) => (.error fault, [])

end Backend

namespace Host

variable {α β : Type} {p q : Host} {config : Option Config}

/-! ## Findings of actions -/

/-- The host with more in its log. -/
def reported (p : Host) (events : List Event) : Host := { p with log := p.log ++ events }

@[simp] theorem reported_nil (p : Host) : p.reported [] = p := by
  rw [reported, List.append_nil]

@[simp] theorem reported_reported (p : Host) (events more : List Event) :
    (p.reported events).reported more = p.reported (events ++ more) := by
  simp only [reported, List.append_assoc]

/-- From every host with the given environment and candidate, an action has the finding and leaves
    nothing but the reports. -/
def Finds (environment : Environment) (candidate : Candidate) (op : HostM α) (found : Finding α) :
    Prop :=
  ∀ p : Host, p.environment = environment → p.candidate = candidate →
    Action.runOn op p = (found.1, p.reported found.2)

variable {environment : Environment} {candidate : Candidate}

namespace Finds

theorem pure (a : α) : Finds environment candidate (Pure.pure a) (Finding.pure a) := by
  intro p _ _
  rw [Action.runOn_pure, Finding.pure, reported_nil]

theorem bind {x : HostM α} {f : α → HostM β} {found : Finding α} {next : α → Finding β}
    (hx : Finds environment candidate x found)
    (hf : ∀ a, Finds environment candidate (f a) (next a)) :
    Finds environment candidate (x >>= f) (found.bind next) := by
  intro p env cand
  rw [Action.runOn_bind, hx p env cand]
  rcases found with ⟨fault | a, events⟩
  · rfl
  · dsimp only [Finding.bind]
    rw [hf a (p.reported events) env cand, reported_reported]

end Finds

/-! ## The steps of an examination -/

/-- The backend that a configuration asks for, if there is one, and what is reported if not. -/
def proposal (candidate : Candidate) (config : Config) : Finding (Option Backend.Instance) :=
  if config.simd = false then (.ok none, [.simdDisabled])
  else if candidate.available = false then (.ok none, [.simdUnavailable])
  else .pure (some { backend := candidate.build config.minBlocks })

/-- The tests of the generic compression and of a proposed backend. -/
def testedAll (proposed : Option Backend.Instance) : Finding (Option Backend.Instance) :=
  (Backend.Instance.tested { backend := .generic }).bind fun _ =>
    match proposed with
    | none => .pure none
    | some i => i.tested.bind fun j => .pure (some j)

/-- What is done with a configuration that could be read. -/
def judged (candidate : Candidate) (config : Config) : Finding (Option Backend.Instance) :=
  if config.minBlocks < 1 then (.error (.configuration [.minBlocks]), [])
  else (proposal candidate config).bind fun proposed =>
    if config.selfTest = true then testedAll proposed else .pure proposed

/-- The given configuration, or else the one that the environment sets. -/
def configured (environment : Environment) (config : Option Config) : Except Fault Config :=
  config.elim (Config.ofEnvironment environment) .ok

/-- What an examination finds: the backend to adopt, if there is one. -/
def verdict (environment : Environment) (candidate : Candidate) (config : Option Config) :
    Finding (Option Backend.Instance) :=
  Finding.bind (configured environment config, []) (judged candidate)

theorem finds_check (i : Backend.Instance) :
    Finds environment candidate (check i) i.tested := by
  intro p _ _
  unfold check Backend.Instance.tested Action.runOn
  -- the run is made opaque, so that nothing computes it
  rcases (SelfTest.run Backend.Instance.engine).run.run i with ⟨fault | _ | answer, j⟩
  · exact congrArg (Prod.mk _) (reported_nil p).symm
  · exact congrArg (Prod.mk _) (reported_nil p).symm
  · exact congrArg (Prod.mk _) (reported_reported p _ _)

theorem finds_propose (config : Config) :
    Finds environment candidate (propose config) (proposal candidate config) := by
  rintro p rfl rfl
  unfold propose proposal
  cases config.simd with
  | false => rfl
  | true =>
    cases available : p.candidate.available with
    | false =>
      simp only [Bool.not_true, Bool.not_false, Bool.true_eq_false, Bool.false_eq_true, if_false,
        if_true, Action.runOn_bind, Action.runOn_get, available]
      rfl
    | true =>
      simp only [Bool.not_true, Bool.true_eq_false, Bool.false_eq_true, if_false,
        Action.runOn_bind, Action.runOn_get, available, Action.runOn_pure, Finding.pure,
        reported_nil]

theorem finds_checkAll (proposed : Option Backend.Instance) :
    Finds environment candidate (checkAll proposed) (testedAll proposed) := by
  refine .bind (finds_check _) fun _ => ?_
  cases proposed with
  | none => exact .pure none
  | some i => exact .bind (finds_check i) fun j => .pure (some j)

theorem finds_configuration (config : Option Config) :
    Finds environment candidate (configuration config) (configured environment config, []) := by
  rintro p rfl rfl
  rw [runOn_configuration, reported_nil]
  rfl

/-- **An examination finds its verdict**, and leaves the reports in the log. -/
theorem finds_examine (config : Option Config) :
    Finds environment candidate (examine config) (verdict environment candidate config) := by
  refine .bind (finds_configuration config) fun config => ?_
  have rest : Finds environment candidate
      (do
        let proposed ← propose config
        if config.selfTest then checkAll proposed else pure proposed)
      ((proposal candidate config).bind fun proposed =>
        if config.selfTest = true then testedAll proposed else .pure proposed) := by
    refine .bind (finds_propose config) fun proposed => ?_
    split
    · exact finds_checkAll proposed
    · exact .pure proposed
  unfold judged Config.problems
  by_cases few : config.minBlocks < 1
  · rw [if_pos few, if_pos few, if_neg (by decide)]
    intro p _ _
    rw [Action.runOn_bind, Action.runOn_throw, reported_nil]
  · rw [if_neg few, if_neg few, if_pos (by decide)]
    exact rest

theorem runOn_examine (config : Option Config) (p : Host) :
    Action.runOn (examine config) p
      = ((verdict p.environment p.candidate config).1,
         p.reported (verdict p.environment p.candidate config).2) :=
  finds_examine config p rfl rfl

/-- A detection adopts what the verdict says, or leaves the reports only. -/
theorem runOn_detect_verdict (config : Option Config) (p : Host) :
    Action.runOn (detect config) p
      = match verdict p.environment p.candidate config with
        | (.ok choice, events) =>
          (.ok (choice.map fun _ => p.backends.size), (p.reported events).adopted choice)
        | (.error fault, events) => (.error fault, p.reported events) := by
  rw [runOn_detect, runOn_examine]
  rcases verdict p.environment p.candidate config with ⟨_ | choice, events⟩ <;> rfl

end Host

/-! ## Reasons -/

namespace Backend

/-- A backend that passes comes out of the test as it went in, but for the offers. -/
theorem tested_of_passes {backend : Backend} (passes : backend.Passes) :
    ∃ i : Instance, Instance.tested { backend } = (.ok i, []) ∧ i.backend = backend := by
  have same := Host.backend_of_selfTest { backend }
  unfold Passes at passes
  rw [Instance.tested]
  rcases h : Action.runOn (SelfTest.run Instance.engine) { backend } with ⟨mismatch, i⟩
  rw [h] at passes same
  obtain rfl : mismatch = .ok none := passes
  exact ⟨i, rfl, same⟩

theorem tested_of_not_passes {backend : Backend} (fails : ¬backend.Passes) :
    ∃ answer, Instance.tested { backend }
      = (.error (.selfTest backend.name), [.mismatch answer, .backendFailed backend.name]) := by
  have same := Host.backend_of_selfTest { backend }
  obtain ⟨mismatch, i, run, -⟩ := SelfTest.succeeds_run Instance.engine_total { backend } trivial
  unfold Passes at fails
  rw [Instance.tested]
  rw [run] at fails same ⊢
  obtain rfl : i.backend = backend := same
  cases mismatch with
  | none => exact absurd rfl fails
  | some answer => exact ⟨answer, rfl⟩

theorem tested_eq_error_iff {backend : Backend} {fault : Fault} :
    (Instance.tested { backend }).1 = .error fault ↔
      ¬backend.Passes ∧ fault = .selfTest backend.name := by
  by_cases passes : backend.Passes
  · obtain ⟨i, found, -⟩ := tested_of_passes passes
    simp [found, passes]
  · obtain ⟨answer, found⟩ := tested_of_not_passes passes
    simp [found, passes, eq_comm]

theorem tested_eq_ok {backend : Backend} {i : Instance}
    (found : (Instance.tested { backend }).1 = .ok i) : backend.Passes ∧ i.backend = backend := by
  by_cases passes : backend.Passes
  · obtain ⟨j, found', same⟩ := tested_of_passes passes
    rw [found'] at found
    obtain ⟨⟩ := found
    exact ⟨passes, same⟩
  · obtain ⟨answer, found'⟩ := tested_of_not_passes passes
    rw [found'] at found
    exact nomatch found

end Backend

namespace Host

variable {candidate : Candidate} {environment : Environment} {config : Option Config}
  {fault : Fault}

/-- The backend that a configuration asks for, if it is available. -/
def askedFor (candidate : Candidate) (config : Config) : Option Backend :=
  if config.simd = true ∧ candidate.available = true then some (candidate.build config.minBlocks)
  else none

theorem proposal_eq_ok (candidate : Candidate) (config : Config) :
    (proposal candidate config).1
      = .ok ((askedFor candidate config).map fun backend => { backend }) := by
  unfold proposal askedFor
  cases config.simd <;> cases candidate.available <;> rfl

/-- A backend that is tested fails: the generic compression, or else the backend asked for. -/
def FailsTest (candidate : Candidate) (config : Config) (backend : Backend) : Prop :=
  ¬backend.Passes ∧
    (backend = .generic ∨ Backend.generic.Passes ∧ backend ∈ askedFor candidate config)

theorem testedAll_eq_error_iff {config : Config} :
    (testedAll ((askedFor candidate config).map fun backend => { backend })).1 = .error fault ↔
      ∃ backend, FailsTest candidate config backend ∧ fault = .selfTest backend.name := by
  unfold testedAll FailsTest
  rw [Finding.bind_eq_error_iff, Backend.tested_eq_error_iff]
  constructor
  · rintro (⟨fails, rfl⟩ | ⟨i, passed, later⟩)
    · exact ⟨.generic, ⟨fails, .inl rfl⟩, rfl⟩
    · cases asked : askedFor candidate config with
      | none =>
        rw [asked] at later
        exact nomatch later
      | some backend =>
        rw [asked, Option.map_some, Finding.bind_eq_error_iff, Backend.tested_eq_error_iff] at later
        obtain ⟨fails, rfl⟩ | ⟨_, _, ⟨⟩⟩ := later
        exact ⟨backend, ⟨fails, .inr ⟨(Backend.tested_eq_ok passed).1, rfl⟩⟩, rfl⟩
  · rintro ⟨backend, ⟨fails, rfl | ⟨passes, asked⟩⟩, rfl⟩
    · exact .inl ⟨fails, rfl⟩
    · obtain ⟨i, found, -⟩ := Backend.tested_of_passes passes
      refine .inr ⟨i, congrArg Prod.fst found, ?_⟩
      rw [Option.mem_def.mp asked, Option.map_some, Finding.bind_eq_error_iff,
        Backend.tested_eq_error_iff]
      exact .inl ⟨fails, rfl⟩

theorem testedAll_eq_ok {config : Config} {choice : Option Backend.Instance}
    (found : (testedAll ((askedFor candidate config).map fun backend => { backend })).1
      = .ok choice) :
    choice.map (·.backend) = askedFor candidate config := by
  obtain ⟨-, -, found⟩ := Finding.bind_eq_ok_iff.mp found
  cases asked : askedFor candidate config with
  | none =>
    rw [asked] at found
    obtain ⟨⟩ := found
    rfl
  | some backend =>
    rw [asked] at found
    obtain ⟨i, passed, ⟨⟩⟩ := Finding.bind_eq_ok_iff.mp found
    exact congrArg some (Backend.tested_eq_ok passed).2

/-- A configuration is judged by its least batch size first, also if it asks for no backend, and then
    by the tests it asks for. -/
theorem judged_eq_error_iff {config : Config} :
    (judged candidate config).1 = .error fault ↔
      config.minBlocks < 1 ∧ fault = .configuration [.minBlocks] ∨
        1 ≤ config.minBlocks ∧ config.selfTest = true ∧
          ∃ backend, FailsTest candidate config backend ∧ fault = .selfTest backend.name := by
  unfold judged
  by_cases few : config.minBlocks < 1
  · have notEnough : ¬1 ≤ config.minBlocks := by omega
    rw [if_pos few, or_iff_left (fun both => notEnough both.1), and_iff_right few]
    exact ⟨fun same => (Except.error.inj same).symm, fun same => congrArg Except.error same.symm⟩
  · have enough : 1 ≤ config.minBlocks := by omega
    rw [if_neg few, Finding.bind_eq_error_iff, proposal_eq_ok]
    cases config.selfTest with
    | false => simp [few, Finding.pure]
    | true => simp [few, enough, testedAll_eq_error_iff]

theorem judged_eq_ok {config : Config} {choice : Option Backend.Instance}
    (found : (judged candidate config).1 = .ok choice) :
    choice.map (·.backend) = askedFor candidate config := by
  unfold judged at found
  split at found
  · exact nomatch found
  · rw [Finding.bind_eq_ok_iff, proposal_eq_ok] at found
    obtain ⟨_, ⟨⟩, found⟩ := found
    split at found
    · exact testedAll_eq_ok found
    · obtain ⟨⟩ := found
      rw [Option.map_map]
      exact congrFun Option.map_id _

/-- A configuration that cannot be read has a least batch size that is no number. -/
theorem configured_eq_error (failed : configured environment config = .error fault) :
    ∃ text, fault = .minBlocksText text := by
  cases config with
  | some config => exact nomatch failed
  | none =>
    simp only [configured, Option.elim_none, Config.ofEnvironment] at failed
    cases text : environment.minBlocks with
    | none =>
      rw [text] at failed
      exact nomatch failed
    | some text' =>
      rw [text, Option.elim_some, Config.readMinBlocks] at failed
      cases number : Text.integer? text'.toList with
      | some n =>
        rw [number] at failed
        exact nomatch failed
      | none =>
        rw [number] at failed
        obtain ⟨⟩ := failed
        exact ⟨text', rfl⟩

/-- **The three reasons** for which a detection fails. -/
theorem verdict_eq_error_iff :
    (verdict environment candidate config).1 = .error fault ↔
      configured environment config = .error fault ∨
        ∃ c, configured environment config = .ok c ∧
          (c.minBlocks < 1 ∧ fault = .configuration [.minBlocks] ∨
            1 ≤ c.minBlocks ∧ c.selfTest = true ∧
              ∃ backend, FailsTest candidate c backend ∧ fault = .selfTest backend.name) := by
  simp only [verdict, Finding.bind_eq_error_iff, judged_eq_error_iff]

theorem detect_eq_error_iff {p : Host} :
    (Action.runOn (detect config) p).1 = .error fault ↔
      (verdict p.environment p.candidate config).1 = .error fault := by
  rw [runOn_detect_verdict]
  rcases verdict p.environment p.candidate config with ⟨_ | choice, events⟩ <;> simp

theorem reason_of_detect_error {p q : Host}
    (run : Action.runOn (detect config) p = (.error fault, q)) :
    (∃ text, fault = .minBlocksText text) ∨ fault = .configuration [.minBlocks] ∨
      ∃ backend : Backend, fault = .selfTest backend.name := by
  have failed := detect_eq_error_iff.mp (congrArg Prod.fst run)
  obtain unread | ⟨c, -, ⟨-, rfl⟩ | ⟨-, -, backend, -, rfl⟩⟩ := verdict_eq_error_iff.mp failed
  · exact .inl (configured_eq_error unread)
  · exact .inr (.inl rfl)
  · exact .inr (.inr ⟨backend, rfl⟩)

/-- **A detection fails** by what it was asked for, or by a backend that fails its self-test. -/
theorem kind_of_detect_error {p q : Host}
    (run : Action.runOn (detect config) p = (.error fault, q)) :
    fault.kind = .parameter ∨ fault.kind = .selfTest := by
  obtain ⟨text, rfl⟩ | rfl | ⟨backend, rfl⟩ := reason_of_detect_error run
  · exact .inl rfl
  · exact .inl rfl
  · exact .inr rfl

/-! ## Rules -/

/-- Is there a reason in the configuration for a detection to fail? Whether it asks for a vectorized
    backend has no part in that. -/
def Misconfigured (p : Host) (config : Option Config) : Prop :=
  (∃ fault, configured p.environment config = .error fault) ∨
    ∃ c, configured p.environment config = .ok c ∧ c.minBlocks < 1

/-- Is there a reason in the backends for a detection to fail? -/
def FailsSelfTest (p : Host) (config : Option Config) : Prop :=
  ∃ c, configured p.environment config = .ok c ∧ 1 ≤ c.minBlocks ∧ c.selfTest = true ∧
    (¬Backend.generic.Passes ∨ ∃ backend ∈ askedFor p.candidate c, ¬backend.Passes)

/-- What a run of the detection comes to in a host: either of two kinds of fault, or a choice, which is
    selected. A backend that is chosen is a new one. -/
structure Ruled (p : Host) (config : Option Config) (run : Except Fault (Option BackendId) × Host) :
    Prop where
  parameter : (∃ fault, run.1 = .error fault ∧ fault.kind = .parameter) ↔ p.Misconfigured config
  selfTest : (∃ fault, run.1 = .error fault ∧ fault.kind = .selfTest) ↔ p.FailsSelfTest config
  fault : ∀ fault, run.1 = .error fault → fault.kind = .parameter ∨ fault.kind = .selfTest
  choice : ∀ id, run.1 = .ok id → ∃ c, configured p.environment config = .ok c ∧
    (id = none ↔ c.simd = false ∨ p.candidate.available = false) ∧
    (∀ i ∈ id, i = p.backends.size ∧ run.2.backend? i = some (p.candidate.build c.minBlocks)) ∧
    run.2.selection = .detected id

theorem detect_parameter_iff (p : Host) (config : Option Config) :
    (∃ fault, (Action.runOn (detect config) p).1 = .error fault ∧ fault.kind = .parameter) ↔
      p.Misconfigured config := by
  simp only [detect_eq_error_iff, verdict_eq_error_iff]
  constructor
  · rintro ⟨fault, unread | ⟨c, read, ⟨few, -⟩ | ⟨-, -, backend, -, rfl⟩⟩, kind⟩
    · exact .inl ⟨fault, unread⟩
    · exact .inr ⟨c, read, few⟩
    · exact nomatch kind
  · rintro (⟨fault, unread⟩ | ⟨c, read, few⟩)
    · obtain ⟨text, rfl⟩ := configured_eq_error unread
      exact ⟨_, .inl unread, rfl⟩
    · exact ⟨_, .inr ⟨c, read, .inl ⟨few, rfl⟩⟩, rfl⟩

theorem exists_failsTest_iff {candidate : Candidate} {c : Config} :
    (∃ backend, FailsTest candidate c backend) ↔
      ¬Backend.generic.Passes ∨ ∃ backend ∈ askedFor candidate c, ¬backend.Passes := by
  constructor
  · rintro ⟨backend, fails, rfl | ⟨-, asked⟩⟩
    · exact .inl fails
    · exact .inr ⟨backend, asked, fails⟩
  · by_cases generic : Backend.generic.Passes
    · rintro (fails | ⟨backend, asked, fails⟩)
      · exact absurd generic fails
      · exact ⟨backend, fails, .inr ⟨generic, asked⟩⟩
    · exact fun _ => ⟨.generic, generic, .inl rfl⟩

theorem detect_selfTest_iff (p : Host) (config : Option Config) :
    (∃ fault, (Action.runOn (detect config) p).1 = .error fault ∧ fault.kind = .selfTest) ↔
      p.FailsSelfTest config := by
  simp only [detect_eq_error_iff, verdict_eq_error_iff, FailsSelfTest, ← exists_failsTest_iff]
  constructor
  · rintro ⟨fault, unread | ⟨c, read, ⟨-, rfl⟩ | ⟨enough, on, backend, fails, -⟩⟩, kind⟩
    · obtain ⟨text, rfl⟩ := configured_eq_error unread
      exact nomatch kind
    · exact nomatch kind
    · exact ⟨c, read, enough, on, backend, fails⟩
  · rintro ⟨c, read, enough, on, backend, fails⟩
    exact ⟨_, .inr ⟨c, read, .inr ⟨enough, on, backend, fails, rfl⟩⟩, rfl⟩

/-- What is chosen is the backend that was asked for. -/
theorem detect_choice {p : Host} {id : Option BackendId}
    (returned : (Action.runOn (detect config) p).1 = .ok id) :
    ∃ c, configured p.environment config = .ok c ∧
      (id = none ↔ c.simd = false ∨ p.candidate.available = false) ∧
      (∀ i ∈ id, i = p.backends.size ∧
        (Action.runOn (detect config) p).2.backend? i = some (p.candidate.build c.minBlocks)) ∧
      (Action.runOn (detect config) p).2.selection = .detected id := by
  rw [runOn_detect_verdict] at returned ⊢
  rcases found : verdict p.environment p.candidate config with ⟨fault | choice, events⟩
  · rw [found] at returned
    cases returned
  rw [found] at returned
  cases returned
  obtain ⟨c, read, judged⟩ := Finding.bind_eq_ok_iff.mp (congrArg Prod.fst found)
  have asked := judged_eq_ok judged
  refine ⟨c, read, ?_⟩
  by_cases on : c.simd = true ∧ p.candidate.available = true
  · rw [askedFor, if_pos on, Option.map_eq_some_iff] at asked
    obtain ⟨i, rfl, built⟩ := asked
    refine ⟨by simp [on], fun id here => ?_, rfl⟩
    obtain rfl : p.backends.size = id := Option.some.inj here
    refine ⟨rfl, ?_⟩
    rw [backend?, ← built]
    exact congrArg (Option.map _) Array.getElem?_push_size
  · rw [askedFor, if_neg on, Option.map_eq_none_iff] at asked
    subst asked
    refine ⟨iff_of_true rfl ?_, by simp, rfl⟩
    simpa [or_iff_not_imp_left] using on

/-- **Every run of the detection goes by the rules.** -/
theorem ruled_detect (p : Host) (config : Option Config) :
    p.Ruled config (Action.runOn (detect config) p) where
  parameter := detect_parameter_iff p config
  selfTest := detect_selfTest_iff p config
  fault _ failed := kind_of_detect_error (Prod.ext failed rfl)
  choice _ returned := detect_choice returned

end Host

end Blake2s
