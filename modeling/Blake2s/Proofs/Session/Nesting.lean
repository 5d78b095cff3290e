import Blake2s.Proofs.Host.Resolving
import Blake2s.Proofs.Session.Steps

set_option autoImplicit false

/-! # Detection within detection

A state without a backend of its own asks for the active backend, which may have to be detected, for
which backends may have to be tested, for which states have to compress. `Watched` is a host with a
watch on this: it counts the detections that are in progress, and it keeps in mind whether one was
started while another one was. What is done with it is what is done with a host, but nothing is
known beforehand of the compressions in a self-test: they may ask for the active backend as all
others may, and the calls are cut off at a given depth only.

The watch never sees a nested detection, and the calls are never cut off: the states of a self-test
belong to the backend under test, so they do not ask (`Watched.selfTest_fresh`), and if nothing is
proposed, nothing is tested (`Watched.check`). So all calls end, and they come to what the calls on
a host come to (`Watched.never_nested`). -/

namespace Blake2s

/-- A host with a watch on its detections. -/
structure Watched where
  host : Host
  /-- How many detections are in progress. -/
  running : Nat := 0
  /-- Was a detection started while another one was in progress? -/
  nested : Bool := false

abbrev WatchedM := ExceptT Fault (StateM Watched)

/-- What a state belongs to that is used in a self-test. -/
inductive Tested where
  /-- The selected backend, whichever it is when the state compresses. -/
  | selected
  | inUse (id : BackendId)
  /-- A backend that is not in use. -/
  | fresh (i : Backend.Instance)

/-- The backend under test, as far as it is not in use. -/
def Tested.instance? : Tested → Option Backend.Instance
  | fresh i => some i
  | _ => none

namespace Watched

variable {α : Type}

/-! ## The calls -/

def onHost (op : HostM α) : WatchedM α := ExceptT.mk do
  let w ← get
  let (outcome, host) := op.run.run w.host
  set { w with host }
  return outcome

/-- A detection. It has ended when it fails, too. -/
def inProgress (detection : WatchedM α) : WatchedM α := ExceptT.mk do
  modify fun w => { w with running := w.running + 1, nested := w.nested || w.running != 0 }
  let outcome ← detection.run
  modify fun w => { w with running := w.running - 1 }
  return outcome

section Calls

-- how the active backend is asked for
variable (active : WatchedM (Option BackendId))

/-- Compresses in a state without a backend of its own. -/
def compress : Engine Watched := fun chain batch => do
  match ← active with
  | some id => onHost (Host.compressBy id chain batch)
  | none => return chain.compress batch

/-- Compresses in a state that is used in a self-test. -/
def engine : Engine (Watched × Tested) := fun chain batch => ExceptT.mk do
  let (w, tested) ← get
  match tested with
  | .selected =>
    let (outcome, w) := (compress active chain batch).run.run w
    set (w, tested)
    return outcome
  | .inUse id =>
    let (outcome, w) := (onHost (Host.compressBy id chain batch)).run.run w
    set (w, tested)
    return outcome
  | .fresh i =>
    let (outcome, i) := (Backend.Instance.engine chain batch).run.run i
    set (w, Tested.fresh i)
    return outcome

/-- The self-test, with its report. Returns whether all answers came out right, and the backend as
    the test leaves it. -/
def selfTest (tested : Tested) : WatchedM (Bool × Tested) := do
  let (outcome, w, tested) := (SelfTest.run (engine active)).run.run (← get, tested)
  set w
  match ← outcome with
  | none => return (true, tested)
  | some answer =>
    onHost (Host.report (.mismatch answer))
    return (false, tested)

/-- Tests a backend, if there is one. -/
def check : Option Backend.Instance → WatchedM (Option Backend.Instance)
  | none => return none
  | some i => do
    let (passed, tested) ← selfTest active (.fresh i)
    unless passed do
      onHost (Host.report (.backendFailed i.backend.name))
      throw (.selfTest i.backend.name)
    return tested.instance?

/-- What a detection does before it adopts its choice. -/
def examine (config : Option Config) : WatchedM (Option Backend.Instance) := do
  let config ← onHost (Host.configuration config)
  unless config.problems.isEmpty do throw (.configuration config.problems)
  let proposed ← onHost (Host.propose config)
  if config.selfTest then
    let _ ← check active (some { backend := .generic })
    check active proposed
  else return proposed

/-- Detects the backend to use and selects it. -/
def detect (config : Option Config) : WatchedM (Option BackendId) :=
  inProgress (examine active config >>= fun choice => onHost (Host.adopt choice))

end Calls

/-- The selected backend. It is detected if no detection has succeeded yet. No more than `depth`
    calls of this are made within one another; in place of one more there is `stop`. -/
def activeBackend (stop : WatchedM (Option BackendId)) :
    (depth : Nat) → WatchedM (Option BackendId)
  | 0 => stop
  | depth + 1 => do
    match (← get).host.selection with
    | .detected id => return id
    | .undetected => detect (activeBackend stop depth) none

/-! ## What the watch sees -/

/-- What a self-test reports, given the first known answer that was missed, if one was. -/
def reports (mismatch : Option SelfTest.KnownAnswer) : List Event := mismatch.toList.map .mismatch

variable {active : WatchedM (Option BackendId)} {w : Watched}

theorem runOn_inProgress (detection : WatchedM α) (w : Watched) :
    Action.runOn (inProgress detection) w
      = let run := Action.runOn detection
          { w with running := w.running + 1, nested := w.nested || w.running != 0 }
        (run.1, { run.2 with running := run.2.running - 1 }) := rfl

theorem runOn_engine_selected (chain : Chain) (batch : Batch) (w : Watched) :
    Action.runOn (engine active chain batch) (w, .selected)
      = ((Action.runOn (compress active chain batch) w).1,
         (Action.runOn (compress active chain batch) w).2, .selected) := rfl

theorem runOn_engine_inUse (id : BackendId) (chain : Chain) (batch : Batch) (w : Watched) :
    Action.runOn (engine active chain batch) (w, .inUse id)
      = ((Action.runOn (Host.compressBy id chain batch) w.host).1,
         { w with host := (Action.runOn (Host.compressBy id chain batch) w.host).2 }, .inUse id) :=
  rfl

theorem runOn_engine_fresh (i : Backend.Instance) (chain : Chain) (batch : Batch) (w : Watched) :
    Action.runOn (engine active chain batch) (w, .fresh i)
      = ((Action.runOn (Backend.Instance.engine chain batch) i).1, w,
         .fresh (Action.runOn (Backend.Instance.engine chain batch) i).2) := rfl

theorem runOn_selfTest (tested : Tested) (w : Watched) :
    Action.runOn (selfTest active tested) w
      = match Action.runOn (SelfTest.run (engine active)) (w, tested) with
        | (.ok mismatch, w, tested) =>
          (.ok (mismatch.isNone, tested),
            { w with host := w.host.reported (reports mismatch) })
        | (.error fault, w, _) => (.error fault, w) := by
  rw [selfTest, Action.runOn_bind, Action.runOn_get]
  dsimp only
  unfold Action.runOn
  -- the run is made opaque, so that nothing computes it
  rcases (SelfTest.run (engine active)).run.run (w, tested) with ⟨fault | _ | answer, w, tested⟩
  · rfl
  · change (_, w) = (_, { w with host := w.host.reported [] })
    rw [Host.reported_nil]
    rfl
  · rfl

theorem runOn_reportMismatch (mismatch : Option SelfTest.KnownAnswer) (p : Host) :
    Action.runOn (Session.reportMismatch mismatch) p
      = (.ok mismatch.isNone, p.reported (reports mismatch)) := by
  cases mismatch with
  | none => exact congrArg (Prod.mk _) (Host.reported_nil p).symm
  | some answer => rfl

/-! ### Tests of a given backend -/

/-- A backend that is not in use never fails to compress. -/
theorem exists_mismatch (i : Backend.Instance) :
    ∃ mismatch j, Action.runOn (SelfTest.run Backend.Instance.engine) i = (.ok mismatch, j) := by
  obtain ⟨mismatch, j, run, -⟩ := SelfTest.succeeds_run Backend.Instance.engine_total i trivial
  exact ⟨mismatch, j, run⟩

/-- **The states of a test belong to the backend under test.** So they do not ask for the active
    backend, and they neither read nor change anything in the host. -/
theorem alike_engine_fresh (active : WatchedM (Option BackendId)) (w : Watched) :
    Engine.Alike (fun i m => m = (w, Tested.fresh i)) Backend.Instance.engine (engine active) := by
  rintro chain batch i _ rfl
  rw [runOn_engine_fresh]
  exact ⟨rfl, rfl⟩

theorem selfTest_fresh {i j : Backend.Instance} {mismatch : Option SelfTest.KnownAnswer}
    (run : Action.runOn (SelfTest.run Backend.Instance.engine) i = (.ok mismatch, j))
    (w : Watched) :
    Action.runOn (selfTest active (.fresh i)) w
      = (.ok (mismatch.isNone, .fresh j),
          { w with host := w.host.reported (reports mismatch) }) := by
  obtain ⟨outcome, memory⟩ :=
    SelfTest.alike_run (alike_engine_fresh active w) i (w, .fresh i) rfl
  rw [run] at outcome memory
  have tested : Action.runOn (SelfTest.run (engine active)) (w, .fresh i)
      = (.ok mismatch, w, .fresh j) := Prod.ext outcome.symm memory
  rw [runOn_selfTest, tested]

/-- A backend in use depends on the backends in use, and on nothing else in the host. -/
theorem alike_engine_inUse (active : WatchedM (Option BackendId)) (id : BackendId) (w : Watched) :
    Engine.Alike
      (fun (p : Host) m =>
        m = ({ w with host := { w.host with backends := p.backends } }, .inUse id))
      (Host.compressBy id) (engine active) := by
  rintro chain batch p _ rfl
  rw [runOn_engine_inUse]
  dsimp only
  cases here : p.backends[id]? with
  | none =>
    have there : ({ w.host with backends := p.backends } : Host).backends[id]? = none := here
    rw [Host.runOn_compressBy_of_none here, Host.runOn_compressBy_of_none there]
    exact ⟨rfl, rfl⟩
  | some i =>
    have there : ({ w.host with backends := p.backends } : Host).backends[id]? = some i := here
    rw [Host.runOn_compressBy_of_some here, Host.runOn_compressBy_of_some there]
    exact ⟨rfl, rfl⟩

/-- A backend in use never fails to compress, and only offers are made. -/
theorem total_compressBy (id : BackendId) (p : Host) :
    (Host.compressBy id).Total fun q => p.SameButOffers q := by
  intro chain batch q same
  obtain ⟨chain', q', run, same'⟩ := Host.runOn_compressChosen (some id) chain batch q
  exact ⟨chain', q', run, same.trans same'⟩

theorem selfTest_inUse {id : BackendId} {p q : Host} {mismatch : Option SelfTest.KnownAnswer}
    (run : Action.runOn (SelfTest.run (Host.compressBy id)) p = (.ok mismatch, q))
    (same : w.host.backends = p.backends) :
    Action.runOn (selfTest active (.inUse id)) w
      = (.ok (mismatch.isNone, .inUse id),
          { w with
            host :=
              { w.host with
                backends := q.backends
                log := w.host.log ++ reports mismatch } }) := by
  obtain ⟨outcome, memory⟩ :=
    SelfTest.alike_run (alike_engine_inUse active id w) p (w, .inUse id) (by rw [← same])
  rw [run] at outcome memory
  have tested : Action.runOn (SelfTest.run (engine active)) (w, .inUse id)
      = (.ok mismatch, { w with host := { w.host with backends := q.backends } }, .inUse id) :=
    Prod.ext outcome.symm memory
  rw [runOn_selfTest, tested]
  rfl

/-! ### Detection -/

theorem runOn_check (i : Backend.Instance) (w : Watched) :
    Action.runOn (check active (some i)) w
      = (i.tested.1.map some, { w with host := w.host.reported i.tested.2 }) := by
  obtain ⟨mismatch, j, run⟩ := exists_mismatch i
  have same : j.backend = i.backend := by
    have kept := Host.backend_of_selfTest i
    rwa [run] at kept
  unfold Backend.Instance.tested
  rw [check, Action.runOn_bind, selfTest_fresh run, run]
  cases mismatch with
  | none => rfl
  | some answer =>
    dsimp only
    rw [same]
    change (_, { w with host := (w.host.reported [.mismatch answer]).reported _ }) = _
    rw [Host.reported_reported]
    rfl

/-- A watch is on this host, with so many detections in progress, and has seen a nested one or not.
    -/
def Sees (running : Nat) (nested : Bool) (p : Host) (w : Watched) : Prop :=
  w = { host := p, running, nested }

variable {running : Nat} {nested : Bool}

theorem alike_onHost (op : HostM α) : Action.Alike (Sees running nested) op (onHost op) := by
  rintro p _ rfl
  exact ⟨rfl, rfl⟩

variable (active)

theorem alike_check (i : Backend.Instance) :
    Action.Alike (Sees running nested) (some <$> Host.check i) (check active (some i)) := by
  rintro p _ rfl
  have test := Host.finds_check i p rfl rfl
  rw [runOn_check, map_eq_pure_bind, Action.runOn_bind, test]
  rcases i.tested with ⟨_ | _, _⟩ <;> exact ⟨rfl, rfl⟩

theorem alike_checkAll (proposed : Option Backend.Instance) :
    Action.Alike (Sees running nested) (Host.checkAll proposed) (do
      let _ ← check active (some { backend := .generic })
      check active proposed) := by
  have generic : Action.Alike (Sees running nested) _ _ :=
    alike_check active { backend := .generic }
  cases proposed with
  | none =>
    have all := generic.bind fun _ => .pure (none : Option Backend.Instance)
    rwa [bind_map_left] at all
  | some i =>
    have all := generic.bind fun _ => alike_check active i
    rwa [bind_map_left] at all

theorem alike_examine (config : Option Config) :
    Action.Alike (Sees running nested) (Host.examine config) (examine active config) := by
  refine .bind (alike_onHost _) fun config => ?_
  have rest : Action.Alike (Sees running nested)
      (do
        let proposed ← Host.propose config
        if config.selfTest then Host.checkAll proposed else pure proposed)
      (do
        let proposed ← onHost (Host.propose config)
        if config.selfTest then
          let _ ← check active (some { backend := .generic })
          check active proposed
        else return proposed) := by
    refine .bind (alike_onHost _) fun proposed => ?_
    split
    · exact alike_checkAll active proposed
    · exact .pure proposed
  dsimp only
  split
  · exact rest
  · exact .bind (.throw _) fun _ => rest

/-- **A detection comes to the same, however the active backend is asked for**, and it is seen. -/
theorem runOn_detect (config : Option Config) (w : Watched) :
    Action.runOn (detect active config) w
      = ((Action.runOn (Host.detect config) w.host).1,
          { w with
            host := (Action.runOn (Host.detect config) w.host).2
            nested := w.nested || w.running != 0 }) := by
  have alike : Action.Alike (Sees (w.running + 1) (w.nested || w.running != 0)) (Host.detect config)
      (examine active config >>= fun choice => onHost (Host.adopt choice)) := by
    rw [Host.detect_eq]
    exact .bind (alike_examine active config) fun choice => alike_onHost _
  obtain ⟨outcome, memory⟩ := alike w.host _ rfl
  rw [detect, runOn_inProgress]
  exact Prod.ext outcome.symm
    (congrArg (fun w : Watched => { w with running := w.running - 1 }) memory)

/-- The watch would see a detection within another one. -/
theorem nested_of_running (busy : w.running ≠ 0) (undetected : w.host.selection = .undetected)
    (stop : WatchedM (Option BackendId)) (depth : Nat) :
    (Action.runOn (activeBackend stop (depth + 1)) w).2.nested = true := by
  rw [activeBackend, Action.runOn_bind, Action.runOn_get]
  dsimp only
  rw [undetected]
  dsimp only
  rw [runOn_detect, bne_iff_ne.mpr busy, Bool.or_true]

/-! ### Calls that are not within a detection -/

theorem alike_detect (config : Option Config) :
    Action.Alike (Sees 0 false) (Host.detect config) (detect active config) := by
  rintro p _ rfl
  rw [runOn_detect]
  exact ⟨rfl, rfl⟩

/-- The first call is enough. -/
theorem alike_activeBackend (stop : WatchedM (Option BackendId)) (depth : Nat) :
    Action.Alike (Sees 0 false) Host.activeBackend (activeBackend stop (depth + 1)) := by
  rintro p _ rfl
  rw [Host.runOn_activeBackend, activeBackend, Action.runOn_bind, Action.runOn_get]
  dsimp only
  cases p.selection with
  | detected id => exact ⟨rfl, rfl⟩
  | undetected => exact alike_detect _ none p _ rfl

section Found

variable {active} (found : Action.Alike (Sees 0 false) Host.activeBackend active)

include found

theorem alike_compress : Engine.Alike (Sees 0 false) (Host.engine none) (compress active) := by
  intro chain batch
  rw [Host.engine_eq]
  refine .bind found fun choice => ?_
  cases choice with
  | none => exact .pure _
  | some id => exact alike_onHost _

theorem alike_selfTest_selected :
    Action.Alike (Sees 0 false) Session.selfTestSelected
      (Prod.fst <$> selfTest active .selected) := by
  have engine : Engine.Alike (fun p m => m = (({ host := p } : Watched), Tested.selected))
      (Host.engine none) (engine active) := by
    rintro chain batch p _ rfl
    obtain ⟨outcome, memory⟩ := alike_compress found chain batch p _ rfl
    rw [runOn_engine_selected]
    exact ⟨outcome, congrArg (·, Tested.selected) memory⟩
  rintro p _ rfl
  obtain ⟨outcome, memory⟩ := SelfTest.alike_run engine p _ rfl
  rw [Session.selfTestSelected_eq, map_eq_pure_bind, Action.runOn_bind, Action.runOn_bind,
    runOn_selfTest]
  rcases run : Action.runOn (SelfTest.run (Host.engine none)) p with ⟨test, q⟩
  rw [run] at outcome memory
  have tested : Action.runOn (SelfTest.run (Watched.engine active)) ({ host := p }, .selected)
      = (test, { host := q }, .selected) := Prod.ext outcome.symm memory
  rw [tested]
  cases test with
  | error fault => exact ⟨rfl, rfl⟩
  | ok mismatch =>
    dsimp only
    rw [runOn_reportMismatch]
    exact ⟨rfl, rfl⟩

end Found

theorem alike_selfTest_fresh (backend : Backend) :
    Action.Alike (Sees 0 false) (Session.selfTestBackend backend)
      (Prod.fst <$> selfTest active (.fresh { backend })) := by
  obtain ⟨mismatch, j, run⟩ := exists_mismatch { backend }
  rintro p _ rfl
  rw [Session.selfTestBackend_eq, run, map_eq_pure_bind, Action.runOn_bind, Action.runOn_bind,
    selfTest_fresh run, Action.runOn_lift]
  dsimp only
  rw [runOn_reportMismatch]
  exact ⟨rfl, rfl⟩

/-- **Detection ends and never starts within itself.** In every host, whatever its environment and
    candidate are and whatever is configured, a detection comes to what it comes to on the host, and
    the watch has seen no other one within it, also if it fails. The way it would ask for the active
    backend has no part in that. So no call of `activeBackend` is made within another one, and
    neither it nor a compression without a backend of its own nor the self-test of the selected
    backend is cut off. The self-test of a given backend needs the active backend in no host: what
    comes of it depends on that backend alone, or on the backends in use if it is one of them, and
    besides offers to it there is only a report in the log. -/
theorem never_nested :
    (∀ active config, Action.Alike (Sees 0 false) (Host.detect config) (detect active config)) ∧
    (∀ stop depth,
      let active := activeBackend stop (depth + 1)
      Action.Alike (Sees 0 false) Host.activeBackend active ∧
      Engine.Alike (Sees 0 false) (Host.engine none) (compress active) ∧
      Action.Alike (Sees 0 false) Session.selfTestSelected
        (Prod.fst <$> selfTest active .selected)) ∧
    (∀ active backend,
      Action.Alike (Sees 0 false) (Session.selfTestBackend backend)
        (Prod.fst <$> selfTest active (.fresh { backend }))) ∧
    (∀ i, ∃ (mismatch : Option SelfTest.KnownAnswer) (j : Backend.Instance), ∀ active w,
      Action.runOn (selfTest active (.fresh i)) w
        = (.ok (mismatch.isNone, .fresh j),
            { w with host := w.host.reported (reports mismatch) })) ∧
    (∀ id backends, ∃ (mismatch : Option SelfTest.KnownAnswer) (offered : Array Backend.Instance),
      offered.map (·.backend) = backends.map (·.backend) ∧
      ∀ active w, w.host.backends = backends →
        Action.runOn (selfTest active (.inUse id)) w
          = (.ok (mismatch.isNone, .inUse id),
              { w with
                host :=
                  { w.host with
                    backends := offered
                    log := w.host.log ++ reports mismatch } })) := by
  refine ⟨alike_detect, fun stop depth => ?_, alike_selfTest_fresh, fun i => ?_,
    fun id backends => ?_⟩
  · have found := alike_activeBackend stop depth
    exact ⟨found, alike_compress found, alike_selfTest_selected found⟩
  · obtain ⟨mismatch, j, run⟩ := exists_mismatch i
    exact ⟨mismatch, j, fun active w => selfTest_fresh run w⟩
  · obtain ⟨mismatch, q, run, same⟩ :=
      SelfTest.succeeds_run (total_compressBy id { backends }) _ (.refl _)
    exact ⟨mismatch, q.backends, same.sameSetup.map_backends, fun active w => selfTest_inUse run⟩

end Watched

end Blake2s
