import Blake2s.Proofs.Host.Lawful

set_option autoImplicit false

/-! # Detection

A detection first examines what the host is set up with, and then adopts a choice
(`Host.detect_eq`). Only the examination can fail, and it reports to the log and changes nothing else
(`Host.keeps_examine`). So a detection that fails leaves the setup of the host as it was
(`Host.sameButLog_of_detect_error`), and what a detection comes to depends on the setup only
(`Host.alike_detect`): not on the log, and not on what was offered to backends before.

In a sound host all backends that are or may come into use are lawful, whether or not one has been
detected; a detection leaves it sound (`Host.Sound.detect`). -/

namespace Blake2s

namespace Host

/-! ## The setup of a host -/

/-- Are two hosts the same, except for their logs and for what was offered to their backends? -/
structure SameSetup (p q : Host) : Prop where
  environment : q.environment = p.environment
  candidate : q.candidate = p.candidate
  backends : ∀ id, q.backend? id = p.backend? id
  selection : q.selection = p.selection

variable {p q r : Host}

namespace SameSetup

theorem refl (p : Host) : p.SameSetup p := ⟨rfl, rfl, fun _ => rfl, rfl⟩

theorem symm (h : p.SameSetup q) : q.SameSetup p :=
  ⟨h.environment.symm, h.candidate.symm, fun id => (h.backends id).symm, h.selection.symm⟩

theorem trans (h : p.SameSetup q) (h' : q.SameSetup r) : p.SameSetup r where
  environment := h'.environment.trans h.environment
  candidate := h'.candidate.trans h.candidate
  backends id := (h'.backends id).trans (h.backends id)
  selection := h'.selection.trans h.selection

theorem map_backends (h : p.SameSetup q) :
    q.backends.map (·.backend) = p.backends.map (·.backend) := by
  apply Array.ext_getElem?
  intro id
  rw [Array.getElem?_map, Array.getElem?_map]
  exact h.backends id

/-- Hosts with the same setup have the same number of backends in use. -/
theorem size_eq (h : p.SameSetup q) : q.backends.size = p.backends.size := by
  have sizes := congrArg Array.size h.map_backends
  rwa [Array.size_map, Array.size_map] at sizes

theorem of_log (h : p.SameSetup q) (log log' : List Event) :
    SameSetup { p with log } { q with log := log' } :=
  ⟨h.environment, h.candidate, h.backends, h.selection⟩

end SameSetup

theorem SameButOffers.sameSetup (h : p.SameButOffers q) : p.SameSetup q :=
  ⟨h.environment, h.candidate, h.backends, h.selection⟩

/-- Are two hosts the same, except for their logs? -/
structure SameButLog (p q : Host) : Prop where
  environment : q.environment = p.environment
  candidate : q.candidate = p.candidate
  backends : q.backends = p.backends
  selection : q.selection = p.selection

namespace SameButLog

theorem refl (p : Host) : p.SameButLog p := ⟨rfl, rfl, rfl, rfl⟩

theorem sameSetup (h : p.SameButLog q) : p.SameSetup q where
  environment := h.environment
  candidate := h.candidate
  backends id := by rw [backend?, backend?, h.backends]
  selection := h.selection

end SameButLog

/-- A relation of hosts under which they have the same environment and candidate, and which does not
    look at their logs. -/
structure Unlogged (R : Host → Host → Prop) : Prop where
  environment : ∀ {p q}, R p q → q.environment = p.environment
  candidate : ∀ {p q}, R p q → q.candidate = p.candidate
  of_log : ∀ {p q}, R p q → ∀ log log', R { p with log } { q with log := log' }

theorem SameSetup.unlogged : Unlogged SameSetup :=
  ⟨environment, candidate, fun same _ _ => same.of_log _ _⟩

theorem SameButLog.unlogged : Unlogged SameButLog :=
  ⟨environment, candidate, fun h _ _ => ⟨h.environment, h.candidate, h.backends, h.selection⟩⟩

/-! ## Examination and adoption -/

/-- What a detection does before it adopts its choice. -/
def examine (config : Option Config) : HostM (Option Backend.Instance) := do
  let config ← configuration config
  unless config.problems.isEmpty do throw (.configuration config.problems)
  let proposed ← propose config
  if config.selfTest then checkAll proposed else pure proposed

theorem detect_eq (config : Option Config) : detect config = examine config >>= adopt := by
  unfold detect examine
  rw [bind_assoc]
  refine bind_congr fun config => ?_
  have rest : (do
        let proposed ← propose config
        let choice ← if config.selfTest then checkAll proposed else pure proposed
        adopt choice)
      = (do
          let proposed ← propose config
          if config.selfTest then checkAll proposed else pure proposed) >>= adopt := by
    rw [bind_assoc]
    refine bind_congr fun proposed => ?_
    dsimp only
    split
    · rfl
    · rw [pure_bind]
  dsimp only
  split
  · exact rest
  · rw [bind_assoc]
    exact bind_congr fun _ => rest

/-! ### What an examination depends on -/

theorem runOn_configuration (config : Option Config) (p : Host) :
    Action.runOn (configuration config) p
      = (config.elim (Config.ofEnvironment p.environment) .ok, p) := by
  cases config with
  | some config => rfl
  | none =>
    simp only [configuration, Action.runOn_bind, Action.runOn_get, Action.runOn_lift,
      Option.elim_none]

section Unlogged

variable {R : Host → Host → Prop} (unlogged : Unlogged R)

include unlogged

theorem alike_configuration (config : Option Config) :
    Action.Alike R (configuration config) (configuration config) := by
  intro p q same
  rw [runOn_configuration, runOn_configuration, unlogged.environment same]
  exact ⟨rfl, same⟩

theorem alike_report (event : Event) :
    Action.Alike R (report event) (report event) :=
  fun _ _ same => ⟨rfl, unlogged.of_log same _ _⟩

theorem alike_propose (config : Config) :
    Action.Alike R (propose config) (propose config) := by
  unfold propose
  split
  · exact .bind (alike_report unlogged _) fun _ => .pure _
  · intro p q same
    rw [Action.runOn_bind, Action.runOn_bind, Action.runOn_get, Action.runOn_get]
    dsimp only
    rw [unlogged.candidate same]
    split
    · exact Action.Alike.bind (alike_report unlogged _) (fun _ => .pure _) p q same
    · exact ⟨rfl, same⟩

theorem alike_check (i : Backend.Instance) : Action.Alike R (check i) (check i) := by
  refine .bind (.lift _) fun mismatch => ?_
  dsimp only
  split
  · refine .bind (alike_report unlogged _) fun _ => ?_
    refine .bind (alike_report unlogged _) fun _ => ?_
    exact .bind (.throw _) fun _ => .pure _
  · exact .pure _

theorem alike_checkAll (proposed : Option Backend.Instance) :
    Action.Alike R (checkAll proposed) (checkAll proposed) := by
  refine .bind (alike_check unlogged _) fun _ => ?_
  cases proposed with
  | none => exact .pure _
  | some i => exact .bind (alike_check unlogged i) fun _ => .pure _

theorem alike_examine (config : Option Config) :
    Action.Alike R (examine config) (examine config) := by
  refine .bind (alike_configuration unlogged config) fun config => ?_
  have rest : Action.Alike R
      (do
        let proposed ← propose config
        if config.selfTest then checkAll proposed else pure proposed)
      (do
        let proposed ← propose config
        if config.selfTest then checkAll proposed else pure proposed) := by
    refine .bind (alike_propose unlogged config) fun proposed => ?_
    split
    · exact alike_checkAll unlogged proposed
    · exact .pure _
  dsimp only
  split
  · exact rest
  · exact .bind (.throw _) fun _ => rest

end Unlogged

/-! ### What an examination changes -/

/-- Nothing but the log. -/
theorem keeps_report (p : Host) (event : Event) :
    Action.Keeps (p.SameButLog ·) (report event) fun _ => True := by
  refine .modifyState ?_
  intro q same
  exact ⟨same.environment, same.candidate, same.backends, same.selection⟩

/-- The self-test makes offers to a backend, but leaves it the same backend. -/
theorem backend_of_selfTest (i : Backend.Instance) :
    (Action.runOn (SelfTest.run Backend.Instance.engine) i).2.backend = i.backend := by
  have same : Engine.Alike (fun j k : Backend.Instance => j = k ∧ j.backend = i.backend)
      Backend.Instance.engine Backend.Instance.engine := by
    rintro chain batch j _ ⟨rfl, backend⟩
    exact ⟨rfl, rfl, backend⟩
  exact (SelfTest.alike_run same i i ⟨rfl, rfl⟩).2.2

theorem keeps_check (p : Host) (i : Backend.Instance) :
    Action.Keeps (p.SameButLog ·) (check i) fun j => j.backend = i.backend := by
  have tested := backend_of_selfTest i
  refine .bind (.lift _) fun mismatch _ => ?_
  dsimp only
  split
  · refine .bind (keeps_report p _) fun _ _ => ?_
    exact .bind (keeps_report p _) fun _ _ => .throw_bind _ _
  · exact .pure tested

/-- A backend that detection may take into use. -/
def Candidate.Builds (candidate : Candidate) (i : Backend.Instance) : Prop :=
  ∃ minBlocks, i.backend = candidate.build minBlocks

theorem keeps_propose (p : Host) (config : Config) :
    Action.Keeps (p.SameButLog ·) (propose config) fun proposed =>
      ∀ i ∈ proposed, Candidate.Builds p.candidate i := by
  unfold propose
  split
  · exact .bind (keeps_report p _) fun _ _ => .pure (by simp)
  · refine .bind .get fun q same => ?_
    dsimp only
    split
    · exact .bind (keeps_report p _) fun _ _ => .pure (by simp)
    · refine .pure ?_
      rintro _ ⟨⟩
      rw [same.candidate]
      exact ⟨config.minBlocks, rfl⟩

theorem keeps_checkAll (p : Host) {proposed : Option Backend.Instance}
    (h : ∀ i ∈ proposed, Candidate.Builds p.candidate i) :
    Action.Keeps (p.SameButLog ·) (checkAll proposed) fun choice =>
      ∀ i ∈ choice, Candidate.Builds p.candidate i := by
  refine .bind (keeps_check p _) fun _ _ => ?_
  cases proposed with
  | none => exact .pure (by simp)
  | some i =>
    refine .bind (keeps_check p i) fun j same => .pure ?_
    rintro _ ⟨⟩
    obtain ⟨minBlocks, built⟩ := h i rfl
    exact ⟨minBlocks, same.trans built⟩

/-- **An examination changes nothing but the log**, and proposes nothing but what the candidate
    builds. -/
theorem keeps_examine (p : Host) (config : Option Config) :
    Action.Keeps (p.SameButLog ·) (examine config) fun choice =>
      ∀ i ∈ choice, Candidate.Builds p.candidate i := by
  have read : Action.Keeps (p.SameButLog ·) (configuration config) fun _ => True := by
    intro q same
    rw [runOn_configuration]
    exact ⟨same, fun _ _ => trivial⟩
  refine .bind read fun config _ => ?_
  have rest : Action.Keeps (p.SameButLog ·)
      (do
        let proposed ← propose config
        if config.selfTest then checkAll proposed else pure proposed)
      fun choice => ∀ i ∈ choice, Candidate.Builds p.candidate i := by
    refine .bind (keeps_propose p config) fun proposed h => ?_
    split
    · exact keeps_checkAll p h
    · exact .pure h
  dsimp only
  split
  · exact rest
  · exact .throw_bind _ _

/-! ### Adoption -/

/-- The host in which a choice has been adopted. -/
def adopted (p : Host) : Option Backend.Instance → Host
  | none =>
    { p with
      selection := .detected none
      log := p.log ++ [.selected Backend.generic.name] }
  | some i =>
    { p with
      backends := p.backends.push i
      selection := .detected (some p.backends.size)
      log := p.log ++ [.selected i.backend.name] }

theorem runOn_adopt (choice : Option Backend.Instance) (p : Host) :
    Action.runOn (adopt choice) p = (.ok (choice.map fun _ => p.backends.size), p.adopted choice) := by
  cases choice <;> rfl

theorem SameButLog.adopted (same : p.SameButLog q) (choice : Option Backend.Instance) :
    (p.adopted choice).SameButLog (q.adopted choice) := by
  cases choice with
  | none => exact ⟨same.environment, same.candidate, same.backends, rfl⟩
  | some i =>
    refine ⟨same.environment, same.candidate, ?_, ?_⟩
    · simp only [Host.adopted, same.backends]
    · simp only [Host.adopted, same.backends]

theorem SameSetup.adopted (same : p.SameSetup q) (choice : Option Backend.Instance) :
    (p.adopted choice).SameSetup (q.adopted choice) := by
  cases choice with
  | none => exact ⟨same.environment, same.candidate, same.backends, rfl⟩
  | some i =>
    refine ⟨same.environment, same.candidate, fun id => ?_, ?_⟩
    · have before := same.backends id
      unfold backend? at before ⊢
      simp only [Host.adopted, Array.getElem?_push, same.size_eq]
      split
      · rfl
      · exact before
    · simp only [Host.adopted, same.size_eq]

/-! ## Detection -/

theorem alike_detect (config : Option Config) :
    Action.Alike SameSetup (detect config) (detect config) := by
  rw [detect_eq]
  refine .bind (alike_examine SameSetup.unlogged config) fun choice => ?_
  intro p q same
  rw [runOn_adopt, runOn_adopt, same.size_eq]
  exact ⟨rfl, same.adopted choice⟩

/-- Earlier reports to the log do not show, whatever the backends are. -/
theorem SameButLog.alike_detect (config : Option Config) :
    Action.Alike SameButLog (detect config) (detect config) := by
  rw [detect_eq]
  refine .bind (alike_examine SameButLog.unlogged config) fun choice => ?_
  intro p q same
  rw [runOn_adopt, runOn_adopt, same.backends]
  exact ⟨rfl, same.adopted choice⟩

/-- A detection succeeds exactly if the examination does. -/
theorem runOn_detect (config : Option Config) (p : Host) :
    Action.runOn (detect config) p
      = match Action.runOn (examine config) p with
        | (.ok choice, q) => (.ok (choice.map fun _ => q.backends.size), q.adopted choice)
        | (.error fault, q) => (.error fault, q) := by
  rw [detect_eq, Action.runOn_bind]
  rcases Action.runOn (examine config) p with ⟨_ | _, _⟩
  · rfl
  · exact runOn_adopt _ _

theorem sameButLog_of_examine {config : Option Config}
    {choice : Except Fault (Option Backend.Instance)}
    (run : Action.runOn (examine config) p = (choice, q)) : p.SameButLog q := by
  have kept := (keeps_examine p config p (.refl p)).1
  rwa [run] at kept

/-- A detection that fails changes nothing but the log. -/
theorem sameButLog_of_detect_error {config : Option Config} {fault : Fault}
    (run : Action.runOn (detect config) p = (.error fault, q)) : p.SameButLog q := by
  rw [runOn_detect] at run
  rcases h : Action.runOn (examine config) p with ⟨choice, p'⟩
  rw [h] at run
  cases choice with
  | ok choice => exact nomatch run
  | error fault' =>
    obtain ⟨-, rfl⟩ := Prod.mk.inj run
    exact sameButLog_of_examine h

/-! ## Sound hosts -/

/-- All backends that are in use, and that a detection may take into use, are lawful. -/
structure Sound (p : Host) : Prop where
  backends : ∀ id, p.LawfulAt id
  candidate : ∀ minBlocks, (p.candidate.build minBlocks).Lawful

theorem Lawful.sound (lawful : p.Lawful) : p.Sound := ⟨lawful.backends, lawful.candidate⟩

namespace Sound

theorem lawful (sound : p.Sound) (detected : p.selection ≠ .undetected) : p.Lawful :=
  ⟨sound.backends, sound.candidate, detected⟩

theorem of_sameSetup (sound : p.Sound) (same : p.SameSetup q) : q.Sound where
  backends id := by
    unfold LawfulAt
    rw [same.backends]
    exact sound.backends id
  candidate := by
    rw [same.candidate]
    exact sound.candidate

theorem push (sound : p.Sound) {i : Backend.Instance} (hi : i.backend.Lawful) :
    Sound { p with backends := p.backends.push i } := by
  refine ⟨fun id b hb => ?_, sound.candidate⟩
  unfold backend? at hb
  rw [Array.getElem?_push] at hb
  split at hb
  · simp only [Option.map_some, Option.mem_def, Option.some.injEq] at hb
    exact hb ▸ hi
  · exact sound.backends id b hb

theorem adopted (sound : p.Sound) {choice : Option Backend.Instance}
    (h : ∀ i ∈ choice, i.backend.Lawful) : (p.adopted choice).Sound := by
  cases choice with
  | none => exact ⟨sound.backends, sound.candidate⟩
  | some i =>
    have pushed := sound.push (h i rfl)
    exact ⟨pushed.backends, pushed.candidate⟩

/-- A detection leaves a sound host sound, also when it fails. -/
theorem detect (sound : p.Sound) (config : Option Config) :
    (Action.runOn (detect config) p).2.Sound := by
  obtain ⟨same, built⟩ := keeps_examine p config p (.refl p)
  rw [runOn_detect]
  rcases h : Action.runOn (examine config) p with ⟨choice, q⟩
  rw [h] at same built
  have kept := sound.of_sameSetup same.sameSetup
  cases choice with
  | error fault => exact kept
  | ok choice =>
    refine kept.adopted fun i hi => ?_
    obtain ⟨minBlocks, same⟩ := built choice rfl i hi
    rw [same]
    exact sound.candidate minBlocks

end Sound

theorem Lawful.of_log (lawful : p.Lawful) (log : List Event) :
    Lawful { p with log } := ⟨lawful.backends, lawful.candidate, lawful.detected⟩

theorem Lawful.push (lawful : p.Lawful) {i : Backend.Instance} (hi : i.backend.Lawful) :
    Lawful { p with backends := p.backends.push i } :=
  (lawful.sound.push hi).lawful lawful.detected

/-- **A detection leaves a lawful host lawful**, also when it fails. -/
theorem keeps_detect (config : Option Config) :
    Action.Keeps Lawful (detect config) fun _ => True := by
  intro p lawful
  refine ⟨(lawful.sound.detect config).lawful ?_, fun _ _ => trivial⟩
  rcases h : Action.runOn (Host.detect config) p with ⟨choice, q⟩
  cases choice with
  | ok choice =>
    rw [selection_of_detect h]
    exact nofun
  | error fault =>
    rw [(sameButLog_of_detect_error h).selection]
    exact lawful.detected

end Host

end Blake2s
