import Blake2s.Proofs.Host.Verdict

set_option autoImplicit false

/-! # Finding out by what to compress

A state with a pin compresses through its backend, and another one through the active backend of its
host; finding out which one that is may take a detection. If that succeeds, this and all later
compressions give some chain, right or wrong (`Host.engine_total`). If it fails, so does the
compression, and only the log has changed (`Host.FailsAs.failsAt`). There is no third case
(`Host.resolves_or_failsAs`). The log shows in none of this (`Host.SameButLog.alike_engine`). -/

namespace Blake2s

namespace Host

variable {p q : Host} {pin choice : Option BackendId} {fault : Fault}

/-- Is this the kind of fault that a detection fails with? -/
def OfDetection (fault : Fault) : Prop := fault.kind = .parameter ∨ fault.kind = .selfTest

/-! ## The active backend -/

theorem runOn_activeBackend (p : Host) :
    Action.runOn activeBackend p
      = match p.selection with
        | .detected id => (.ok id, p)
        | .undetected => Action.runOn (detect none) p := by
  unfold activeBackend
  rw [Action.runOn_bind, Action.runOn_get]
  cases h : p.selection with
  | undetected => simp only [h]
  | detected id => simp only [h, Action.runOn_pure]

/-- It fails only if the first detection does. -/
theorem detect_of_activeBackend (run : Action.runOn activeBackend p = (.error fault, q)) :
    p.selection = .undetected ∧ Action.runOn (detect none) p = (.error fault, q) := by
  rw [runOn_activeBackend] at run
  cases h : p.selection with
  | undetected =>
    rw [h] at run
    exact ⟨rfl, run⟩
  | detected id =>
    rw [h] at run
    exact nomatch run

/-- If it fails, it has changed nothing but the log. -/
theorem sameButLog_of_activeBackend_error (run : Action.runOn activeBackend p = (.error fault, q)) :
    p.SameButLog q :=
  sameButLog_of_detect_error (detect_of_activeBackend run).2

/-- Once a detection has succeeded, nothing is detected any more. -/
theorem runOn_activeBackend_of_detected (detected : p.selection ≠ .undetected) :
    ∃ id, Action.runOn activeBackend p = (.ok id, p) := by
  rw [runOn_activeBackend]
  cases h : p.selection with
  | undetected => exact absurd h detected
  | detected id => exact ⟨id, rfl⟩

/-- Where the same is selected, the active backend is found alike, if it is detected alike. -/
theorem alike_activeBackend_of {R : Host → Host → Prop}
    (selection : ∀ {p q}, R p q → q.selection = p.selection)
    (detected : ∀ p q, R p q → p.selection = .undetected →
      (Action.runOn (detect none) p).1 = (Action.runOn (detect none) q).1 ∧
        R (Action.runOn (detect none) p).2 (Action.runOn (detect none) q).2) :
    Action.Alike R activeBackend activeBackend := by
  intro p q related
  rw [runOn_activeBackend, runOn_activeBackend, selection related]
  cases known : p.selection with
  | undetected => exact detected p q related known
  | detected id => exact ⟨rfl, related⟩

theorem alike_activeBackend : Action.Alike SameSetup activeBackend activeBackend :=
  alike_activeBackend_of (fun same => same.selection) fun p q same _ => alike_detect none p q same

theorem SameButLog.alike_activeBackend :
    Action.Alike SameButLog activeBackend activeBackend :=
  alike_activeBackend_of (fun same => same.selection) fun p q same _ =>
    SameButLog.alike_detect none p q same

/-! ## Resolving a pin -/

theorem alike_resolve_of {R : Host → Host → Prop}
    (active : Action.Alike R activeBackend activeBackend) (pin : Option BackendId) :
    Action.Alike R (resolve pin) (resolve pin) := by
  cases pin with
  | some id => exact .pure _
  | none => exact active

theorem alike_resolve (pin : Option BackendId) :
    Action.Alike SameSetup (resolve pin) (resolve pin) :=
  alike_resolve_of alike_activeBackend pin

theorem SameButLog.alike_resolve (pin : Option BackendId) :
    Action.Alike SameButLog (resolve pin) (resolve pin) :=
  alike_resolve_of SameButLog.alike_activeBackend pin

/-- Is it found out without fail by what states with the given pin compress? -/
def Resolves (pin : Option BackendId) (p : Host) : Prop :=
  ∃ choice q, Action.runOn (resolve pin) p = (.ok choice, q)

theorem Chosen.resolves (chosen : p.Chosen pin choice) : p.Resolves pin :=
  ⟨choice, p, chosen.runOn_resolve⟩

/-- Finding out by what states with the given pin compress takes a detection, which fails. -/
structure FailsAs (p : Host) (pin : Option BackendId) (fault : Fault) (q : Host) : Prop where
  unpinned : pin = none
  undetected : p.selection = .undetected
  detect : Action.runOn (detect none) p = (.error fault, q)

theorem FailsAs.runOn_resolve (fails : p.FailsAs pin fault q) :
    Action.runOn (resolve pin) p = (.error fault, q) := by
  obtain ⟨rfl, undetected, detect⟩ := fails
  rw [resolve, runOn_activeBackend, undetected]
  exact detect

theorem FailsAs.sameButLog (fails : p.FailsAs pin fault q) : p.SameButLog q :=
  sameButLog_of_detect_error fails.detect

/-- **Either it is found out, or a detection fails.** -/
theorem resolves_or_failsAs (pin : Option BackendId) (p : Host) :
    p.Resolves pin ∨ ∃ fault q, p.FailsAs pin fault q := by
  cases pin with
  | some id => exact .inl ⟨some id, p, rfl⟩
  | none =>
    rcases h : Action.runOn activeBackend p with ⟨fault | choice, q⟩
    · obtain ⟨undetected, detect⟩ := detect_of_activeBackend h
      exact .inr ⟨fault, q, rfl, undetected, detect⟩
    · exact .inl ⟨choice, q, h⟩

/-! ## Compressing -/

/-- Whatever a chosen backend answers, it makes a chain, and only offers have been made. -/
theorem runOn_compressChosen (choice : Option BackendId) (chain : Chain) (batch : Batch) (p : Host) :
    ∃ chain' q, Action.runOn (compressChosen choice chain batch) p = (.ok chain', q) ∧
      p.SameButOffers q := by
  cases choice with
  | none => exact ⟨_, p, rfl, .refl p⟩
  | some id =>
    cases h : p.backends[id]? with
    | none => exact ⟨_, p, runOn_compressBy_of_none h chain batch, .refl p⟩
    | some i =>
      refine ⟨_, _, runOn_compressBy_of_some h chain batch, ?_⟩
      exact sameButOffers_set h rfl

/-- Once it is found out by what to compress, no compression fails any more. -/
theorem engine_total (pin : Option BackendId) : (engine pin).Total (Resolves pin) := by
  intro chain batch p resolves
  obtain ⟨choice, q, run⟩ := resolves
  obtain ⟨chain', q', compressed, same⟩ := runOn_compressChosen choice chain batch q
  refine ⟨chain', q', ?_, (same.chosen (chosen_of_resolve run)).resolves⟩
  rw [engine_eq, Action.runOn_bind, run]
  exact compressed

/-- The first compression finds out by what to compress, and then does as every later one. -/
theorem runOn_engine_of_resolve (run : Action.runOn (resolve pin) p = (.ok choice, q))
    (chain : Chain) (batch : Batch) :
    Action.runOn (engine pin chain batch) p = Action.runOn (engine pin chain batch) q := by
  rw [engine_eq, Action.runOn_bind, Action.runOn_bind, run, (chosen_of_resolve run).runOn_resolve]

theorem failsAt_of_resolve (run : Action.runOn (resolve pin) p = (.error fault, q)) :
    (engine pin).FailsAt p fault q := by
  intro chain batch
  rw [engine_eq, Action.runOn_bind, run]

theorem FailsAs.failsAt (fails : p.FailsAs pin fault q) : (engine pin).FailsAt p fault q :=
  failsAt_of_resolve fails.runOn_resolve

/-- Hosts with the same backends compress alike, once it is found out by what. -/
theorem alike_compressChosen {R : Host → Host → Prop}
    (same : ∀ {p q}, R p q → q.backends = p.backends)
    (withBackends : ∀ {p q}, R p q → ∀ backends, R { p with backends } { q with backends })
    (choice : Option BackendId) (chain : Chain) (batch : Batch) :
    Action.Alike R (compressChosen choice chain batch) (compressChosen choice chain batch) := by
  intro p q related
  cases choice with
  | none => exact ⟨rfl, related⟩
  | some id =>
    cases h : p.backends[id]? with
    | none =>
      have h' : q.backends[id]? = none := by rw [same related, h]
      rw [compressChosen, runOn_compressBy_of_none h, runOn_compressBy_of_none h']
      exact ⟨rfl, related⟩
    | some i =>
      have h' : q.backends[id]? = some i := by rw [same related, h]
      rw [compressChosen, runOn_compressBy_of_some h, runOn_compressBy_of_some h']
      refine ⟨rfl, ?_⟩
      dsimp only
      rw [same related]
      exact withBackends related _

/-- A compression cannot tell what was logged before. -/
theorem SameButLog.alike_engine (pin : Option BackendId) :
    Engine.Alike SameButLog (engine pin) (engine pin) := by
  intro chain batch
  rw [engine_eq]
  refine .bind (SameButLog.alike_resolve pin) fun choice => ?_
  refine alike_compressChosen (fun same => same.backends) ?_ choice chain batch
  intro p q same backends
  exact ⟨same.environment, same.candidate, rfl, same.selection⟩

/-! ## States in any host -/

section States

variable (pin : Option BackendId) (p : Host) {s : State}

/-- **An update succeeds**, and absorbs its input in all but the chain, **or a detection fails**, and
    then it has filled up the unused part of the buffer. Only input that does not fit in the buffer
    can meet such a failure. -/
theorem update_or_failsAs (live : s.outlen ≠ 0) (fits : s.filled ≤ 64) (data : Bytes) :
    (∃ s' q, (State.update (engine pin) data).runOn s p = ((.ok (), s'), q) ∧ s'.filled ≤ 64 ∧
      s'.content = { s.content.absorb data with chain := s'.chain }) ∨
    ∃ fault q, p.FailsAs pin fault q ∧ 64 - s.filled < data.length ∧
      (State.update (engine pin) data).runOn s p
        = ((.error fault, { s with buffer := s.toppedOff data }), q) := by
  rcases resolves_or_failsAs pin p with resolves | ⟨fault, q, fails⟩
  · obtain ⟨s', q, run, -, fits', content⟩ :=
      State.update_of_total (engine_total pin) resolves live fits data
    exact .inl ⟨s', q, run, fits', content⟩
  by_cases short : data.length ≤ 64 - s.filled
  · obtain ⟨run, holds⟩ := State.update_of_room live fits short (engine pin) p
    exact .inl ⟨s.kept data, p, run, holds.fits, holds.content_but_chain⟩
  · have long : 64 - s.filled < data.length := Nat.lt_of_not_le short
    refine .inr ⟨fault, q, fails, long, ?_⟩
    rw [State.update_of_lt live long, fails.failsAt]

/-- **A finish is refused** for the length or the room, and nothing has changed, **or it succeeds**,
    and the state is wiped, **or a detection fails**, and then the last block is closed already. -/
theorem finalWithin_or_failsAs (s : State) (requested : Option Int) (room : Option Nat) :
    (∃ fault, State.finalLength s.outlen requested room = .error fault ∧
      (State.finalWithin (engine pin) requested room).runOn s p = ((.error fault, s), p)) ∨
    (∃ digest q,
      (State.finalWithin (engine pin) requested room).runOn s p = ((.ok digest, {}), q)) ∨
    ∃ fault q, p.FailsAs pin fault q ∧ s.outlen ≠ 0 ∧
      (State.finalWithin (engine pin) requested room).runOn s p
        = ((.error fault, s.closeLastBlock), q) := by
  cases length : State.finalLength s.outlen requested room with
  | error fault => exact .inl ⟨fault, rfl, State.finalWithin_of_refused length p⟩
  | ok n =>
    have live : s.outlen ≠ 0 := by
      intro dead
      rw [State.finalLength_of_eq dead] at length
      exact nomatch length
    rw [State.finalWithin_of_granted length]
    rcases resolves_or_failsAs pin p with resolves | ⟨fault, q, fails⟩
    · obtain ⟨digest, q, run, -⟩ := State.finish_of_total (engine_total pin) resolves s n
      exact .inr (.inl ⟨digest, q, run⟩)
    · refine .inr (.inr ⟨fault, q, fails, live, ?_⟩)
      rw [State.runOn_finish, fails.failsAt]

variable {pin p}

theorem ofDetection_update (live : s.outlen ≠ 0) (fits : s.filled ≤ 64) {data : Bytes}
    (failed : ((State.update (engine pin) data).runOn s p).1.1 = .error fault) :
    OfDetection fault := by
  obtain ⟨s', q, run, -⟩ | ⟨fault', q, fails, -, run⟩ := update_or_failsAs pin p live fits data
  · rw [run] at failed
    exact nomatch failed
  · rw [run] at failed
    cases failed
    exact kind_of_detect_error fails.detect

/-- What is wrong with the length or the room for a digest is a fault of the same kind. -/
theorem ofDetection_finalWithin (live : s.outlen ≠ 0) {requested : Option Int} {room : Option Nat}
    (failed : ((State.finalWithin (engine pin) requested room).runOn s p).1.1 = .error fault) :
    OfDetection fault := by
  obtain ⟨fault', length, run⟩ | ⟨digest, q, run⟩ | ⟨fault', q, fails, -, run⟩ :=
    finalWithin_or_failsAs pin p s requested room
  · rw [run] at failed
    cases failed
    obtain rfl | ⟨n, rfl⟩ := State.eq_of_finalLength_error live length
    · exact .inl rfl
    · exact .inl rfl
  · rw [run] at failed
    exact nomatch failed
  · rw [run] at failed
    cases failed
    exact kind_of_detect_error fails.detect

end States

end Host

end Blake2s
