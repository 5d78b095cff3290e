import Blake2s.Proofs.Host.Resolving
import Blake2s.Proofs.State.Failing

set_option autoImplicit false

/-! # Compression in a sound host

Finding out by what a state compresses may fail. If it succeeds in a sound host, this and all later
compressions are lawful (`Host.Sound.settled`); if it fails, so does the compression. So in a sound
host an update absorbs its input or changes nothing that matters
(`Host.Sound.update`), and the first and only thing that a finish does to the host, apart from making
offers, is to find out the active backend (`Host.Sound.final`). -/

namespace Blake2s

namespace Host

variable {p q : Host} {pin choice : Option BackendId} {n : Nat}

/-! ## Finding out by what to compress -/

theorem Sound.after_activeBackend (sound : p.Sound) :
    (Action.runOn activeBackend p).2.Sound := by
  rw [runOn_activeBackend]
  cases p.selection with
  | undetected => exact sound.detect none
  | detected id => exact sound

theorem Sound.after_resolve (sound : p.Sound) (pin : Option BackendId) :
    (Action.runOn (resolve pin) p).2.Sound := by
  cases pin with
  | some id => exact sound
  | none => exact sound.after_activeBackend

theorem Sound.settled (sound : p.Sound) (resolves : p.Resolves pin) : p.Settled pin := by
  obtain ⟨choice, q, run⟩ := resolves
  have after := sound.after_resolve pin
  rw [run] at after
  exact ⟨choice, q, run, fun id _ => after.backends id⟩

/-! ## Compression by a known choice -/

/-- Once it is known by what to compress, compressing makes offers and changes nothing else. -/
theorem engine_lawful_of_chosen (chosen : p.Chosen pin choice)
    (lawful : ∀ id ∈ choice, p.LawfulAt id) :
    (engine pin).Lawful fun q => p.SameButOffers q := by
  intro chain batch q same
  obtain ⟨outcome, same'⟩ :=
    compressChosen_of_lawful (fun id hid => same.lawfulAt (lawful id hid)) chain batch
  rw [engine_eq, Action.runOn_bind, (same.chosen chosen).runOn_resolve]
  exact ⟨outcome, same.trans same'⟩

/-! ## Hosts that cannot be told apart -/

/-- Sound hosts with the same setup. -/
def BothSound (p q : Host) : Prop := p.Sound ∧ p.SameSetup q

theorem BothSound.unlogged : Unlogged BothSound where
  environment h := h.2.environment
  candidate h := h.2.candidate
  of_log h _ _ := ⟨⟨h.1.backends, h.1.candidate⟩, h.2.of_log _ _⟩

theorem BothSound.alike_detect (config : Option Config) :
    Action.Alike BothSound (detect config) (detect config) := by
  rintro p q ⟨sound, same⟩
  obtain ⟨outcome, same'⟩ := Host.alike_detect config p q same
  exact ⟨outcome, sound.detect config, same'⟩

theorem BothSound.alike_resolve (pin : Option BackendId) :
    Action.Alike BothSound (resolve pin) (resolve pin) := by
  rintro p q ⟨sound, same⟩
  obtain ⟨outcome, same'⟩ := Host.alike_resolve pin p q same
  exact ⟨outcome, sound.after_resolve pin, same'⟩

theorem BothSound.alike_activeBackend : Action.Alike BothSound activeBackend activeBackend :=
  BothSound.alike_resolve none

/-- Neither the log of a sound host nor earlier offers show in what is compressed. -/
theorem BothSound.alike_engine (pin : Option BackendId) :
    Engine.Alike BothSound (engine pin) (engine pin) := by
  intro chain batch
  rw [engine_eq]
  refine .bind (BothSound.alike_resolve pin) fun choice => ?_
  rintro p q ⟨sound, same⟩
  have sound' := sound.of_sameSetup same
  obtain ⟨outcome, offered⟩ :=
    compressChosen_of_lawful (fun id (_ : id ∈ choice) => sound.backends id) chain batch
  obtain ⟨outcome', offered'⟩ :=
    compressChosen_of_lawful (fun id (_ : id ∈ choice) => sound'.backends id) chain batch
  refine ⟨outcome.trans outcome'.symm, sound.of_sameSetup offered.sameSetup, ?_⟩
  exact (offered.sameSetup.symm.trans same).trans offered'.sameSetup

/-! ## States in a sound host -/

namespace Sound

variable {s : State} {c : Content}

/-- **An update absorbs its input, or it fails and changes nothing that matters.** -/
theorem update (sound : p.Sound) (pin : Option BackendId) (holds : s.Holds c)
    (live : c.outlen ≠ 0) (data : Bytes) :
    ∃ outcome s' q, (State.update (engine pin) data).runOn s p = ((outcome, s'), q) ∧
      (outcome = .ok () ∧ s'.Holds (c.absorb data) ∨
        (∃ fault, outcome = .error fault) ∧ s'.Holds c) := by
  by_cases fits : c.input.length + data.length ≤ 64
  · obtain ⟨run, holds'⟩ := State.update_of_fits holds live fits (engine pin) p
    exact ⟨_, _, p, run, .inl ⟨rfl, holds'⟩⟩
  have long : 64 < c.input.length + data.length := by omega
  rcases resolves_or_failsAs pin p with resolves | ⟨fault, q, fails⟩
  · obtain ⟨s', q', run, -, holds'⟩ :=
      State.update_of_lawful (engine_settled pin) (sound.settled resolves) holds live data
    exact ⟨_, s', q', run, .inl ⟨rfl, holds'⟩⟩
  · obtain ⟨s', run, holds'⟩ := State.update_of_failsAt fails.failsAt holds live long
    exact ⟨_, s', q, run, .inr ⟨⟨fault, rfl⟩, holds'⟩⟩

/-- **Finishing finds out the active backend.** If that works, it returns the digest; if not, it fails
    in the same way. Apart from offers, the host is left as finding out leaves it. -/
theorem final (sound : p.Sound) (holds : s.Holds c) (live : c.outlen ≠ 0)
    (valid : outputLength c.outlen = .ok n) :
    ∃ s' q, (State.final (engine none) none).runOn s p
        = (((Action.runOn activeBackend p).1.map fun _ => c.lastChain.bytes.take n, s'), q) ∧
      (Action.runOn activeBackend p).2.SameButOffers q := by
  have live' : s.outlen ≠ 0 := by
    rw [holds.outlen]
    exact live
  have valid' : outputLength ((none : Option Int).getD s.outlen) = .ok n := by
    rw [holds.outlen]
    exact valid
  have unlimited : ¬(none : Option Nat).any (· < n) = true := nofun
  have after := sound.after_activeBackend
  rcases h : Action.runOn activeBackend p with ⟨fault | choice, q⟩
  · have fails : (engine none).FailsAt p fault q := failsAt_of_resolve h
    have run := State.finalWithin_of_failsAt fails live' valid' unlimited
    exact ⟨_, q, run, .refl q⟩
  · rw [h] at after
    have resolved : Action.runOn (resolve none) p = (.ok choice, q) := h
    have lawful := engine_lawful_of_chosen (chosen_of_resolve resolved)
      fun id _ => after.backends id
    have digest := Content.finished_of_ok (c := c) live none none valid nofun
    obtain ⟨q', run, offered⟩ := State.finalWithin_of_lawful lawful (.refl q) holds none none
    rw [digest] at run
    refine ⟨{}, q', ?_, offered⟩
    have same := runOn_engine_of_resolve resolved
    rw [State.final, State.finalWithin_congr same live' valid' unlimited]
    exact run

end Sound

end Host

end Blake2s
