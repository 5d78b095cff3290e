import Blake2s.Proofs.Host.Sound
import Blake2s.Proofs.Host.Verdict
import Mathlib.Logic.Function.Iterate

set_option autoImplicit false

/-! # Asking for the active backend again and again

States without a pin ask their host for the active backend whenever they compress. The first one that
asks may have it detected; but who asks first does not matter, since the answer, or the fault, is the
same every time (`Host.found_asked`). What asking does to the host depends only on how often it is
done: `Host.after` is the host after a number of times. So whatever is computed through the engine of
a sound host is computed just as well without the host, by the generic compression or by the fault, as
long as the number of times is kept (`Host.alike_counting`). -/

namespace Blake2s

/-- The generic compression, or the fault in its place, with a memory of how often it was asked. -/
def Engine.counting {α : Type} (found : Except Fault α) : Engine Nat := fun chain batch => do
  modify (· + 1)
  let _ ← liftM found
  return chain.compress batch

theorem Engine.runOn_counting {α : Type} (found : Except Fault α) (chain : Chain) (batch : Batch)
    (n : Nat) :
    Action.runOn (counting found chain batch) n
      = (found.map fun _ => chain.compress batch, n + 1) := by
  cases found <;> rfl

namespace Host

variable {p q r : Host}

theorem SameButOffers.symm (h : p.SameButOffers q) : q.SameButOffers p :=
  ⟨h.environment.symm, h.candidate.symm, fun id => (h.backends id).symm, h.selection.symm,
    h.log.symm⟩

theorem SameButOffers.reported (same : p.SameButOffers q) (events : List Event) :
    (p.reported events).SameButOffers (q.reported events) where
  environment := same.environment
  candidate := same.candidate
  backends := same.backends
  selection := same.selection
  log := congrArg (· ++ events) same.log

theorem SameButOffers.adopted (same : p.SameButOffers q) (choice : Option Backend.Instance) :
    (p.adopted choice).SameButOffers (q.adopted choice) := by
  have setup := same.sameSetup.adopted choice
  refine ⟨setup.environment, setup.candidate, setup.backends, setup.selection, ?_⟩
  cases choice with
  | none => exact congrArg (· ++ _) same.log
  | some i => exact congrArg (· ++ _) same.log

/-- What a detection comes to does not depend on earlier offers, nor does what it reports. -/
theorem SameButOffers.alike_detect (config : Option Config) :
    Action.Alike SameButOffers (detect config) (detect config) := by
  intro p q same
  rw [runOn_detect_verdict, runOn_detect_verdict, same.environment, same.candidate,
    same.sameSetup.size_eq]
  rcases verdict p.environment p.candidate config with ⟨_ | choice, events⟩
  · exact ⟨rfl, same.reported events⟩
  · exact ⟨rfl, (same.reported events).adopted choice⟩

theorem SameButOffers.alike_activeBackend :
    Action.Alike SameButOffers activeBackend activeBackend :=
  alike_activeBackend_of (fun same => same.selection) fun p q same _ =>
    SameButOffers.alike_detect none p q same

/-! ## Asking -/

/-- The host after it was asked for the active backend. -/
def asked (p : Host) : Host := (Action.runOn activeBackend p).2

/-- By what states with the given pin compress, or why that cannot be found out. -/
def found (p : Host) (pin : Option BackendId) : Except Fault (Option BackendId) :=
  (Action.runOn (resolve pin) p).1

/-- **Asking again gives the same answer**, also if the first detection fails. -/
theorem found_asked (p : Host) : p.asked.found none = p.found none := by
  change (Action.runOn activeBackend (Action.runOn activeBackend p).2).1
    = (Action.runOn activeBackend p).1
  cases known : p.selection with
  | detected id =>
    have asked : Action.runOn activeBackend p = (.ok id, p) := by rw [runOn_activeBackend, known]
    rw [asked]
    exact congrArg Prod.fst asked
  | undetected =>
    have detected : Action.runOn activeBackend p = Action.runOn (detect none) p := by
      rw [runOn_activeBackend, known]
    rcases run : Action.runOn (detect none) p with ⟨fault | choice, q⟩
    · -- the reports of the failure have no part in the next detection
      have same := sameButLog_of_detect_error run
      have still : q.selection = .undetected := same.selection.trans known
      have again := (SameButLog.alike_detect none p q same).1
      rw [run] at again
      rw [detected, run, runOn_activeBackend, still]
      exact again.symm
    · have selected := selection_of_detect run
      rw [detected, run, runOn_activeBackend, selected]

/-- The host after it was asked for the active backend a number of times. -/
def after (p : Host) (n : Nat) : Host := asked^[n] p

theorem after_succ (p : Host) (n : Nat) : p.after (n + 1) = (p.after n).asked :=
  Function.iterate_succ_apply' asked n p

theorem found_after (p : Host) (n : Nat) : (p.after n).found none = p.found none := by
  induction n with
  | zero => rfl
  | succ n ih => rw [after_succ, found_asked, ih]

theorem Sound.after (sound : p.Sound) (n : Nat) : (p.after n).Sound := by
  induction n with
  | zero => exact sound
  | succ n ih =>
    rw [after_succ]
    exact ih.after_activeBackend

/-! ## Compressing -/

/-- How often a host is asked when states with the given pin compress a number of times. -/
def asks : (pin : Option BackendId) → Nat → Nat
  | none, k => k
  | some _, _ => 0

theorem asks_add (pin : Option BackendId) (k l : Nat) : asks pin (k + l) = asks pin k + asks pin l := by
  cases pin <;> rfl

/-- **Compressing in a sound host** is compressing generically, or failing every time for the same
    fault, and asking the host so many times. -/
theorem alike_counting (sound : p.Sound) (n : Nat) (pin : Option BackendId) :
    Engine.Alike (fun k m => (p.after (n + asks pin k)).SameButOffers m)
      (Engine.counting (p.found pin)) (engine pin) := by
  intro chain batch k m same
  have sound' : m.Sound := (sound.after _).of_sameSetup same.sameSetup
  have resolved : (Action.runOn (resolve pin) m).1 = p.found pin ∧
      (p.after (n + asks pin (k + 1))).SameButOffers (Action.runOn (resolve pin) m).2 := by
    cases pin with
    | some id => exact ⟨rfl, same⟩
    | none =>
      obtain ⟨outcome, memory⟩ := SameButOffers.alike_activeBackend _ m same
      have next : p.after (n + asks none (k + 1)) = (p.after (n + asks none k)).asked :=
        p.after_succ (n + k)
      rw [next]
      exact ⟨outcome.symm.trans (p.found_after _), memory⟩
  obtain ⟨outcome, memory⟩ := resolved
  have after := sound'.after_resolve pin
  rw [Engine.runOn_counting, engine_eq, Action.runOn_bind, ← outcome]
  rcases run : Action.runOn (resolve pin) m with ⟨fault | choice, m'⟩
  · rw [run] at memory
    exact ⟨rfl, memory⟩
  · rw [run] at memory after
    obtain ⟨compressed, offered⟩ :=
      compressChosen_of_lawful (fun id (_ : id ∈ choice) => after.backends id) chain batch
    exact ⟨compressed.symm, memory.trans offered⟩

/-- Hosts with generic and vectorized backends only are sound, also where the vectorized backend does
    not work. -/
theorem sound_of_known (backends : ∀ i ∈ p.backends, i.backend = .generic ∨
      ∃ minBlocks, i.backend = .vectorized minBlocks)
    (candidate : p.candidate = .vectorized ∨ p.candidate = .unavailable) : p.Sound where
  backends id b hb := by
    obtain ⟨i, found, rfl⟩ := Option.map_eq_some_iff.mp hb
    obtain generic | ⟨minBlocks, vectorized⟩ := backends i (Array.mem_of_getElem? found)
    · rw [generic]
      exact Backend.generic_lawful
    · rw [vectorized]
      exact Backend.vectorized_lawful minBlocks
  candidate minBlocks := by
    rcases candidate with real | unavailable
    · rw [real]
      exact Backend.vectorized_lawful minBlocks
    · rw [unavailable]
      exact Backend.vectorized_lawful minBlocks

end Host

end Blake2s
