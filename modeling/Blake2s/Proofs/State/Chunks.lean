import Blake2s.Proofs.Host.Lawful
import Blake2s.Proofs.State.Content

set_option autoImplicit false

/-! # Input in chunks

How input is cut into chunks does not matter. Absorbing the chunks one by one leaves a state that
agrees with the one after absorbing all of it at once, in everything but leftover bytes of the
buffer, and states that agree cannot be told apart by what is done with them later
(`State.updates_agree`). That holds from any live state, whatever its chain, and through any backend
that is lawful. -/

namespace Blake2s

namespace State

/-! ## Agreement -/

/-- Do two states agree, except for what is left over in their buffers? -/
structure Agrees (s s' : State) : Prop where
  chain : s.chain = s'.chain
  filled : s.filled = s'.filled
  outlen : s.outlen = s'.outlen
  lastNode : s.lastNode = s'.lastNode
  input : s.buffer.toList.take s.filled = s'.buffer.toList.take s'.filled

theorem Holds.agrees {s s' : State} {c : Content} (h : s.Holds c) (h' : s'.Holds c) :
    s.Agrees s' := by
  have same : s.content = s'.content := h.content.trans h'.content.symm
  exact
    { chain := congrArg Content.chain same
      filled := h.length_input.symm.trans h'.length_input
      outlen := congrArg Content.outlen same
      lastNode := congrArg Content.lastNode same
      input := congrArg Content.input same }

/-! ## Later uses -/

/-- A use of a state: it absorbs input, or it is finished. -/
inductive Use where
  | update (data : Bytes)
  | final (requested : Option Int)
  deriving DecidableEq, Repr

variable {σ : Type}

/-- Carries out a use. Finishing returns a digest. -/
def Use.perform (engine : Engine σ) : Use → HashM σ (Option Bytes)
  | update data => do
    State.update engine data
    return none
  | final requested => do return some (← State.final engine requested)

/-- The outcomes of uses that come one after the other. -/
def outcomes (engine : Engine σ) : List Use → State → σ → List (Except Fault (Option Bytes))
  | [], _, _ => []
  | use :: uses, s, m =>
    let ((outcome, s), m) := (use.perform engine).runOn s m
    outcome :: outcomes engine uses s m

end State

namespace Content

open State (Use)

/-- What a use comes to: its outcome, and the content after it. A failed use changes nothing, and
    after a finish there is nothing left. -/
def use (c : Content) : Use → Except Fault (Option Bytes) × Content
  | .update data => if c.outlen = 0 then (.error .notLive, c) else (.ok none, c.absorb data)
  | .final requested =>
    match c.finished requested none with
    | .ok digest => (.ok (some digest), State.content {})
    | .error fault => (.error fault, c)

/-- The outcomes of uses that come one after the other. -/
def outcomes : List Use → Content → List (Except Fault (Option Bytes))
  | [], _ => []
  | use :: uses, c => (c.use use).1 :: outcomes uses (c.use use).2

end Content

namespace State

section Lawful

variable {σ : Type} {inv : σ → Prop} {e : Engine σ} (lawful : e.Lawful inv)

include lawful

/-- One use of a state is that use of its content. -/
theorem perform_of_lawful {s : State} {c : Content} {m : σ} (hm : inv m) (holds : s.Holds c)
    (use : Use) :
    ∃ s' m', (use.perform e).runOn s m = (((c.use use).1, s'), m') ∧ inv m' ∧
      s'.Holds (c.use use).2 := by
  cases use with
  | update data =>
    simp only [Use.perform, Content.use, HashM.runOn_bind]
    by_cases dead : c.outlen = 0
    · rw [update_of_eq (holds.outlen.trans dead), if_pos dead]
      exact ⟨s, m, rfl, hm, holds⟩
    · obtain ⟨s', m', run, hm', holds'⟩ := update_of_lawful lawful hm holds dead data
      rw [run, if_neg dead]
      exact ⟨s', m', rfl, hm', holds'⟩
  | final requested =>
    obtain ⟨m', run, hm'⟩ := finalWithin_of_lawful lawful hm holds requested none
    simp only [Use.perform, Content.use, final, HashM.runOn_bind, run]
    cases c.finished requested none with
    | ok digest => exact ⟨{}, m', rfl, hm', ⟨rfl, Nat.zero_le 64⟩⟩
    | error fault => exact ⟨s, m', rfl, hm', holds⟩

/-- So a state shows no more than its content. -/
theorem outcomes_of_lawful {s : State} {c : Content} {m : σ} (hm : inv m) (holds : s.Holds c)
    (uses : List Use) : outcomes e uses s m = c.outcomes uses := by
  induction uses generalizing s c m with
  | nil => rfl
  | cons use uses ih =>
    obtain ⟨s', m', run, hm', holds'⟩ := perform_of_lawful lawful hm holds use
    unfold outcomes Content.outcomes
    rw [run]
    exact congrArg ((c.use use).1 :: ·) (ih hm' holds')

end Lawful

/-- **How input is cut into chunks does not matter.** From any live state, absorbing chunks one by
    one and absorbing all of them at once both succeed and leave states that agree, and all later
    updates and finishes have the same outcomes from both. -/
theorem updates_agree {pin : Option BackendId} {host : Host} (settled : host.Settled pin)
    {s : State} (live : s.outlen ≠ 0) (fits : s.filled ≤ blockBytes) (chunks : List Bytes) :
    ∃ s₁ s₂ host₁ host₂,
      HashM.runOn (chunks.forM (update (Host.engine pin))) s host = ((.ok (), s₁), host₁) ∧
      HashM.runOn (update (Host.engine pin) chunks.flatten) s host = ((.ok (), s₂), host₂) ∧
      s₁.Agrees s₂ ∧
      ∀ uses, outcomes (Host.engine pin) uses s₁ host₁
        = outcomes (Host.engine pin) uses s₂ host₂ := by
  have lawful := Host.engine_settled pin
  have holds : s.Holds s.content := ⟨rfl, fits⟩
  obtain ⟨s₁, host₁, run₁, settled₁, holds₁⟩ :=
    forM_update_of_lawful lawful settled holds live chunks
  obtain ⟨s₂, host₂, run₂, settled₂, holds₂⟩ :=
    update_of_lawful lawful settled holds live chunks.flatten
  refine ⟨s₁, s₂, host₁, host₂, run₁, run₂, holds₁.agrees holds₂, ?_⟩
  intro uses
  rw [outcomes_of_lawful lawful settled₁ holds₁, outcomes_of_lawful lawful settled₂ holds₂]

/-- From a full buffer, with a flag set and a counter about to wrap, through a vectorized backend. -/
theorem updates_agree_full_buffer :
    let host : Host := { backends := #[{ backend := .vectorized 1 }] }
    let s : State :=
      { chain := { t := { lo := 0xFFFFFFC0, hi := 0xFFFFFFFF }, f := { lastBlock := wordMask } }
        filled := 64
        outlen := 32 }
    host.Settled (some 0) ∧ s.outlen ≠ 0 ∧ s.filled ≤ blockBytes ∧
      ∃ s₁ s₂ host₁ host₂,
        HashM.runOn ([[1], [], Bytes.zeros 128].forM (update (Host.engine (some 0)))) s host
          = ((.ok (), s₁), host₁) ∧
        HashM.runOn (update (Host.engine (some 0)) [[1], [], Bytes.zeros 128].flatten) s host
          = ((.ok (), s₂), host₂) ∧
        s₁.Agrees s₂ ∧
        ∀ uses, outcomes (Host.engine (some 0)) uses s₁ host₁
          = outcomes (Host.engine (some 0)) uses s₂ host₂ := by
  intro host s
  have settled : host.Settled (some 0) :=
    Host.settled_of_pinned (i := { backend := .vectorized 1 }) rfl (Backend.vectorized_lawful 1)
  have live : s.outlen ≠ 0 := nofun
  have fits : s.filled ≤ blockBytes := Nat.le_refl 64
  exact ⟨settled, live, fits, updates_agree settled live fits [[1], [], Bytes.zeros 128]⟩

end State

end Blake2s
