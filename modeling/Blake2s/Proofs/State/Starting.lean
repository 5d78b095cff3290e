import Blake2s.Proofs.Parameters.Layout
import Blake2s.Proofs.State.Digest

set_option autoImplicit false

/-! # Starting a state over

An initialization is refused, and then the state is as it was, or it gives the state a content that
depends on its arguments alone: what the state held before is gone, and the engine is not asked
(`HashM.Starts`). A state may be initialized to every valid output length, with every key of a valid
length (`State.started_init`, `State.started_initKeyed`). -/

namespace Blake2s

variable {σ : Type}

/-- What a state holds right after it was initialized. -/
def Content.started (p : Parameters) (key : Bytes) (lastNode : Bool) : Content :=
  (State.ofParameters p lastNode).content.absorb (Standard.keyed key [])

theorem Content.input_started (p : Parameters) (key : Bytes) (lastNode : Bool) :
    (Content.started p key lastNode).input = Block.held (Standard.keyed key []) := rfl

/-- Without a key there is no input yet. -/
theorem Content.input_started_nil (p : Parameters) (lastNode : Bool) :
    (Content.started p [] lastNode).input = [] := by
  rw [input_started, Standard.keyed, if_pos rfl]
  rfl

namespace HashM

/-- An operation that starts every state over, under the given parameters and key. -/
def Started (x : HashM σ Unit) (p : Parameters) (key : Bytes) (lastNode : Bool) : Prop :=
  ∀ s m, ∃ s', x.runOn s m = ((.ok (), s'), m) ∧ s'.Holds (Content.started p key lastNode)

/-- An operation that is refused and changes nothing. -/
def Refused (x : HashM σ Unit) (fault : Fault) : Prop := ∀ s m, x.runOn s m = ((.error fault, s), m)

/-- An operation that starts a state over or is refused, whatever the state is. -/
inductive Starts (x : HashM σ Unit) (key : Bytes) : Prop where
  | started (p : Parameters) (lastNode : Bool) (run : x.Started p key lastNode)
  | refused (fault : Fault) (run : x.Refused fault)

end HashM

/-! ## Fields for a digest length and a key length -/

/-- What a caller may ask for in one call, without a parameter block, can be had. -/
theorem Parameters.exists_of_lengths {digest key : Int} (hdigest : 1 ≤ digest ∧ digest ≤ outBytes)
    (hkey : 0 ≤ key ∧ key ≤ keyBytes) :
    ∃ p, ofFields { digestLength := digest, keyLength := key } = .ok p ∧
      p.digestLength.toNat = digest.toNat ∧ p.keyLength.toNat = key.toNat := by
  have inRange (field : Field) :
      ({ digestLength := digest, keyLength := key } : Fields).InRange field := by
    cases field with
    | digestLength => exact hdigest
    | keyLength => exact hkey
    | _ =>
      simp [Fields.InRange, Limit.Admits, Limit.least, Limit.greatest, Fields.measure, Field.limit]
  obtain ⟨p, made⟩ := exists_ofFields inRange
  have fields := fields_of_ofFields made
  have digestLength : (p.digestLength.toNat : Int) = digest := congrArg Fields.digestLength fields
  have keyLength : (p.keyLength.toNat : Int) = key := congrArg Fields.keyLength fields
  exact ⟨p, made, by omega, by omega⟩

theorem outputLength_eq_ok {n : Int} (h : 1 ≤ n ∧ n ≤ outBytes) : outputLength n = .ok n.toNat :=
  if_pos h

theorem outputLength_eq_error {n : Int} (h : ¬(1 ≤ n ∧ n ≤ outBytes)) :
    outputLength n = .error .outputLength :=
  if_neg h

/-! ## Initializations -/

namespace State

variable {e : Engine σ}

theorem started_start {p : Parameters} {key : Bytes} (hkey : key.length = p.keyLength.toNat)
    (lastNode : Bool) : (start e p key lastNode).Started p key lastNode :=
  fun s m => start_holds s hkey lastNode e m

theorem refused_start {p : Parameters} {key : Bytes} (hkey : key.length ≠ p.keyLength.toNat)
    (lastNode : Bool) : (start e p key lastNode).Refused .keyMismatch := by
  intro s m
  rw [start, if_pos hkey, HashM.runOn_bind, HashM.runOn_throw]

theorem starts_start (p : Parameters) (key : Bytes) (lastNode : Bool) :
    (start e p key lastNode).Starts key := by
  by_cases hkey : key.length = p.keyLength.toNat
  · exact .started p lastNode (started_start hkey lastNode)
  · exact .refused .keyMismatch (refused_start hkey lastNode)

theorem init_eq_start {outlen : Int} (h : 1 ≤ outlen ∧ outlen ≤ outBytes) {p : Parameters}
    (made : Parameters.ofFields { digestLength := outlen } = .ok p) {τ : Type} (e : Engine τ) :
    init e outlen = start e p [] false := by
  refine HashM.ext fun s m => ?_
  simp only [init, HashM.runOn_bind, outputLength_eq_ok h, HashM.runOn_lift, made]

/-- An unkeyed state is started under a parameter block of the given length. -/
theorem exists_init_eq_start {outlen : Int} (h : 1 ≤ outlen ∧ outlen ≤ outBytes) :
    ∃ p : Parameters, p.digestLength.toNat = outlen.toNat ∧ p.keyLength.toNat = 0 ∧
      ∀ {τ : Type} (e : Engine τ), init e outlen = start e p [] false := by
  have unkeyed : 0 ≤ (0 : Int) ∧ (0 : Int) ≤ keyBytes := by decide
  obtain ⟨p, made, digestLength, keyLength⟩ := Parameters.exists_of_lengths h unkeyed
  exact ⟨p, digestLength, keyLength, init_eq_start h made⟩

theorem started_init {outlen : Int} (h : 1 ≤ outlen ∧ outlen ≤ outBytes) :
    ∃ p : Parameters, p.digestLength.toNat = outlen.toNat ∧ (init e outlen).Started p [] false := by
  obtain ⟨p, digestLength, keyLength, started⟩ := exists_init_eq_start h
  have hkey : ([] : Bytes).length = p.keyLength.toNat := keyLength.symm
  refine ⟨p, digestLength, ?_⟩
  rw [started]
  exact started_start hkey false

theorem refused_init {outlen : Int} (h : ¬(1 ≤ outlen ∧ outlen ≤ outBytes)) :
    (init e outlen).Refused .outputLength := by
  intro s m
  simp only [init, HashM.runOn_bind, outputLength_eq_error h, HashM.runOn_lift]

theorem starts_init (outlen : Int) : (init e outlen).Starts [] := by
  by_cases h : 1 ≤ outlen ∧ outlen ≤ outBytes
  · obtain ⟨p, -, run⟩ := started_init h
    exact .started p false run
  · exact .refused .outputLength (refused_init h)

theorem initKeyed_eq_start {outlen : Int} (h : 1 ≤ outlen ∧ outlen ≤ outBytes) {key : Bytes}
    (hkey : ¬(key.length < 1 ∨ keyBytes < key.length)) {p : Parameters}
    (made : Parameters.ofFields { digestLength := outlen, keyLength := key.length } = .ok p)
    {τ : Type} (e : Engine τ) : initKeyed e outlen key = start e p key false := by
  refine HashM.ext fun s m => ?_
  simp only [initKeyed, HashM.runOn_bind, outputLength_eq_ok h, HashM.runOn_lift, if_neg hkey, made]

/-- A keyed state is started under a parameter block of the given lengths. -/
theorem exists_initKeyed_eq_start {outlen : Int} (h : 1 ≤ outlen ∧ outlen ≤ outBytes) {key : Bytes}
    (hkey : ¬(key.length < 1 ∨ keyBytes < key.length)) :
    ∃ p : Parameters, p.digestLength.toNat = outlen.toNat ∧ p.keyLength.toNat = key.length ∧
      ∀ {τ : Type} (e : Engine τ), initKeyed e outlen key = start e p key false := by
  have inRange : 0 ≤ (key.length : Int) ∧ (key.length : Int) ≤ keyBytes := by omega
  obtain ⟨p, made, digestLength, keyLength⟩ := Parameters.exists_of_lengths h inRange
  exact ⟨p, digestLength, keyLength, initKeyed_eq_start h hkey made⟩

theorem started_initKeyed {outlen : Int} (h : 1 ≤ outlen ∧ outlen ≤ outBytes) {key : Bytes}
    (hkey : ¬(key.length < 1 ∨ keyBytes < key.length)) :
    ∃ p : Parameters, p.digestLength.toNat = outlen.toNat ∧
      (initKeyed e outlen key).Started p key false := by
  obtain ⟨p, digestLength, keyLength, started⟩ := exists_initKeyed_eq_start h hkey
  refine ⟨p, digestLength, ?_⟩
  rw [started]
  exact started_start keyLength.symm false

theorem refused_initKeyed {outlen : Int} (h : ¬(1 ≤ outlen ∧ outlen ≤ outBytes)) (key : Bytes) :
    (initKeyed e outlen key).Refused .outputLength := by
  intro s m
  simp only [initKeyed, HashM.runOn_bind, outputLength_eq_error h, HashM.runOn_lift]

/-- The key is looked at once the output length has been. -/
theorem refused_initKeyed_of_key {outlen : Int} (h : 1 ≤ outlen ∧ outlen ≤ outBytes) {key : Bytes}
    (hkey : key.length < 1 ∨ keyBytes < key.length) :
    (initKeyed e outlen key).Refused .keyLength := by
  intro s m
  simp only [initKeyed, HashM.runOn_bind, outputLength_eq_ok h, HashM.runOn_lift, if_pos hkey,
    HashM.runOn_throw]

theorem starts_initKeyed (outlen : Int) (key : Bytes) : (initKeyed e outlen key).Starts key := by
  by_cases h : 1 ≤ outlen ∧ outlen ≤ outBytes
  · by_cases hkey : key.length < 1 ∨ keyBytes < key.length
    · exact .refused .keyLength (refused_initKeyed_of_key h hkey)
    · obtain ⟨p, -, run⟩ := started_initKeyed h hkey
      exact .started p false run
  · exact .refused .outputLength (refused_initKeyed h key)

end State

/-! ## Ways to initialize a state -/

/-- A way to initialize a state. -/
inductive Setup where
  | plain (outlen : Int)
  | keyed (outlen : Int) (key : Bytes)
  | parameters (p : Parameters) (key : Bytes) (lastNode : Bool)

namespace Setup

def key : Setup → Bytes
  | plain _ => []
  | keyed _ key | parameters _ key _ => key

def apply (e : Engine σ) : Setup → HashM σ Unit
  | plain outlen => State.init e outlen
  | keyed outlen key => State.initKeyed e outlen key
  | parameters p key lastNode => State.start e p key lastNode

theorem starts (e : Engine σ) (setup : Setup) : (setup.apply e).Starts setup.key := by
  cases setup with
  | plain outlen => exact State.starts_init outlen
  | keyed outlen key => exact State.starts_initKeyed outlen key
  | parameters p key lastNode => exact State.starts_start p key lastNode

/-- No engine is asked in order to initialize a state. -/
theorem memory_apply (e : Engine σ) (setup : Setup) (s : State) (m : σ) :
    ((setup.apply e).runOn s m).2 = m := by
  cases setup.starts e with
  | started p lastNode run =>
    obtain ⟨s', run, -⟩ := run s m
    rw [run]
  | refused fault run => rw [run s m]

/-- An initialization that succeeds leaves a live state whose input is the key block. -/
theorem of_apply {e : Engine σ} {setup : Setup} {s s' : State} {m m' : σ}
    (run : (setup.apply e).runOn s m = ((.ok (), s'), m')) :
    s'.outlen ≠ 0 ∧ s'.filled ≤ 64 ∧ s'.content.input = Block.held (Standard.keyed setup.key []) := by
  cases setup.starts e with
  | started p lastNode started =>
    obtain ⟨s₁, run₁, holds⟩ := started s m
    obtain ⟨⟨-, rfl⟩, -⟩ := Prod.mk.inj (run₁.symm.trans run) |>.imp_left Prod.mk.inj
    refine ⟨?_, holds.fits, ?_⟩
    · rw [holds.outlen]
      exact Nat.ne_of_gt p.digestLength_pos
    · rw [holds.content]
      rfl
  | refused fault refused =>
    rw [refused s m] at run
    exact nomatch run

/-- A key that is too long is refused. -/
theorem length_key_le {e : Engine σ} {setup : Setup} {s s' : State} {m m' : σ}
    (run : (setup.apply e).runOn s m = ((.ok (), s'), m')) : setup.key.length ≤ keyBytes := by
  cases setup with
  | plain outlen => exact Nat.zero_le keyBytes
  | keyed outlen key =>
    by_cases fits : key.length ≤ keyBytes
    · exact fits
    · have refused : key.length < 1 ∨ keyBytes < key.length := .inr (Nat.lt_of_not_le fits)
      simp only [apply, State.initKeyed, HashM.runOn_bind, HashM.runOn_lift, if_pos refused,
        HashM.runOn_throw] at run
      cases h : outputLength outlen with
      | ok n =>
        rw [h] at run
        exact nomatch run
      | error fault =>
        rw [h] at run
        exact nomatch run
  | parameters p key lastNode =>
    by_cases fits : key.length = p.keyLength.toNat
    · exact fits ▸ p.keyLength_le
    · have refused := State.refused_start (e := e) fits lastNode s m
      exact nomatch refused.symm.trans run

end Setup

end Blake2s
