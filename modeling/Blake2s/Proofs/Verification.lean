import Blake2s.Proofs.Host.Resolving
import Blake2s.Proofs.Mac

set_option autoImplicit false

/-! # Which tags are accepted

A tag is checked by computing it again, to the length that it has. Tags of different lengths are the
first bytes of one code (`Mac.runOn_tag`), so a tag is accepted exactly if it is a truncation of the
full one (`Mac.verify_ok_iff`). The lengths that are checked for are the lengths that a tag can be
computed to; that is why a tag which is not accepted is never anything but a failed verification.
Computing the code does not fail once it is found out by what to compress, be the backend right or
wrong (`Mac.fullTag_of_total`). -/

namespace Blake2s.Mac

variable {σ : Type} {e : Engine σ} {m m' : σ}

/-! ## The code is computed without fail -/

section Total

variable {inv : σ → Prop} (total : e.Total inv) (hm : inv m)

include total hm

theorem hashInto_of_total (s : State) (pieces : List Bytes) {out : Bytes}
    (room : outBytes ≤ out.length) :
    ∃ out' s' m', (hashInto e pieces out).runOn s m = ((.ok out', s'), m') ∧ inv m' ∧
      outBytes ≤ out'.length := by
  have whole : 1 ≤ (outBytes : Int) ∧ (outBytes : Int) ≤ outBytes := by decide
  have enough : ¬(some out.length).any (· < outBytes) = true := by simpa using room
  obtain ⟨p, -, started⟩ := State.started_init (e := e) whole
  obtain ⟨_, s₁, m₁, run₁, usable₁, hm₁⟩ := State.succeeds_of_started started s m trivial hm
  obtain ⟨_, s₂, m₂, run₂, usable₂, hm₂⟩ :=
    HashM.Succeeds.forM (l := pieces) (fun piece _ => State.succeeds_update total piece) s₁ m₁
      usable₁ hm₁
  obtain ⟨digest, m₃, run₃, hm₃⟩ := State.finish_of_total total hm₂ s₂ outBytes
  have valid : outputLength ((some (outBytes : Int)).getD s₂.outlen) = .ok outBytes :=
    outputLength_eq_ok whole
  have finished := State.runOn_finalWithin (e := e) usable₂.live valid enough m₂
  rw [run₃] at finished
  refine ⟨out.overwrite digest, {}, m₃, ?_, hm₃, ?_⟩
  · simp only [hashInto, HashM.runOn_bind, run₁, run₂, State.finalInto_eq_map, HashM.runOn_lift_map,
      finished]
    rfl
  · rw [Bytes.length_overwrite]
    exact Nat.le_trans room (Nat.le_max_left _ _)

theorem blockKey_of_total (s : State) (key : Bytes) :
    ∃ block s' m', (blockKey e key).runOn s m = ((.ok block, s'), m') ∧ inv m' := by
  unfold blockKey
  split
  · have room : outBytes ≤ (Bytes.zeros blockBytes).length := by
      rw [Bytes.length_zeros]
      decide
    obtain ⟨block, s', m', run, hm', -⟩ := hashInto_of_total total hm s [key] room
    exact ⟨block, s', m', run, hm'⟩
  · exact ⟨_, s, m, rfl, hm⟩

theorem fullTag_of_total (message key : Bytes) :
    ∃ full m', Action.runOn (fullTag e message key) m = (.ok full, m') ∧ inv m' := by
  obtain ⟨block, s₁, m₁, run₁, hm₁⟩ := blockKey_of_total total hm {} key
  obtain ⟨inner, s₂, m₂, run₂, hm₂, room⟩ := hashInto_of_total total hm₁ s₁
    [block.mask innerPad, message] (Nat.le_of_eq (Bytes.length_zeros outBytes).symm)
  obtain ⟨outer, s₃, m₃, run₃, hm₃, -⟩ := hashInto_of_total total hm₂ s₂
    [(block.mask innerPad).mask (outerPad ^^^ innerPad), inner] room
  refine ⟨outer, m₃, ?_, hm₃⟩
  rw [fullTag, HashM.runOn_evalFrom]
  simp only [HashM.runOn_bind, run₁, run₂, run₃]

end Total

/-! ## Tags are truncated codes -/

section Computed

variable {message key full : Bytes} (run : Action.runOn (fullTag e message key) m = (.ok full, m'))

include run

theorem runOn_tag {length : Int} (h : 1 ≤ length ∧ length ≤ outBytes) :
    Action.runOn (tag e message key length) m = (.ok (full.take length.toNat), m') := by
  simp only [tag, tagWithin, Action.runOn_bind, Action.runOn_lift, outputLength_eq_ok h,
    Option.any_none, Bool.false_eq_true, if_false, run, Action.runOn_pure]

/-- The length is checked first, then the bytes. -/
theorem runOn_verify (given : Bytes) :
    (Action.runOn (verify e given message key) m).1
      = if given.length < 1 ∨ outBytes < given.length then .error .tagLength
        else if full.take given.length ≠ given then .error .tagMismatch
        else .ok () := by
  unfold verify
  by_cases outside : given.length < 1 ∨ outBytes < given.length
  · simp only [if_pos outside, Action.runOn_bind, Action.runOn_throw]
  · have inside : 1 ≤ (given.length : Int) ∧ (given.length : Int) ≤ outBytes := by omega
    have computed := runOn_tag run inside
    rw [Int.toNat_natCast] at computed
    simp only [if_neg outside, Action.runOn_bind, computed]
    split <;> rfl

theorem accepted_iff (given : Bytes) :
    (Action.runOn (verify e given message key) m).1 = .ok () ↔
      (1 ≤ given.length ∧ given.length ≤ outBytes) ∧
        given = (full.take outBytes).take given.length := by
  rw [runOn_verify run]
  by_cases outside : given.length < 1 ∨ outBytes < given.length
  · rw [if_pos outside]
    exact iff_of_false nofun fun accepted => by omega
  · have inside : 1 ≤ given.length ∧ given.length ≤ outBytes := by omega
    rw [if_neg outside, List.take_take, Nat.min_eq_left inside.2]
    by_cases same : full.take given.length = given
    · rw [if_neg (not_not.mpr same)]
      exact iff_of_true rfl ⟨inside, same.symm⟩
    · rw [if_pos same]
      exact iff_of_false nofun fun accepted => same accepted.2.symm

/-- The length of a tag never comes up as a fault of another kind. -/
theorem kind_of_refused {given : Bytes} {fault : Fault}
    (refused : (Action.runOn (verify e given message key) m).1 = .error fault) :
    fault.kind = .verification := by
  rw [runOn_verify run] at refused
  split at refused
  · cases refused
    rfl
  · split at refused
    · cases refused
      rfl
    · exact nomatch refused

end Computed

/-! ## Verification in a host -/

/-- **A tag is accepted exactly if it is a truncation of the true tag** to a length of 1 to 32
    bytes. Every other tag is refused by a verification error, whatever its length. All that it
    takes is that the backend is found out without fail; if it is lawful, the true tag is HMAC as
    RFC 2104 has it. -/
theorem verify_ok_iff {host : Host} (resolves : host.Resolves none) (given message key : Bytes) :
    let outcome := (Action.runOn (verify (Host.engine none) given message key) host).1
    ∃ full, (Action.runOn (tag (Host.engine none) message key outBytes) host).1 = .ok full ∧
      (outcome = .ok () ↔
        (1 ≤ given.length ∧ given.length ≤ outBytes) ∧ given = full.take given.length) ∧
      (outcome ≠ .ok () → ∃ fault, outcome = .error fault ∧ fault.kind = .verification) ∧
      (host.Settled none → full = Standard.mac key message) := by
  intro outcome
  obtain ⟨code, host', run, -⟩ := fullTag_of_total (Host.engine_total none) resolves message key
  have whole : 1 ≤ (outBytes : Int) ∧ (outBytes : Int) ≤ outBytes := by decide
  have computed := congrArg Prod.fst (runOn_tag run whole)
  rw [Int.toNat_natCast] at computed
  have standard (settled : host.Settled none) : code.take outBytes = Standard.mac key message := by
    obtain ⟨_, run', -⟩ := fullTag_of_lawful (Host.engine_settled none) settled message key
    rw [run] at run'
    cases run'
    exact List.take_of_length_le (Nat.le_of_eq (Standard.length_mac key message))
  refine ⟨code.take outBytes, computed, accepted_iff run given, fun refused => ?_, standard⟩
  rcases verified : outcome with fault | _
  · exact ⟨fault, rfl, kind_of_refused run verified⟩
  · exact absurd verified refused

/-- A tag of twenty bytes, in a host that has not detected a backend yet. -/
theorem verify_ok_iff_truncated :
    let given := (Standard.mac [1] [2, 3]).take 20
    ({} : Host).Resolves none ∧
      (Action.runOn (verify (Host.engine none) given [2, 3] [1]) {}).1 = .ok () := by
  intro given
  have settled := Host.settled_fresh
  have resolves : ({} : Host).Resolves none := ⟨_, _, rfl⟩
  obtain ⟨full, -, accepted, -, standard⟩ := verify_ok_iff resolves given [2, 3] [1]
  have length : given.length = 20 := by
    rw [List.length_take, Standard.length_mac]
    rfl
  refine ⟨resolves, accepted.mpr ⟨?_, ?_⟩⟩
  · rw [length]
    decide
  · rw [length, standard settled]

end Blake2s.Mac
