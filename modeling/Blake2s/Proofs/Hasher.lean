import Blake2s.Proofs.Host.Sound
import Blake2s.Proofs.Parameters.Layout
import Blake2s.Proofs.State.Digest

set_option autoImplicit false

/-! # Hashers and their histories

A `History` is what a client knows of a hasher: the options it was made with, and all the input that
it took. What a hasher has to be to have a history is `History.Describes`. In a sound host every
hasher that is made has a history (`Hasher.new_of_sound`); an update that succeeds adds to the
history and one that fails keeps it, although it may change the state
(`Hasher.update_of_sound`); and the digest of a hasher is the one that its history tells
(`Hasher.digest_of_sound`). -/

namespace Blake2s

/-- What a hasher was made with, and the input it took. -/
structure History where
  options : Hasher.Options
  data : Bytes
  deriving DecidableEq, Repr

namespace History

/-- The history after more input. -/
def absorb (history : History) (data : Bytes) : History :=
  { history with data := history.data ++ data }

/-- What a state with this history has absorbed, key and all. -/
def content (history : History) (p : Parameters) : Content :=
  (State.ofParameters p history.options.lastNode).content.absorb
    (Standard.keyed history.options.key history.data)

/-- The digest by the standard. -/
def digest (history : History) (p : Parameters) : Bytes :=
  Standard.digest p.toBytes (Standard.keyed history.options.key history.data)
    history.options.lastNode history.options.digestSize.toNat

/-- Does a hasher have the given history, under the given parameters? -/
structure Describes (history : History) (p : Parameters) (hasher : Hasher) : Prop where
  parameters : Parameters.ofFields history.options.fields = .ok p
  digestSize : hasher.digestSize = p.digestLength.toNat
  holds : hasher.state.Holds (history.content p)

variable {history : History} {p : Parameters} {hasher : Hasher}

theorem content_absorb (history : History) (p : Parameters) (data : Bytes) :
    (history.absorb data).content p = (history.content p).absorb data := by
  unfold content absorb
  dsimp only
  rw [← Content.absorb_append, Standard.keyed_eq_append, ← List.append_assoc,
    ← Standard.keyed_eq_append]

theorem outlen_content (history : History) (p : Parameters) :
    (history.content p).outlen = p.digestLength.toNat := rfl

theorem live_content (history : History) (p : Parameters) : (history.content p).outlen ≠ 0 :=
  Nat.ne_of_gt p.digestLength_pos

/-- The length of the digest is the one asked for. -/
theorem Describes.digestLength (described : history.Describes p hasher) :
    p.digestLength.toNat = history.options.digestSize.toNat := by
  have fields := Parameters.fields_of_ofFields described.parameters
  have length : (p.digestLength.toNat : Int) = history.options.digestSize :=
    congrArg Parameters.Fields.digestLength fields
  omega

theorem Describes.bytes_lastChain (described : history.Describes p hasher) :
    (history.content p).lastChain.bytes.take p.digestLength.toNat = history.digest p := by
  rw [content, State.take_bytes_lastChain, described.digestLength]
  rfl

/-- Options that give a parameter block give one for their key. -/
theorem length_key {options : Hasher.Options} (h : Parameters.ofFields options.fields = .ok p) :
    options.key.length = p.keyLength.toNat := by
  have fields := Parameters.fields_of_ofFields h
  have length : (p.keyLength.toNat : Int) = options.key.length :=
    congrArg Parameters.Fields.keyLength fields
  omega

end History

namespace Hasher

variable {host : Host} (sound : host.Sound)

include sound

theorem new_of_sound (options : Options) (data : Bytes) :
    ∀ hasher q, Action.runOn (new (Host.engine none) options data) host = (.ok hasher, q) →
      ∃ p, History.Describes { options, data } p hasher := by
  intro hasher q run
  unfold new at run
  rw [Action.runOn_bind, Action.runOn_lift] at run
  cases made : Parameters.ofFields options.fields with
  | error fault =>
    rw [made] at run
    exact nomatch run
  | ok p =>
    have key := History.length_key made
    obtain ⟨s₁, run₁, holds₁⟩ :=
      State.start_holds {} key options.lastNode (Host.engine none) host
    have live : ((State.ofParameters p options.lastNode).content.absorb
        (Standard.keyed options.key [])).outlen ≠ 0 := History.live_content ⟨options, []⟩ p
    obtain ⟨outcome, s₂, q', run₂, absorbed⟩ := sound.update none holds₁ live data
    rw [made] at run
    dsimp only at run
    rw [Action.runOn_bind, HashM.runOn_evalFrom, HashM.runOn_bind, run₁] at run
    dsimp only at run
    rw [HashM.runOn_bind, run₂] at run
    rcases absorbed with ⟨rfl, holds₂⟩ | ⟨⟨fault, rfl⟩, -⟩
    · obtain ⟨⟨⟩, -⟩ := Prod.mk.inj run
      have content := History.content_absorb { options, data := [] } p data
      exact ⟨p, made, rfl, content ▸ holds₂⟩
    · exact nomatch run

variable {history : History} {p : Parameters} {hasher : Hasher}
  (described : history.Describes p hasher)

include described

theorem update_of_sound (data : Bytes) :
    ∃ outcome hasher' q,
      Action.runOn (ExceptT.lift (hasher.update (Host.engine none) data)) host
        = (.ok (outcome, hasher'), q) ∧
      (outcome = .ok () ∧ (history.absorb data).Describes p hasher' ∨
        (∃ fault, outcome = .error fault) ∧ history.Describes p hasher') := by
  obtain ⟨outcome, s', q, run, absorbed⟩ :=
    sound.update none described.holds (history.live_content p) data
  refine ⟨outcome, { hasher with state := s' }, q, ?_, ?_⟩
  · rw [runOn_update, run]
  · rcases absorbed with ⟨ok, holds⟩ | ⟨failed, holds⟩
    · refine .inl ⟨ok, described.parameters, described.digestSize, ?_⟩
      rw [History.content_absorb]
      exact holds
    · exact .inr ⟨failed, described.parameters, described.digestSize, holds⟩

/-- **The digest of a hasher is that of its history**, and getting it is for the host like finding out
    the active backend. -/
theorem digest_of_sound :
    ∃ q, Action.runOn (hasher.digest (Host.engine none)) host
        = ((Action.runOn Host.activeBackend host).1.map fun _ => history.digest p, q) ∧
      (Action.runOn Host.activeBackend host).2.SameButOffers q := by
  have valid : outputLength (history.content p).outlen = .ok p.digestLength.toNat := by
    rw [History.outlen_content]
    exact if_pos ⟨Int.ofNat_le.mpr p.digestLength_pos, Int.ofNat_le.mpr p.digestLength_le⟩
  obtain ⟨s', q, run, offered⟩ := sound.final described.holds (history.live_content p) valid
  refine ⟨q, ?_, offered⟩
  rw [digest, HashM.runOn_evalFrom, run, described.bytes_lastChain]

end Hasher

end Blake2s
