import Blake2s.Proofs.Hasher
import Blake2s.Proofs.Session.Hashers
import Mathlib.Logic.Function.Basic

set_option autoImplicit false

/-! # Histories of the hashers of a run

A backend may be detected again and again in a run, and a detection may fail in the middle of a call.
`HasherCall.record` keeps the histories of the hashers from what a client sees: an update counts if it
returned. In all that a run can reach, each hasher has the history that is kept for it
(`Recorded.Sound.next`). So a digest is always right (`Recorded.digest_of_history`).

Taking a digest leaves the hashers as they are. It may be what makes the host detect its backend,
though, and then that is what the host goes on with: for all later calls taking a digest is like asking
for the active backend, no less and no more; the second half of `Recorded.digest_of_history` says so. -/

namespace Blake2s

/-- A session, and the histories of its hashers. -/
structure Recorded where
  session : Session := {}
  histories : String → Option History := fun _ => none

/-- The histories after a call with the given outcome. A call that fails adds to none. -/
def HasherCall.record (histories : String → Option History) :
    HasherCall → Except Fault Reply → String → Option History
  | .create name options data, .ok _ => Function.update histories name (some { options, data })
  | .update name data, .ok _ =>
    Function.update histories name ((histories name).map (·.absorb data))
  | .copy name target, .ok _ =>
    match histories name with
    | some history => Function.update histories target (some history)
    | none => histories
  | _, _ => histories

namespace Recorded

/-- After one more call. -/
def next (r : Recorded) (call : HasherCall) : Recorded where
  session := (call.run r.session).2
  histories := call.record r.histories (call.run r.session).1

/-- What a run reaches from a fresh session. -/
def reached (calls : List HasherCall) : Recorded := calls.foldl next {}

end Recorded

/-! ## Sessions with histories -/

/-- Each hasher has the history under its name, and there are no other histories. -/
def Described (histories : String → Option History) (hashers : Std.HashMap String Hasher) : Prop :=
  ∀ name, Option.Rel (fun history hasher => ∃ p, History.Describes history p hasher)
    (histories name) hashers[name]?

namespace Described

variable {histories : String → Option History} {hashers : Std.HashMap String Hasher}
  {name : String} {history : History} {p : Parameters} {hasher : Hasher}

theorem insert (h : Described histories hashers) (name : String)
    (described : history.Describes p hasher) :
    Described (Function.update histories name (some history)) (hashers.insert name hasher) := by
  intro other
  rw [Std.HashMap.getElem?_insert]
  by_cases same : name = other
  · subst same
    rw [Function.update_self, if_pos (beq_self_eq_true name)]
    exact .some ⟨p, described⟩
  · rw [Function.update_of_ne (Ne.symm same), if_neg (by simpa using same)]
    exact h other

theorem exists_hasher (h : Described histories hashers) (known : histories name = some history) :
    ∃ hasher p, hashers[name]? = some hasher ∧ history.Describes p hasher := by
  have related := h name
  rw [known] at related
  cases here : hashers[name]? with
  | none =>
    rw [here] at related
    exact nomatch related
  | some hasher =>
    rw [here] at related
    obtain ⟨p, described⟩ : ∃ p, history.Describes p hasher := by
      cases related
      assumption
    exact ⟨hasher, p, rfl, described⟩

theorem exists_history (h : Described histories hashers) (here : hashers[name]? = some hasher) :
    ∃ history p, histories name = some history ∧ history.Describes p hasher := by
  have related := h name
  rw [here] at related
  cases known : histories name with
  | none =>
    rw [known] at related
    exact nomatch related
  | some history =>
    rw [known] at related
    obtain ⟨p, described⟩ : ∃ p, history.Describes p hasher := by
      cases related
      assumption
    exact ⟨history, p, rfl, described⟩

theorem eq_none (h : Described histories hashers) (missing : hashers[name]? = none) :
    histories name = none := by
  have related := h name
  rw [missing] at related
  cases known : histories name with
  | none => rfl
  | some history =>
    rw [known] at related
    exact nomatch related

end Described

/-! ## Histories are kept -/

namespace Recorded

/-- The host is sound, and each hasher has the history that is kept for it. -/
structure Sound (r : Recorded) : Prop where
  host : r.session.host.Sound
  described : Described r.histories r.session.hashers

theorem sound_fresh : ({} : Recorded).Sound where
  host :=
    { backends := fun _ _ => nofun
      candidate := Backend.vectorized_lawful }
  described name := by
    rw [Std.HashMap.getElem?_empty]
    exact .none

/-- **One call keeps the histories right**, whatever its outcome. -/
theorem Sound.next {r : Recorded} (sound : r.Sound) (call : HasherCall) : (r.next call).Sound := by
  refine ⟨call.sound_run sound.host, ?_⟩
  have described := sound.described
  unfold Recorded.next
  cases call with
  | create name options data =>
    rw [HasherCall.run_create]
    rcases made : Action.runOn (Hasher.new (Host.engine none) options data) r.session.host with
      ⟨fault | hasher, host⟩
    · exact described
    · obtain ⟨p, history⟩ := Hasher.new_of_sound sound.host options data hasher host made
      exact described.insert name history
  | update name data =>
    cases here : r.session.hashers[name]? with
    | none =>
      have unknown := described.eq_none here
      rw [(HasherCall.run_of_none here).1]
      simp only [HasherCall.record, unknown, Option.map_none]
      rw [← unknown, Function.update_eq_self]
      exact described
    | some hasher =>
      obtain ⟨history, p, known, describes⟩ := described.exists_history here
      obtain ⟨outcome, hasher', host, run, absorbed⟩ :=
        Hasher.update_of_sound sound.host describes data
      rw [HasherCall.run_update here run]
      rcases absorbed with ⟨rfl, describes'⟩ | ⟨⟨fault, rfl⟩, describes'⟩
      · simp only [Except.map, HasherCall.record, known, Option.map_some]
        exact described.insert name describes'
      · -- the hasher is another one, but it has the same history
        have kept := described.insert name describes'
        rwa [← known, Function.update_eq_self] at kept
  | digest name =>
    cases here : r.session.hashers[name]? with
    | none =>
      rw [(HasherCall.run_of_none here).2.1]
      exact described
    | some hasher =>
      rw [HasherCall.run_digest here]
      exact described
  | hexDigest name =>
    cases here : r.session.hashers[name]? with
    | none =>
      rw [(HasherCall.run_of_none here).2.2.1]
      exact described
    | some hasher =>
      rw [HasherCall.run_hexDigest here]
      exact described
  | copy name target =>
    cases here : r.session.hashers[name]? with
    | none =>
      rw [(HasherCall.run_of_none here).2.2.2]
      simp only [HasherCall.record, described.eq_none here]
      exact described
    | some hasher =>
      obtain ⟨history, p, known, describes⟩ := described.exists_history here
      rw [HasherCall.run_copy here]
      simp only [HasherCall.record, known]
      exact described.insert target describes
  | activeBackend =>
    rw [HasherCall.run_activeBackend_snd]
    exact described
  | reconfigure change =>
    cases change with
    | environment env => exact described
    | candidate available build => exact described
    | detect config =>
      rw [HasherCall.run_detect_snd]
      exact described

/-- **Any number of calls** keep the histories right. -/
theorem Sound.foldl_next {r : Recorded} (sound : r.Sound) (calls : List HasherCall) :
    (calls.foldl Recorded.next r).Sound := by
  induction calls generalizing r with
  | nil => exact sound
  | cons call calls ih => exact ih (sound.next call)

theorem sound_reached (calls : List HasherCall) : (reached calls).Sound :=
  sound_fresh.foldl_next calls

/-! ## Digests -/

section Digest

variable {A : Session} {name : String} {hasher : Hasher} {history : History} {p : Parameters}

theorem outcome_digest (sound : A.host.Sound) (here : A.hashers[name]? = some hasher)
    (described : history.Describes p hasher) :
    ((HasherCall.digest name).run A).1
      = (Action.runOn Host.activeBackend A.host).1.map fun _ => .bytes (history.digest p) := by
  obtain ⟨q, run, -⟩ := Hasher.digest_of_sound sound described
  rw [HasherCall.run_digest here, run]
  cases (Action.runOn Host.activeBackend A.host).1 <;> rfl

theorem outcome_hexDigest (sound : A.host.Sound) (here : A.hashers[name]? = some hasher)
    (described : history.Describes p hasher) :
    ((HasherCall.hexDigest name).run A).1
      = (Action.runOn Host.activeBackend A.host).1.map fun _ => .text (history.digest p).toHex := by
  obtain ⟨q, run, -⟩ := Hasher.digest_of_sound sound described
  rw [HasherCall.run_hexDigest here, run]
  cases (Action.runOn Host.activeBackend A.host).1 <;> rfl

/-- A session cannot tell whether a digest was taken or the active backend was asked for. -/
theorem indistinct_digest (sound : A.host.Sound) (here : A.hashers[name]? = some hasher)
    (described : history.Describes p hasher) :
    (HasherCall.activeBackend.run A).2.Indistinct ((HasherCall.digest name).run A).2 := by
  obtain ⟨q, run, offered⟩ := Hasher.digest_of_sound sound described
  rw [HasherCall.run_activeBackend_snd, HasherCall.run_digest here, run]
  exact ⟨⟨sound.after_activeBackend, offered.sameSetup⟩, rfl⟩

/-- Asking for the active backend goes unnoticed if that fails or if it is known. -/
theorem indistinct_activeBackend (sound : A.host.Sound)
    (unnoticed : (∃ fault, (Action.runOn Host.activeBackend A.host).1 = .error fault) ∨
      A.host.selection ≠ .undetected) :
    A.Indistinct (HasherCall.activeBackend.run A).2 := by
  rw [HasherCall.run_activeBackend_snd]
  rcases unnoticed with ⟨fault, failed⟩ | detected
  · have same := (Host.sameButLog_of_activeBackend_error (Prod.ext failed rfl)).sameSetup
    exact ⟨⟨sound, same⟩, rfl⟩
  · obtain ⟨id, run⟩ := Host.runOn_activeBackend_of_detected detected
    rw [run]
    exact .refl sound

end Digest

/-- **Hashers return the right digests, also around failures.** After any run, the digest of a hasher
    is that of the standard for its options and for all the input that its history tells; it is
    returned unless finding out the active backend fails, and then it fails in the same way. Taking a
    digest leaves all hashers as they are, and to all later calls it is like asking for the active
    backend. If it fails, or if a backend was detected before, then to later calls it is like nothing
    at all. -/
theorem digest_of_history (calls : List HasherCall) {name : String} {history : History}
    (known : (reached calls).histories name = some history) :
    let session := (reached calls).session
    let active := (Action.runOn Host.activeBackend session.host).1
    (∃ p, Parameters.ofFields history.options.fields = .ok p ∧
      let digest := Standard.digest p.toBytes (Standard.keyed history.options.key history.data)
        history.options.lastNode history.options.digestSize.toNat
      ((HasherCall.digest name).run session).1 = active.map (fun _ => .bytes digest) ∧
      ((HasherCall.hexDigest name).run session).1 = active.map (fun _ => .text digest.toHex)) ∧
    ∀ call ∈ [HasherCall.digest name, HasherCall.hexDigest name],
      (call.run session).2.hashers = session.hashers ∧
      ∀ later,
        HasherCall.outcomes later (call.run session).2
          = HasherCall.outcomes later (HasherCall.activeBackend.run session).2 ∧
        ((∃ fault, (call.run session).1 = .error fault) ∨ session.host.selection ≠ .undetected →
          HasherCall.outcomes later (call.run session).2 = HasherCall.outcomes later session) := by
  dsimp only
  have sound := sound_reached calls
  obtain ⟨hasher, p, here, described⟩ := sound.described.exists_hasher known
  have digest := outcome_digest sound.host here described
  have hexDigest := outcome_hexDigest sound.host here described
  have asked := indistinct_digest sound.host here described
  refine ⟨⟨p, described.parameters, digest, hexDigest⟩, ?_⟩
  intro call hcall
  -- the two calls leave the same session and fail together
  have after : (call.run (reached calls).session).2
      = ((HasherCall.digest name).run (reached calls).session).2 := by
    obtain rfl | rfl : call = .digest name ∨ call = .hexDigest name := by simpa using hcall
    · rfl
    · rw [HasherCall.run_hexDigest here, HasherCall.run_digest here]
  have failed (h : ∃ fault, (call.run (reached calls).session).1 = .error fault) :
      ∃ fault, (Action.runOn Host.activeBackend (reached calls).session.host).1 = .error fault := by
    obtain ⟨fault, h⟩ := h
    refine ⟨fault, ?_⟩
    obtain rfl | rfl : call = .digest name ∨ call = .hexDigest name := by simpa using hcall
    · exact Session.error_of_map (digest.symm.trans h)
    · exact Session.error_of_map (hexDigest.symm.trans h)
  rw [after]
  refine ⟨by rw [HasherCall.run_digest here], ?_⟩
  intro later
  constructor
  · exact (HasherCall.outcomes_eq asked later).symm
  · intro unnoticed
    have ignored := indistinct_activeBackend sound.host (unnoticed.imp_left failed)
    rw [← HasherCall.outcomes_eq asked later, ← HasherCall.outcomes_eq ignored later]

/-- A hasher that meets a broken environment: the update that fails there does not count, also for the
    copy that is made after it, and once the environment is repaired the digest is that of the rest. -/
theorem digest_of_history_failed_update :
    let calls : List HasherCall :=
      [ .reconfigure (.environment { minBlocks := some "x" }), .create "x" {} [1, 2, 3],
        .update "x" (Bytes.zeros 65), .copy "x" "y", .reconfigure (.environment {}) ]
    (reached calls).histories "y" = some { options := {}, data := [1, 2, 3] } ∧
      ((HasherCall.digest "y").run (reached calls).session).1
        = .ok (.bytes (Standard.hash [1, 2, 3])) := by
  intro calls
  let env : Environment := { minBlocks := some "x" }
  let engine := Host.engine none
  obtain ⟨hasher, made, hasher', host, failing, found⟩ :
      ∃ hasher, Action.runOn (Hasher.new engine {} [1, 2, 3]) { environment := env }
          = (.ok hasher, { environment := env }) ∧
      ∃ hasher' host,
        Action.runOn (ExceptT.lift (hasher.update engine (Bytes.zeros 65))) { environment := env }
          = (.ok (.error (.minBlocksText "x"), hasher'), host) ∧
      (Action.runOn Host.activeBackend { host with environment := {} }).1 = .ok (some 0) :=
    ⟨_, rfl, _, _, rfl, rfl⟩
  let H₁ : Std.HashMap String Hasher := Std.HashMap.insert {} "x" hasher
  let H₂ := H₁.insert "x" hasher'
  have run₁ := HasherCall.run_create "x" {} [1, 2, 3] { host := { environment := env } }
  have here₁ : H₁["x"]? = some hasher := Std.HashMap.getElem?_insert_self
  have here₂ : H₂["x"]? = some hasher' := Std.HashMap.getElem?_insert_self
  have run₂ := HasherCall.run_update (A := { host := { environment := env }, hashers := H₁ }) here₁
    failing
  have run₃ := HasherCall.run_copy (A := { host, hashers := H₂ }) here₂ "y"
  rw [made] at run₁
  have created : reached (calls.take 2)
      = { session := { host := { environment := env }, hashers := H₁ }
          histories := Function.update (fun _ => none) "x" (some ⟨{}, [1, 2, 3]⟩) } := by
    change next { session := { host := { environment := env } } } (.create "x" {} [1, 2, 3]) = _
    rw [next, run₁]
    rfl
  have failed : reached (calls.take 3)
      = { session := { host, hashers := H₂ }
          histories := Function.update (fun _ => none) "x" (some ⟨{}, [1, 2, 3]⟩) } := by
    change next (reached (calls.take 2)) (.update "x" (Bytes.zeros 65)) = _
    rw [created, next, run₂]
    rfl
  have copied : (reached calls).session
        = { host := { host with environment := {} }, hashers := H₂.insert "y" hasher' } ∧
      (reached calls).histories "y" = some ⟨{}, [1, 2, 3]⟩ := by
    change (next (next (reached (calls.take 3)) (.copy "x" "y"))
      (.reconfigure (.environment {}))).session = _ ∧
      (next (reached (calls.take 3)) (.copy "x" "y")).histories "y" = _
    rw [failed, next, next, run₃]
    exact ⟨rfl, rfl⟩
  obtain ⟨⟨p, made, digest, -⟩, -⟩ := digest_of_history calls copied.2
  obtain rfl := Except.ok.inj made
  refine ⟨copied.2, ?_⟩
  rw [digest, copied.1, found]
  rfl

/-- A digest can show in what comes later, if it is what the backend is detected for: an update that
    fails in a broken environment passes after it. -/
theorem digest_shows_later :
    let calls : List HasherCall := [.create "x" {} []]
    let later : List HasherCall :=
      [.reconfigure (.environment { minBlocks := some "x" }), .update "x" (Bytes.zeros 65)]
    HasherCall.outcomes later (reached (calls ++ [.digest "x"])).session
      ≠ HasherCall.outcomes later (reached calls).session := by
  intro calls later
  let env : Environment := { minBlocks := some "x" }
  let engine := Host.engine none
  let data := Bytes.zeros 65
  -- the hasher, and how the update fails before the digest is taken and passes after it
  obtain ⟨hasher, made, hasher₁, host₁, failing, digest, host₂, taken, hasher₂, host₃, passing⟩ :
      ∃ hasher, Action.runOn (Hasher.new engine {} []) {} = (.ok hasher, {}) ∧
      ∃ hasher₁ host₁,
        Action.runOn (ExceptT.lift (hasher.update engine data)) { environment := env }
          = (.ok (.error (.minBlocksText "x"), hasher₁), host₁) ∧
      ∃ digest host₂, Action.runOn (hasher.digest engine) {} = (.ok digest, host₂) ∧
      ∃ hasher₂ host₃,
        Action.runOn (ExceptT.lift (hasher.update engine data)) { host₂ with environment := env }
          = (.ok (.ok (), hasher₂), host₃) :=
    ⟨_, rfl, _, _, rfl, _, _, rfl, _, _, rfl⟩
  have here : (({} : Std.HashMap String Hasher).insert "x" hasher)["x"]? = some hasher :=
    Std.HashMap.getElem?_insert_self
  have created : (reached calls).session = { hashers := Std.HashMap.insert {} "x" hasher } := by
    change ((HasherCall.create "x" {} []).run {}).2 = _
    rw [HasherCall.run_create, made]
  have digested : (reached (calls ++ [.digest "x"])).session
      = { host := host₂, hashers := Std.HashMap.insert {} "x" hasher } := by
    change ((HasherCall.digest "x").run (reached calls).session).2 = _
    rw [created, HasherCall.run_digest here, taken]
  have without : HasherCall.outcomes later (reached calls).session
      = [.ok .done, .error (.minBlocksText "x")] := by
    have updated := HasherCall.run_update
      (A := { host := { environment := env }, hashers := Std.HashMap.insert {} "x" hasher })
      here failing
    rw [created]
    exact congrArg (fun outcome => [.ok .done, outcome]) (congrArg Prod.fst updated)
  have after : HasherCall.outcomes later (reached (calls ++ [.digest "x"])).session
      = [.ok .done, .ok .done] := by
    have updated := HasherCall.run_update
      (A := { host := { host₂ with environment := env }, hashers := Std.HashMap.insert {} "x" hasher })
      here passing
    rw [digested]
    exact congrArg (fun outcome => [.ok .done, outcome]) (congrArg Prod.fst updated)
  rw [without, after]
  simp

end Recorded

end Blake2s
