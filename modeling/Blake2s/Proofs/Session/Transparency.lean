import Blake2s.Proofs.Host.Detection
import Blake2s.Proofs.Session.Calls
import Blake2s.Proofs.Session.Steps

set_option autoImplicit false

/-! # Backends are transparent

Which lawful backend compresses cannot be seen from outside. Two sessions are *related* if their
hosts are lawful and they hold the same states, no matter under which pins. A call in related
sessions has the same outcome and leaves related sessions (`Call.alike_pinned`), also when it takes
another backend in each; a reconfiguration keeps a session related to every other
(`Related.after_reconfiguration`). So a whole run is the same as the run in which everything is
pinned to the generic backend (`Session.run_eq_run_pinned`). -/

namespace Blake2s

namespace Session

/-! ## Related sessions -/

/-- Lawful hosts and the same states. -/
structure Related (A B : Session) : Prop where
  left : A.host.Lawful
  right : B.host.Lawful
  states : A.snapshot = B.snapshot

theorem state_eq_snapshot (session : Session) (name : String) :
    session.state name = (session.snapshot name).getD {} := by
  unfold state holder snapshot
  rw [Std.HashMap.getD_eq_getD_getElem?]
  cases session.states[name]? <;> rfl

variable {A B : Session}

theorem Related.state_eq (h : Related A B) (name : String) :
    A.state name = B.state name := by
  rw [state_eq_snapshot, state_eq_snapshot, h.states]

/-- Other hosts, and the same states. -/
theorem Related.withHosts (h : Related A B) {p q : Host} (hp : p.Lawful) (hq : q.Lawful) :
    Related { A with host := p } { B with host := q } := ⟨hp, hq, h.states⟩

/-- The same state put under a name. -/
theorem Related.withState (h : Related A B) (name : String) {x y : Holder}
    (same : x.state = y.state) :
    Related { A with states := A.states.insert name x }
      { B with states := B.states.insert name y } := by
  refine ⟨h.left, h.right, funext fun other => ?_⟩
  have states := congrFun h.states other
  unfold snapshot at states ⊢
  rw [Std.HashMap.getElem?_insert, Std.HashMap.getElem?_insert]
  split
  · rw [Option.map_some, Option.map_some, same]
  · exact states

/-! ## Operations on hosts and states -/

/-- Two lawful hosts. -/
def BothLawful (p q : Host) : Prop := p.Lawful ∧ q.Lawful

theorem alike_engine (pin pin' : Option BackendId) :
    Engine.Alike BothLawful (Host.engine pin) (Host.engine pin') :=
  (Host.engine_lawful pin).alike (Host.engine_lawful pin')

theorem alike_onHost {α : Type} {x y : HostM α} (h : Action.Alike BothLawful x y) :
    Action.Alike Related (onHost x) (onHost y) := by
  intro A B related
  obtain ⟨outcome, hp, hq⟩ := h A.host B.host ⟨related.left, related.right⟩
  exact ⟨outcome, related.withHosts hp hq⟩

/-- An operation on a state works alike through all engines, so the pins do not matter. -/
theorem alike_onState {α : Type} (name : String) {op : Engine Host → HashM Host α}
    (h : ∀ pin pin', HashM.Alike BothLawful (op (Host.engine pin)) (op (Host.engine pin'))) :
    Action.Alike Related (onState name op) (onState name op) := by
  intro A B related
  obtain ⟨same, hp, hq⟩ := h (A.holder name).pin (B.holder name).pin (A.state name)
    A.host B.host ⟨related.left, related.right⟩
  rw [runOn_onState, runOn_onState, ← related.state_eq name]
  refine ⟨congrArg (·.1) same, ?_⟩
  exact (related.withHosts hp hq).withState name (congrArg (·.2) same)

/-! ## Commands -/

theorem alike_create (name : String) (pin pin' : Option LawfulBackend) :
    Action.Alike Related (execute (.create name (pin.map Subtype.val)))
      (execute (.create name (pin'.map Subtype.val))) := by
  have created : ∀ (C : Session), C.host.Lawful → ∀ pin : Option LawfulBackend, ∃ p id,
      Host.Lawful p ∧ Action.runOn (execute (.create name (pin.map Subtype.val))) C
        = (.ok .done, { C with host := p, states := C.states.insert name { pin := id } }) := by
    intro C lawful pin
    cases pin with
    | none => exact ⟨C.host, none, lawful, rfl⟩
    | some backend =>
      exact ⟨_, some C.host.backends.size, lawful.push (i := { backend }) backend.property, rfl⟩
  intro A B related
  obtain ⟨p, id, hp, runA⟩ := created A related.left pin
  obtain ⟨q, id', hq, runB⟩ := created B related.right pin'
  rw [runA, runB]
  exact ⟨rfl, (related.withHosts hp hq).withState name rfl⟩

theorem alike_copy (name target : String) :
    Action.Alike Related (execute (.copy name target)) (execute (.copy name target)) := by
  intro A B related
  exact ⟨rfl, related.withState target (related.state_eq name)⟩

/-! ## The self-test -/

/-- Through lawful engines the self-test has the same outcome. -/
theorem outcome_selfTest {σ τ : Type} {inv : σ → Prop} {inv' : τ → Prop} {e : Engine σ}
    {e' : Engine τ} (lawful : e.Lawful inv) (lawful' : e'.Lawful inv') {m : σ} {n : τ} (hm : inv m)
    (hn : inv' n) :
    (Action.runOn (SelfTest.run e) m).1 = (Action.runOn (SelfTest.run e') n).1 ∧
      inv (Action.runOn (SelfTest.run e) m).2 := by
  obtain ⟨outcome, hm', -⟩ := SelfTest.alike_run (lawful.alike lawful') m n ⟨hm, hn⟩
  exact ⟨outcome, hm'⟩

theorem alike_report (event : Event) :
    Action.Alike BothLawful (Host.report event) (Host.report event) := by
  intro p q both
  obtain ⟨left, right⟩ := both
  exact ⟨rfl, left.of_log _, right.of_log _⟩

/-- The self-test of the selected backend, or of a fresh one, against that of another fresh one. -/
theorem alike_selfTest (pin : Option LawfulBackend) (backend : LawfulBackend) :
    Action.Alike Related (execute (.selfTest (pin.map Subtype.val)))
      (execute (.selfTest (some backend.val))) := by
  have fresh : (fun i : Backend.Instance => i.backend.Lawful) { backend := backend.val } :=
    backend.property
  cases pin with
  | none =>
    have selected : Action.Alike BothLawful selfTestSelected (selfTestBackend backend.val) := by
      rw [selfTestBackend_eq]
      refine .bind ?_ (alike_reportMismatch alike_report)
      intro p q both
      obtain ⟨outcome, hp⟩ := outcome_selfTest (Host.engine_lawful none)
        Backend.Instance.engine_lawful both.1 fresh
      rw [Action.runOn_lift, outcome]
      exact ⟨rfl, hp, both.2⟩
    exact .bind (alike_onHost selected) fun _ => .pure _
  | some other =>
    have tested : Action.Alike BothLawful (selfTestBackend other.val)
        (selfTestBackend backend.val) := by
      obtain ⟨outcome, -⟩ := outcome_selfTest Backend.Instance.engine_lawful
        Backend.Instance.engine_lawful (m := { backend := other.val }) other.property fresh
      rw [selfTestBackend_eq, selfTestBackend_eq, outcome]
      exact .bind (.lift _) (alike_reportMismatch alike_report)
    exact .bind (alike_onHost tested) fun _ => .pure _

end Session

/-! ## Calls and reconfigurations -/

open Session

/-- **One call**: with the generic backend in place of any other, it has the same outcome and leaves
    the same states. -/
theorem Call.alike_pinned (call : Call) :
    Action.Alike Related call.execute call.pinned.execute := by
  cases call with
  | create name pin => exact alike_create name pin (some .generic)
  | copy name target => exact alike_copy name target
  | init name outlen =>
    refine .bind (alike_onState name ?_) fun _ => .pure _
    intro pin pin'
    exact State.alike_init (alike_engine pin pin') outlen
  | initKeyed name outlen key =>
    refine .bind (alike_onState name ?_) fun _ => .pure _
    intro pin pin'
    exact State.alike_initKeyed (alike_engine pin pin') outlen key
  | start name fields key lastNode =>
    refine .bind (.lift _) fun p => ?_
    refine .bind (alike_onState name ?_) fun _ => .pure _
    intro pin pin'
    exact State.alike_start (alike_engine pin pin') p key lastNode
  | update name data =>
    refine .bind (alike_onState name ?_) fun _ => .pure _
    intro pin pin'
    exact State.alike_update (alike_engine pin pin') data
  | final name outlen =>
    refine .bind (alike_onState name ?_) fun _ => .pure _
    intro pin pin'
    exact State.alike_final (alike_engine pin pin') outlen
  | finalInto name out outlen =>
    refine .bind (alike_onState name ?_) fun _ => .bind (.lift _) fun _ => .pure _
    intro pin pin'
    exact State.alike_finalInto (alike_engine pin pin') outlen out
  | selfTest pin => exact alike_selfTest pin .generic
  -- what is not done on a named state goes through the engine without a pin, in both sessions
  | tag message key length =>
    refine .bind (alike_onHost ?_) fun _ => .pure _
    exact Mac.alike_tag (alike_engine none none) message key length
  | verify given message key =>
    refine .bind (alike_onHost ?_) fun _ => .pure _
    exact Mac.alike_verify (alike_engine none none) given message key
  | extract material salt =>
    refine .bind (alike_onHost ?_) fun _ => .pure _
    exact Derivation.alike_extract (alike_engine none none) material salt
  | expand key info length =>
    refine .bind (alike_onHost ?_) fun _ => .pure _
    exact Derivation.alike_expand (alike_engine none none) key info length
  | derive material salt info length =>
    refine .bind (alike_onHost ?_) fun _ => .pure _
    exact Derivation.alike_derive (alike_engine none none) material salt info length

/-- What keeps a host lawful keeps a session related. -/
theorem Session.keeps_onHost {α : Type} {op : HostM α} {post : α → Prop}
    (h : Action.Keeps Host.Lawful op post) (B : Session) :
    Action.Keeps (Related · B) (onHost op) post := by
  intro A related
  obtain ⟨lawful, value⟩ := h A.host related.left
  exact ⟨related.withHosts lawful related.right, value⟩

/-- Reconfigurations leave all states alone, and the host lawful. -/
theorem Session.Related.after_reconfiguration {A B : Session} (related : Related A B)
    (change : Reconfiguration) : Related (A.after change.execute) B := by
  have lawful := related.left
  cases change with
  | environment env =>
    exact related.withHosts ⟨lawful.backends, lawful.candidate, lawful.detected⟩ related.right
  | candidate available build =>
    exact related.withHosts ⟨lawful.backends, fun n => (build n).property, lawful.detected⟩
      related.right
  | detect config =>
    have kept : Action.Keeps (Related · B) (Session.execute (.detect config)) fun _ => True := by
      refine .bind (Session.keeps_onHost (Host.keeps_detect config) B) fun _ _ => ?_
      exact .bind .get fun _ _ => .pure trivial
    exact (kept A related).1

/-- However many of them there are before a call. -/
theorem Session.Related.after_reconfigurations {A B : Session} (related : Related A B)
    (changes : List Reconfiguration) :
    Related (changes.foldl (fun session change => session.after change.execute) A) B := by
  induction changes generalizing A with
  | nil => exact related
  | cons change changes ih => exact ih (related.after_reconfiguration change)

/-! ## Runs -/

namespace Session

/-- Related sessions go through the same run, reconfigured and not. -/
theorem run_eq_of_related {A B : Session} (related : Related A B) (turns : List Turn) :
    run A turns = run B (turns.map Turn.pinned) := by
  induction turns generalizing A B with
  | nil => rfl
  | cons turn turns ih =>
    have ready := related.after_reconfigurations turn.before
    obtain ⟨outcome, after⟩ := turn.call.alike_pinned _ B ready
    have observed := congrArg₂ Prod.mk outcome after.states
    exact congrArg₂ List.cons observed (ih after)

/-- Pinning all states changes none of them. -/
theorem related_pinned {session : Session} (lawful : session.host.Lawful) :
    Related session session.pinned where
  left := lawful
  right :=
    { backends := by
        intro id b hb
        cases id with
        | zero => exact Option.some.inj hb ▸ Backend.generic_lawful
        | succ id => exact nomatch hb
      candidate := Backend.vectorized_lawful
      detected := nofun }
  states := by
    funext name
    unfold snapshot pinned
    rw [Std.HashMap.getElem?_map, Option.map_map]
    rfl

/-- **Backends are transparent.** A run over any lawful backends, with any reconfigurations between
    its calls, has the same outcomes, and the same states after each call, as the run with all states
    pinned to the generic backend and no backend selected. -/
theorem run_eq_run_pinned {session : Session} (lawful : session.host.Lawful) (turns : List Turn) :
    session.run turns = session.pinned.run (turns.map Turn.pinned) :=
  run_eq_of_related (related_pinned lawful) turns

/-- A state on a vectorized backend, and one without a backend of its own while backends are detected
    and disabled again. -/
theorem run_eq_run_pinned_switching :
    let session : Session := { host := { selection := .detected none } }
    let vectorized : LawfulBackend := ⟨.vectorized 1, Backend.vectorized_lawful 1⟩
    let turns : List Turn :=
      [ { before := [], call := .create "pinned" (some vectorized) },
        { before := [.detect (some { minBlocks := 1 })], call := .init "pinned" 32 },
        { before := [], call := .init "free" 20 },
        { before := [], call := .update "free" (Bytes.zeros 200) },
        { before := [.environment { noSimd := some "1" }, .detect none],
          call := .update "free" (Bytes.zeros 200) },
        { before := [], call := .final "free" none } ]
    session.host.Lawful ∧ session.run turns = session.pinned.run (turns.map Turn.pinned) := by
  intro session vectorized turns
  have lawful : session.host.Lawful :=
    { backends := fun _ _ => nofun, candidate := Backend.vectorized_lawful, detected := nofun }
  exact ⟨lawful, run_eq_run_pinned lawful turns⟩

end Session

end Blake2s
