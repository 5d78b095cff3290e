import Blake2s.Proofs.Host.Resolving
import Blake2s.Proofs.Session.Hashers

set_option autoImplicit false

/-! # Sessions with a settled selection

The environment and the candidate of a host are its *settings*. Only a detection reads them, and once
one has succeeded nothing but a call for another one runs it. So what is done in the meantime is done
alike under any settings (`Act.alike`), and changes of the settings may as well be left out
(`Session.replies_settled`). -/

namespace Blake2s

/-! ## Acts -/

/-- A command, or what is computed with states of its own. -/
inductive Act where
  | command (c : Command)
  | tag (message key : Bytes) (length : Int)
  | verify (given message key : Bytes)
  | extract (material : Bytes) (salt : Option Bytes)
  | expand (key info : Bytes) (length : Int)
  | derive (material : Bytes) (salt : Option Bytes) (info : Bytes) (length : Int)

namespace Act

def execute : Act → SessionM Reply
  | command c => Session.execute c
  | tag message key length => Call.execute (.tag message key length)
  | verify given message key => Call.execute (.verify given message key)
  | extract material salt => Call.execute (.extract material salt)
  | expand key info length => Call.execute (.expand key info length)
  | derive material salt info length => Call.execute (.derive material salt info length)

/-- The outcome of an act, and the session after it. -/
def run (act : Act) (A : Session) : Except Fault Reply × Session := Action.runOn act.execute A

/-- Does the act change the environment or the candidate? -/
def isSetting : Act → Bool
  | command (.setEnvironment _) | command (.setCandidate _) => true
  | _ => false

/-- Is the act a call for a detection? -/
def isDetection : Act → Bool
  | command (.detect _) => true
  | _ => false

end Act

namespace Session

/-- The session after acts. -/
def perform : List Act → Session → Session
  | [], A => A
  | act :: acts, A => perform acts (act.run A).2

/-- Acts, each with its outcome. -/
def replies : List Act → Session → List (Act × Except Fault Reply)
  | [], _ => []
  | act :: acts, A => (act, (act.run A).1) :: replies acts (act.run A).2

end Session

/-! ## Hosts -/

namespace Host

/-- Are two hosts, in which a backend is selected, the same but for their settings? -/
structure SameButSettings (p q : Host) : Prop where
  backends : q.backends = p.backends
  selection : q.selection = p.selection
  log : q.log = p.log
  detected : p.selection ≠ .undetected

namespace SameButSettings

theorem refl {p : Host} (detected : p.selection ≠ .undetected) : p.SameButSettings p :=
  ⟨rfl, rfl, rfl, detected⟩

/-- A backend is selected, so nothing is detected. -/
theorem alike_activeBackend : Action.Alike SameButSettings activeBackend activeBackend :=
  alike_activeBackend_of (fun same => same.selection) fun _ _ same undetected =>
    absurd undetected same.detected

theorem alike_engine (pin : Option BackendId) :
    Engine.Alike SameButSettings (engine pin) (engine pin) := by
  intro chain batch
  rw [engine_eq]
  refine .bind (alike_resolve_of alike_activeBackend pin) fun choice => ?_
  refine alike_compressChosen (fun same => same.backends) ?_ choice chain batch
  intro p q same backends
  exact ⟨rfl, same.selection, same.log, same.detected⟩

theorem alike_report (event : Event) :
    Action.Alike SameButSettings (report event) (report event) := by
  intro p q same
  exact ⟨rfl, same.backends, same.selection, congrArg (· ++ [event]) same.log, same.detected⟩

theorem alike_register (i : Backend.Instance) :
    Action.Alike SameButSettings (register i) (register i) := by
  intro p q same
  obtain ⟨backends, selection, log, detected⟩ := same
  have sizes : p.backends.size = q.backends.size := congrArg Array.size backends.symm
  exact ⟨congrArg Except.ok sizes, congrArg (·.push i) backends, selection, log, detected⟩

end SameButSettings

end Host

/-! ## Sessions -/

namespace Session

/-- Are two sessions, in which a backend is selected, the same but for the settings of their hosts? -/
structure SameButSettings (A B : Session) : Prop where
  host : A.host.SameButSettings B.host
  states : A.states = B.states
  hashers : A.hashers = B.hashers

namespace SameButSettings

variable {A B : Session}

theorem refl (detected : A.host.selection ≠ .undetected) : A.SameButSettings A :=
  ⟨.refl detected, rfl, rfl⟩

theorem lifts : Lifts Host.SameButSettings SameButSettings where
  host same := same.host
  hashers same := same.hashers
  withHosts same hosts := ⟨hosts, same.states, same.hashers⟩
  withHasher same name hasher :=
    ⟨same.host, same.states, congrArg (·.insert name hasher) same.hashers⟩

theorem holder (same : A.SameButSettings B) (name : String) : A.holder name = B.holder name :=
  congrArg (·.getD name {}) same.states

theorem alike_putState (name : String) (holder : Holder) :
    Action.Alike SameButSettings (putState name holder) (putState name holder) := by
  intro A B same
  exact ⟨rfl, same.host, congrArg (·.insert name holder) same.states, same.hashers⟩

theorem alike_onState {α : Type} (name : String) {op : Engine Host → HashM Host α}
    (h : ∀ pin, HashM.Alike Host.SameButSettings (op (Host.engine pin)) (op (Host.engine pin))) :
    Action.Alike SameButSettings (onState name op) (onState name op) := by
  intro A B same
  have holders := same.holder name
  obtain ⟨outcome, hosts⟩ := h (A.holder name).pin (A.state name) A.host B.host same.host
  have engine : B.engine name = A.engine name := by rw [engine, engine, holders]
  have state : B.state name = A.state name := by rw [state, state, holders]
  have reply := congrArg Prod.fst outcome
  rw [runOn_onState, runOn_onState, engine, state]
  refine ⟨reply, hosts, ?_, same.hashers⟩
  simp only [put, ← holders, ← same.states]
  exact congrArg (fun run => A.states.insert name { state := run.2, pin := (A.holder name).pin })
    outcome

theorem alike_selectedBackend (id : Option BackendId) :
    Action.Alike SameButSettings (selectedBackend id) (selectedBackend id) := by
  refine Session.alike_selectedBackend (fun same id => ?_) id
  rw [Host.backend?, Host.backend?, same.host.backends]

theorem alike_create (name : String) (backend : Option Backend) :
    Action.Alike SameButSettings (execute (.create name backend)) (execute (.create name backend)) := by
  have put (pin : Option BackendId) : Action.Alike SameButSettings
      (do putState name { pin }; return Reply.done) (do putState name { pin }; return Reply.done) :=
    .bind (alike_putState name { pin }) fun _ => .pure _
  cases backend with
  | none => exact put none
  | some b =>
    have registered := lifts.alike_onHost (Host.SameButSettings.alike_register { backend := b })
    refine .bind ?_ put
    rw [map_eq_pure_bind]
    exact .bind registered fun id => .pure (some id)

theorem alike_hasherCall (call : HasherCall) (h : ∀ change, call ≠ .reconfigure change) :
    Action.Alike SameButSettings call.execute call.execute :=
  lifts.alike_hasherCall (Host.SameButSettings.alike_engine none)
    Host.SameButSettings.alike_activeBackend alike_selectedBackend call
    fun change same => absurd same (h change)

end SameButSettings

end Session

open Session SameButSettings in
/-- **One act**, neither a setting nor a call for a detection, does the same under all settings. -/
theorem Act.alike {act : Act} (setting : act.isSetting = false) (detection : act.isDetection = false) :
    Action.Alike SameButSettings act.execute act.execute := by
  have engine := Host.SameButSettings.alike_engine
  have onHost {α : Type} (op : HostM α) (h : Action.Alike Host.SameButSettings op op)
      (reply : α → Reply) : Action.Alike SameButSettings
        (onHost op >>= fun a => pure (reply a)) (onHost op >>= fun a => pure (reply a)) :=
    .bind (lifts.alike_onHost h) fun _ => .pure _
  cases act with
  | tag message key length => exact onHost _ (Mac.alike_tag (engine none) message key length) _
  | verify given message key => exact onHost _ (Mac.alike_verify (engine none) given message key) _
  | extract material salt =>
    exact onHost _ (Derivation.alike_extract (engine none) material salt) _
  | expand key info length =>
    exact onHost _ (Derivation.alike_expand (engine none) key info length) _
  | derive material salt info length =>
    exact onHost _ (Derivation.alike_derive (engine none) material salt info length) _
  | command c =>
    cases c with
    | create name backend => exact alike_create name backend
    | init name outlen =>
      exact .bind (alike_onState name fun pin => State.alike_init (engine pin) outlen) fun _ => .pure _
    | initKeyed name outlen key =>
      refine .bind (alike_onState name fun pin => ?_) fun _ => .pure _
      exact State.alike_initKeyed (engine pin) outlen key
    | start name fields key lastNode =>
      refine .bind (.lift _) fun p => .bind (alike_onState name fun pin => ?_) fun _ => .pure _
      exact State.alike_start (engine pin) p key lastNode
    | update name data =>
      exact .bind (alike_onState name fun pin => State.alike_update (engine pin) data) fun _ => .pure _
    | final name outlen =>
      exact .bind (alike_onState name fun pin => State.alike_final (engine pin) outlen)
        fun _ => .pure _
    | finalInto name out outlen =>
      refine .bind (alike_onState name fun pin => ?_) fun result => ?_
      · exact State.alike_finalInto (engine pin) outlen out
      · exact .bind (.lift result.1) fun _ => .pure _
    | copy name target =>
      intro A B same
      have states : A.states.insert target (A.holder name) = B.states.insert target (B.holder name) := by
        rw [same.states, same.holder]
      exact ⟨rfl, same.host, states, same.hashers⟩
    | wipe name => exact .bind (alike_onState name fun _ => .modifyState _) fun _ => .pure _
    | overlay name overlay =>
      exact .bind (alike_onState name fun _ => .modifyState _) fun _ => .pure _
    | offers name =>
      refine alike_offers (fun same name => ?_) (fun same => same.host.backends) name
      rw [same.holder]
    | createHasher name options data => exact alike_hasherCall (.create name options data) nofun
    | updateHasher name data => exact alike_hasherCall (.update name data) nofun
    | digest name => exact alike_hasherCall (.digest name) nofun
    | hexDigest name => exact alike_hasherCall (.hexDigest name) nofun
    | copyHasher name target => exact alike_hasherCall (.copy name target) nofun
    | inspect name => exact lifts.alike_onHasher name fun hasher => .pure _
    | setEnvironment environment => exact nomatch setting
    | setCandidate candidate => exact nomatch setting
    | detect config => exact nomatch detection
    | activeBackend => exact alike_hasherCall .activeBackend nofun
    | selfTest backend =>
      have report := Host.SameButSettings.alike_report
      cases backend with
      | none => exact onHost _ (alike_selfTestSelected report (engine none)) _
      | some backend => exact onHost _ (alike_selfTestBackend report backend) _

namespace Session

variable {A B : Session} {acts : List Act}

theorem SameButSettings.of_setting (same : A.SameButSettings B) {act : Act}
    (setting : act.isSetting = true) : A.SameButSettings (act.run B).2 := by
  obtain ⟨⟨backends, selection, log, detected⟩, states, hashers⟩ := same
  cases act with
  | command c =>
    cases c with
    | setEnvironment environment => exact ⟨⟨backends, selection, log, detected⟩, states, hashers⟩
    | setCandidate candidate => exact ⟨⟨backends, selection, log, detected⟩, states, hashers⟩
    | _ => exact nomatch setting
  | _ => exact nomatch setting

/-- **Settings have no effect** as long as no detection is called for: without them the other acts
    have the same outcomes, and leave the same session but for its settings. -/
theorem replies_settled (same : A.SameButSettings B)
    (uncalled : ∀ act ∈ acts, act.isDetection = false) :
    replies (acts.filter (!·.isSetting)) A = (replies acts B).filter (!·.1.isSetting) ∧
      (perform (acts.filter (!·.isSetting)) A).SameButSettings (perform acts B) := by
  induction acts generalizing A B with
  | nil => exact ⟨rfl, same⟩
  | cons act acts ih =>
    have later : ∀ act ∈ acts, act.isDetection = false :=
      fun act h => uncalled act (List.mem_cons_of_mem _ h)
    cases setting : act.isSetting with
    | true =>
      -- the act is left out of the one run, and changes only settings in the other one
      simp only [List.filter_cons, setting, Bool.not_true, Bool.false_eq_true, if_false, replies]
      exact ih (same.of_setting setting) later
    | false =>
      obtain ⟨outcome, after⟩ := Act.alike setting (uncalled act List.mem_cons_self) A B same
      obtain ⟨rest, last⟩ := ih after later
      simp only [List.filter_cons, setting, Bool.not_false, if_true, replies]
      exact ⟨congrArg₂ List.cons (congrArg (Prod.mk act) outcome) rest, last⟩

end Session

end Blake2s
