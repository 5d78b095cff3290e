import Blake2s.Proofs.Host.Sound
import Blake2s.Proofs.Session.Calls
import Blake2s.Proofs.Session.Steps

set_option autoImplicit false

/-! # Calls on hashers

A client makes any number of hashers, uses them in any order, and changes the setup of the host in
between. Each `HasherCall` has one equation that says what it does to a session. Sessions with the same
hashers, whose hosts are sound and have the same setup, cannot be told apart by such calls
(`HasherCall.outcomes_eq`), although their backends may keep different records. -/

namespace Blake2s

/-- A use of a hasher, a question for the active backend, or a reconfiguration. -/
inductive HasherCall where
  | create (name : String) (options : Hasher.Options) (data : Bytes)
  | update (name : String) (data : Bytes)
  | digest (name : String)
  | hexDigest (name : String)
  | copy (name target : String)
  | activeBackend
  | reconfigure (change : Reconfiguration)

namespace HasherCall

def execute : HasherCall → SessionM Reply
  | create name options data => Session.execute (.createHasher name options data)
  | update name data => Session.execute (.updateHasher name data)
  | digest name => Session.execute (.digest name)
  | hexDigest name => Session.execute (.hexDigest name)
  | copy name target => Session.execute (.copyHasher name target)
  | activeBackend => Session.execute .activeBackend
  | reconfigure change => change.execute

/-- The outcome of a call, and the session after it. -/
def run (call : HasherCall) (session : Session) : Except Fault Reply × Session :=
  Action.runOn call.execute session

/-- The outcomes of calls that come one after the other. -/
def outcomes : List HasherCall → Session → List (Except Fault Reply)
  | [], _ => []
  | call :: calls, session => (call.run session).1 :: outcomes calls (call.run session).2

end HasherCall

/-! ## What the calls do -/

namespace HasherCall

open Session

variable {A : Session} {name : String} {hasher : Hasher}

theorem run_create (name : String) (options : Hasher.Options) (data : Bytes) (A : Session) :
    (create name options data).run A
      = match Action.runOn (Hasher.new (Host.engine none) options data) A.host with
        | (.ok hasher, host) =>
          (.ok (.size hasher.digestSize),
            { A with host, hashers := A.hashers.insert name hasher })
        | (.error fault, host) => (.error fault, { A with host }) := by
  simp only [run, execute, Session.execute, Action.runOn_bind, runOn_onHost]
  rcases Action.runOn (Hasher.new (Host.engine none) options data) A.host with ⟨_ | _, _⟩ <;> rfl

/-- An update puts the hasher back also if it fails. -/
theorem run_update (h : A.hashers[name]? = some hasher) {data : Bytes}
    {outcome : Except Fault Unit} {hasher' : Hasher} {host : Host}
    (run : Action.runOn (ExceptT.lift (hasher.update (Host.engine none) data)) A.host
      = (.ok (outcome, hasher'), host)) :
    (update name data).run A
      = (outcome.map fun _ => .done,
        { A with host, hashers := A.hashers.insert name hasher' }) := by
  simp only [HasherCall.run, execute, Session.execute, runOn_onHasher_of_some h, Action.runOn_bind,
    runOn_onHost, run, runOn_putHasher, Action.runOn_lift]
  cases outcome <;> rfl

theorem run_digest (h : A.hashers[name]? = some hasher) :
    (digest name).run A
      = ((Action.runOn (hasher.digest (Host.engine none)) A.host).1.map .bytes,
        { A with host := (Action.runOn (hasher.digest (Host.engine none)) A.host).2 }) :=
  (runOn_onHasher_of_some h _).trans (runOn_onHost_map _ _ A)

theorem run_hexDigest (h : A.hashers[name]? = some hasher) :
    (hexDigest name).run A
      = ((Action.runOn (hasher.digest (Host.engine none)) A.host).1.map fun digest =>
          .text digest.toHex,
        { A with host := (Action.runOn (hasher.digest (Host.engine none)) A.host).2 }) := by
  simp only [HasherCall.run, execute, Session.execute, runOn_onHasher_of_some h, Action.runOn_bind,
    runOn_onHost, Hasher.hexDigest, map_eq_pure_bind]
  rcases Action.runOn (hasher.digest (Host.engine none)) A.host with ⟨_ | _, _⟩ <;> rfl

theorem run_copy (h : A.hashers[name]? = some hasher) (target : String) :
    (copy name target).run A
      = (.ok (.size hasher.digestSize),
        { A with hashers := A.hashers.insert target hasher }) := by
  simp only [HasherCall.run, execute, Session.execute, runOn_onHasher_of_some h, Action.runOn_bind,
    runOn_putHasher, Action.runOn_pure]

theorem run_activeBackend_snd (A : Session) :
    (activeBackend.run A).2 = { A with host := (Action.runOn Host.activeBackend A.host).2 } := by
  simp only [HasherCall.run, execute, Session.execute, Action.runOn_bind, runOn_onHost]
  rcases Action.runOn Host.activeBackend A.host with ⟨_ | _, _⟩ <;> rfl

theorem run_detect_snd (config : Option Config) (A : Session) :
    ((reconfigure (.detect config)).run A).2
      = { A with host := (Action.runOn (Host.detect config) A.host).2 } := by
  simp only [HasherCall.run, execute, Reconfiguration.execute, Session.execute, Action.runOn_bind,
    runOn_onHost]
  rcases Action.runOn (Host.detect config) A.host with ⟨_ | _, _⟩ <;> rfl

/-- Under a name without a hasher nothing is done. -/
theorem run_of_none (h : A.hashers[name]? = none) :
    (∀ data, (update name data).run A = (.ok .done, A)) ∧
      (digest name).run A = (.ok .done, A) ∧ (hexDigest name).run A = (.ok .done, A) ∧
      ∀ target, (copy name target).run A = (.ok .done, A) :=
  ⟨fun _ => runOn_onHasher_of_none h _, runOn_onHasher_of_none h _, runOn_onHasher_of_none h _,
    fun _ => runOn_onHasher_of_none h _⟩

end HasherCall

/-! ## Hashers in related sessions -/

/-- A relation of sessions with the same hashers that goes by the hosts, as `Q` relates them. -/
structure Session.Lifts (Q : Host → Host → Prop) (R : Session → Session → Prop) : Prop where
  host : ∀ {A B}, R A B → Q A.host B.host
  hashers : ∀ {A B}, R A B → A.hashers = B.hashers
  withHosts : ∀ {A B p q}, R A B → Q p q → R { A with host := p } { B with host := q }
  withHasher : ∀ {A B}, R A B → ∀ name hasher,
    R { A with hashers := A.hashers.insert name hasher }
      { B with hashers := B.hashers.insert name hasher }

namespace Session.Lifts

variable {Q : Host → Host → Prop} {R : Session → Session → Prop} (lifts : Lifts Q R)

include lifts

theorem alike_onHost {α : Type} {op : HostM α} (h : Action.Alike Q op op) :
    Action.Alike R (onHost op) (onHost op) := by
  intro A B related
  obtain ⟨outcome, hosts⟩ := h A.host B.host (lifts.host related)
  exact ⟨outcome, lifts.withHosts related hosts⟩

theorem alike_putHasher (name : String) (hasher : Hasher) :
    Action.Alike R (putHasher name hasher) (putHasher name hasher) :=
  fun _ _ related => ⟨rfl, lifts.withHasher related name hasher⟩

theorem alike_onHasher (name : String) {op : Hasher → SessionM Reply}
    (h : ∀ hasher, Action.Alike R (op hasher) (op hasher)) :
    Action.Alike R (onHasher name op) (onHasher name op) := by
  intro A B related
  have same := lifts.hashers related
  cases here : A.hashers[name]? with
  | none =>
    rw [runOn_onHasher_of_none here, runOn_onHasher_of_none (same ▸ here)]
    exact ⟨rfl, related⟩
  | some hasher =>
    rw [runOn_onHasher_of_some here, runOn_onHasher_of_some (same ▸ here)]
    exact h hasher A B related

/-- If engines and what concerns the host alone cannot tell two sessions apart, a call cannot. -/
theorem alike_hasherCall (engine : Engine.Alike Q (Host.engine none) (Host.engine none))
    (active : Action.Alike Q Host.activeBackend Host.activeBackend)
    (selected : ∀ id, Action.Alike R (selectedBackend id) (selectedBackend id))
    (call : HasherCall)
    (reconfigure : ∀ change, call = .reconfigure change →
      Action.Alike R change.execute change.execute) :
    Action.Alike R call.execute call.execute := by
  cases call with
  | create name options data =>
    refine .bind (lifts.alike_onHost (Hasher.alike_new engine options data)) fun hasher => ?_
    exact .bind (lifts.alike_putHasher name hasher) fun _ => .pure _
  | update name data =>
    refine lifts.alike_onHasher name fun hasher => ?_
    refine .bind (lifts.alike_onHost (Hasher.alike_update engine hasher data)) fun result => ?_
    refine .bind (lifts.alike_putHasher name result.2) fun _ => ?_
    exact .bind (.lift result.1) fun _ => .pure _
  | digest name =>
    refine lifts.alike_onHasher name fun hasher => ?_
    exact .bind (lifts.alike_onHost (Hasher.alike_digest engine hasher)) fun _ => .pure _
  | hexDigest name =>
    refine lifts.alike_onHasher name fun hasher => ?_
    exact .bind (lifts.alike_onHost (Hasher.alike_hexDigest engine hasher)) fun _ => .pure _
  | copy name target =>
    refine lifts.alike_onHasher name fun hasher => ?_
    exact .bind (lifts.alike_putHasher target hasher) fun _ => .pure _
  | activeBackend => exact .bind (lifts.alike_onHost active) selected
  | reconfigure change => exact reconfigure change rfl

end Session.Lifts

/-! ## Sessions that cannot be told apart -/

/-- Sessions with the same hashers, in sound hosts with the same setup. -/
structure Session.Indistinct (A B : Session) : Prop where
  hosts : Host.BothSound A.host B.host
  hashers : A.hashers = B.hashers

namespace Session.Indistinct

theorem refl {A : Session} (sound : A.host.Sound) : Indistinct A A := ⟨⟨sound, .refl A.host⟩, rfl⟩

theorem lifts : Lifts Host.BothSound Indistinct where
  host same := same.hosts
  hashers same := same.hashers
  withHosts same hosts := ⟨hosts, same.hashers⟩
  withHasher same name hasher := ⟨same.hosts, congrArg (·.insert name hasher) same.hashers⟩

theorem alike_selectedBackend (id : Option BackendId) :
    Action.Alike Indistinct (selectedBackend id) (selectedBackend id) :=
  Session.alike_selectedBackend (fun same => same.hosts.2.backends) id

theorem alike_reconfiguration (change : Reconfiguration) :
    Action.Alike Indistinct change.execute change.execute := by
  cases change with
  | environment env =>
    intro A B same
    obtain ⟨⟨sound, setup⟩, hashers⟩ := same
    exact ⟨rfl, ⟨⟨sound.backends, sound.candidate⟩,
      ⟨rfl, setup.candidate, setup.backends, setup.selection⟩⟩, hashers⟩
  | candidate available build =>
    intro A B same
    obtain ⟨⟨sound, setup⟩, hashers⟩ := same
    exact ⟨rfl, ⟨⟨sound.backends, fun n => (build n).property⟩,
      ⟨setup.environment, rfl, setup.backends, setup.selection⟩⟩, hashers⟩
  | detect config =>
    exact .bind (lifts.alike_onHost (Host.BothSound.alike_detect config)) alike_selectedBackend

end Session.Indistinct

open Session in
/-- **One call**: in sessions that cannot be told apart it has the same outcome, and they still cannot
    be told apart after it. -/
theorem HasherCall.alike (call : HasherCall) :
    Action.Alike Indistinct call.execute call.execute :=
  Indistinct.lifts.alike_hasherCall (Host.BothSound.alike_engine none)
    Host.BothSound.alike_activeBackend Indistinct.alike_selectedBackend call
    fun change _ => Indistinct.alike_reconfiguration change

/-- **Any number of calls**: their outcomes are the same. -/
theorem HasherCall.outcomes_eq {A B : Session} (same : A.Indistinct B) (calls : List HasherCall) :
    outcomes calls A = outcomes calls B := by
  induction calls generalizing A B with
  | nil => rfl
  | cons call calls ih =>
    obtain ⟨outcome, after⟩ := call.alike A B same
    exact congrArg₂ List.cons outcome (ih after)

theorem HasherCall.sound_run {A : Session} (sound : A.host.Sound) (call : HasherCall) :
    (call.run A).2.host.Sound := by
  obtain ⟨-, after⟩ := call.alike A A (.refl sound)
  exact after.hosts.1

end Blake2s
