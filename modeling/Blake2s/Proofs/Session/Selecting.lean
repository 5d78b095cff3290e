import Blake2s.Proofs.Host.Demands
import Blake2s.Proofs.Host.Verdict
import Blake2s.Proofs.Session.Settled

set_option autoImplicit false

/-! # Selection in a session

In a session anything may come after anything: changes of the environment and of the candidate, calls
for a detection, and uses of states and hashers, some of which need the selected backend. For each act
`Act.noted` does with a host what the act does, through the engine that keeps a record of the demands
(`Act.follows_noted`). So what the record tells of one act can be put together to what it tells of the
whole session (`Session.selection_of_demands`). -/

namespace Blake2s

/-! ## Acts with a record -/

namespace Noted

variable {α : Type}

/-- What is done, without what it returns. -/
def forget (x : NotedM α) : NotedM Unit := do
  let _ ← x
  return ()

theorem runOn_forget (x : NotedM α) (n : Noted) :
    Action.runOn (forget x) n = ((Action.runOn x n).1.map fun _ => (), (Action.runOn x n).2) := by
  rw [forget, Action.runOn_bind]
  rcases Action.runOn x n with ⟨_ | _, _⟩ <;> rfl

/-- An operation on a named state, through the engine that belongs to it. -/
def onState (A : Session) (name : String) (op : Engine Noted → HashM Noted α) : NotedM Unit :=
  forget (HashM.evalFrom (A.state name) (op (engine (A.holder name).pin)))

/-- An operation on a named hasher; nothing is done under a name without one. -/
def onHasher (A : Session) (name : String) (op : Hasher → NotedM α) : NotedM Unit :=
  match A.hashers[name]? with
  | some hasher => forget (op hasher)
  | none => return ()

end Noted

open Noted (forget quietly)

/-- What a command does to the host of a session. -/
def Command.noted (A : Session) : Command → NotedM Unit
  | .create _ (some backend) => forget (quietly (Host.register { backend }))
  | .init name outlen => Noted.onState A name fun engine => State.init engine outlen
  | .initKeyed name outlen key => Noted.onState A name fun engine => State.initKeyed engine outlen key
  | .start name fields key lastNode => do
    let p ← Parameters.ofFields fields
    Noted.onState A name fun engine => State.start engine p key lastNode
  | .update name data => Noted.onState A name fun engine => State.update engine data
  | .final name outlen => Noted.onState A name fun engine => State.final engine outlen
  | .finalInto name out outlen =>
    Noted.onState A name fun engine => State.finalWithin engine outlen (some out.length)
  | .createHasher _ options data => forget (Hasher.new (Noted.engine none) options data)
  | .updateHasher name data => Noted.onHasher A name fun hasher =>
    HashM.evalFrom hasher.state (State.update (Noted.engine none) data)
  | .digest name => Noted.onHasher A name fun hasher => hasher.digest (Noted.engine none)
  | .hexDigest name => Noted.onHasher A name fun hasher => hasher.hexDigest (Noted.engine none)
  | .setEnvironment environment => forget (quietly (modify fun p => { p with environment }))
  | .setCandidate candidate => forget (quietly (modify fun p => { p with candidate }))
  | .detect config => forget (Noted.detect (.call config) config)
  | .activeBackend => forget (Noted.activeBackend .question)
  | .selfTest none => forget do
    quietly (Session.reportMismatch (← SelfTest.run (Noted.engine none)))
  | .selfTest (some backend) => forget (quietly (Session.selfTestBackend backend))
  | .create _ none | .copy _ _ | .wipe _ | .overlay _ _ | .offers _ | .copyHasher _ _ | .inspect _ =>
    return ()

/-- The demands that a command may make. -/
def Command.mayDemand (A : Session) : Command → Occasion → Prop
  | .detect config, occasion => occasion = .call config
  | .activeBackend, occasion => occasion = .question
  | .init name _, occasion | .initKeyed name _ _, occasion | .start name _ _ _, occasion
  | .update name _, occasion | .final name _, occasion | .finalInto name _ _, occasion =>
    occasion = .compression ∧ (A.holder name).pin = none
  | .createHasher _ _ _, occasion | .updateHasher _ _, occasion | .digest _, occasion
  | .hexDigest _, occasion | .selfTest none, occasion => occasion = .compression
  | _, _ => False

namespace Act

/-- What an act does to the host of a session. -/
def noted (A : Session) : Act → NotedM Unit
  | command c => c.noted A
  | tag message key length => forget (Mac.tag (Noted.engine none) message key length)
  | verify given message key => forget (Mac.verify (Noted.engine none) given message key)
  | extract material salt => forget (Derivation.extract (Noted.engine none) material salt)
  | expand key info length => forget (Derivation.expand (Noted.engine none) key info length)
  | derive material salt info length =>
    forget (Derivation.derive (Noted.engine none) material salt info length)

/-- The demands that an act may make. -/
def mayDemand (A : Session) : Act → Occasion → Prop
  | command c => c.mayDemand A
  | _ => (· = .compression)

/-- The demands that an act makes. -/
def demands (act : Act) (A : Session) : List Demand :=
  (Action.runOn (act.noted A) { host := A.host }).2.demands

end Act

/-! ## Acts follow their records -/

namespace Session

variable {α : Type} {A B : Session} {may : Occasion → Prop}

/-- What is noted fails and succeeds as what is done does, and the record tells about the host that is
    left. -/
structure Follows (A : Session) (may : Occasion → Prop) (noted : NotedM Unit)
    (after : Except Fault Reply × Session) : Prop where
  outcome : (Action.runOn noted { host := A.host }).1 = after.1.map fun _ => ()
  tells : Noted.Tells A.host.selection may (Action.runOn noted { host := A.host }).2 after.2.host

namespace Follows

theorem nothing {after : Except Fault Reply × Session} {reply : Reply} (ok : after.1 = .ok reply)
    (host : after.2.host = A.host) : Follows A may (return ()) after where
  outcome := by rw [ok]; rfl
  tells := by
    rw [host]
    exact .first A.host may

theorem quietly {op : HostM α} (kept : ∀ p, (Action.runOn op p).2.selection = p.selection)
    {after : Except Fault Reply × Session}
    (outcome : after.1.map (fun _ => ()) = (Action.runOn op A.host).1.map fun _ => ())
    (host : after.2.host = (Action.runOn op A.host).2) :
    Follows A may (forget (Noted.quietly op)) after := by
  obtain ⟨same, tells⟩ := Noted.alike_quietly kept _ A.host (.first A.host may)
  refine ⟨?_, ?_⟩
  · rw [outcome, ← same, Noted.runOn_forget]
  · rw [host, Noted.runOn_forget]
    exact tells

/-- Something on the host that is alike, before something that leaves the host alone. -/
theorem onHost {x : NotedM α} {y : HostM α}
    (alike : Action.Alike (Noted.Tells A.host.selection may) x y) {f : α → SessionM Reply}
    (rest : ∀ a B, (∃ reply, (Action.runOn (f a) B).1 = .ok reply) ∧
      (Action.runOn (f a) B).2.host = B.host) :
    Follows A may (forget x) (Action.runOn (Session.onHost y >>= f) A) := by
  obtain ⟨same, tells⟩ := alike _ A.host (.first A.host may)
  rw [Action.runOn_bind, runOn_onHost]
  rcases run : Action.runOn y A.host with ⟨fault | a, p⟩
  · -- after a fault the rest is not done
    rw [run] at same tells
    refine ⟨?_, ?_⟩
    · rw [Noted.runOn_forget, same]
      rfl
    · rw [Noted.runOn_forget]
      exact tells
  · rw [run] at same tells
    obtain ⟨⟨reply, ok⟩, host⟩ := rest a { A with host := p }
    refine ⟨?_, ?_⟩
    · rw [Noted.runOn_forget, same, ok]
      rfl
    · rw [Noted.runOn_forget, host]
      exact tells

/-- An operation on a state. -/
theorem putBack {name : String} {x : HashM Noted α} {y : HashM Host α}
    (alike : HashM.Alike (Noted.Tells A.host.selection may) x y) (reply : α → Reply) :
    Follows A may (forget (HashM.evalFrom (A.state name) x))
      (A.putBack name reply (y.runOn (A.state name) A.host)) := by
  obtain ⟨same, tells⟩ := alike (A.state name) _ A.host (.first A.host may)
  refine ⟨?_, ?_⟩
  · rw [Noted.runOn_forget, HashM.runOn_evalFrom, same, Session.putBack]
    rcases (y.runOn (A.state name) A.host).1.1 with _ | _ <;> rfl
  · rw [Noted.runOn_forget, HashM.runOn_evalFrom]
    exact tells

end Follows

/-! ### Each command -/

theorem selection_of_reportMismatch (mismatch : Option SelfTest.KnownAnswer) (p : Host) :
    (Action.runOn (reportMismatch mismatch) p).2.selection = p.selection := by
  cases mismatch <;> rfl

theorem selection_of_selfTestBackend (backend : Backend) (p : Host) :
    (Action.runOn (selfTestBackend backend) p).2.selection = p.selection := by
  rw [selfTestBackend_eq, Action.runOn_bind, Action.runOn_lift]
  rcases (Action.runOn (SelfTest.run Backend.Instance.engine) { backend }).1 with fault | mismatch
  · rfl
  · exact selection_of_reportMismatch mismatch p

/-- What a command does after it has used the host, if that succeeds: a reply. -/
theorem replies_pure (reply : α → Reply) (a : α) (B : Session) :
    (∃ r, (Action.runOn (pure (reply a) : SessionM Reply) B).1 = .ok r) ∧
      (Action.runOn (pure (reply a) : SessionM Reply) B).2.host = B.host :=
  ⟨⟨reply a, rfl⟩, rfl⟩

theorem replies_selectedBackend (id : Option BackendId) (B : Session) :
    (∃ r, (Action.runOn (selectedBackend id) B).1 = .ok r) ∧
      (Action.runOn (selectedBackend id) B).2.host = B.host :=
  ⟨⟨_, rfl⟩, rfl⟩

/-- An operation on a state makes demands only if it has no pin. -/
theorem follows_onState (name : String) {op : {σ : Type} → Engine σ → HashM σ α}
    (alike : ∀ {σ τ : Type} {R : σ → τ → Prop} {e : Engine σ} {e' : Engine τ},
      e.Alike R e' → HashM.Alike R (op e) (op e')) (reply : α → Reply) :
    Follows A (fun occasion => occasion = .compression ∧ (A.holder name).pin = none)
      (Noted.onState A name op) (A.putBack name reply ((op (A.engine name)).runOn (A.state name) A.host)) :=
  .putBack (alike (Noted.alike_engine (A.holder name).pin fun unpinned => ⟨rfl, unpinned⟩)) reply

/-- The engine of whatever has no pin. -/
theorem alike_unpinned (start : Selection) :
    Engine.Alike (Noted.Tells start (· = .compression)) (Noted.engine none) (Host.engine none) :=
  Noted.alike_engine none fun _ => rfl

theorem follows_updateHasher (name : String) (data : Bytes) (A : Session) :
    Follows A (· = .compression) (Command.noted A (.updateHasher name data))
      (A.step (.updateHasher name data)) := by
  dsimp only [Command.noted, Noted.onHasher]
  cases here : A.hashers[name]? with
  | none =>
    have run : A.step (.updateHasher name data) = (.ok .done, A) := runOn_onHasher_of_none here _
    rw [run]
    exact .nothing rfl rfl
  | some hasher =>
    obtain ⟨same, tells⟩ := State.alike_update (alike_unpinned A.host.selection) data hasher.state _
      A.host (.first A.host _)
    have run := HasherCall.run_update here (Hasher.runOn_update (Host.engine none) hasher data A.host)
    -- the fault of an update comes up only after the hasher is put back, so `Follows.onHost` says
    -- nothing of it
    change A.step (.updateHasher name data) = _ at run
    rw [run]
    refine ⟨?_, ?_⟩
    · rw [Noted.runOn_forget, HashM.runOn_evalFrom, same]
      rcases ((State.update (Host.engine none) data).runOn hasher.state A.host).1.1 with _ | _ <;> rfl
    · rw [Noted.runOn_forget, HashM.runOn_evalFrom]
      exact tells

/-- What is computed from a hasher. -/
theorem follows_onHasher (name : String) {x : Hasher → NotedM α} {y : Hasher → HostM α}
    (alike : ∀ hasher, Action.Alike (Noted.Tells A.host.selection may) (x hasher) (y hasher))
    (reply : α → Reply) :
    Follows A may (Noted.onHasher A name x)
      (Action.runOn (onHasher name fun hasher => return reply (← onHost (y hasher))) A) := by
  dsimp only [Noted.onHasher]
  cases here : A.hashers[name]? with
  | none =>
    rw [runOn_onHasher_of_none here]
    exact .nothing rfl rfl
  | some hasher =>
    rw [runOn_onHasher_of_some here]
    exact .onHost (alike hasher) (replies_pure reply)

/-- What is done with a hasher without the host. -/
theorem follows_onHasher_nothing (name : String) {op : Hasher → SessionM Reply}
    (quiet : ∀ hasher, (∃ reply, (Action.runOn (op hasher) A).1 = .ok reply) ∧
      (Action.runOn (op hasher) A).2.host = A.host) :
    Follows A may (return ()) (Action.runOn (onHasher name op) A) := by
  cases here : A.hashers[name]? with
  | none =>
    rw [runOn_onHasher_of_none here]
    exact .nothing rfl rfl
  | some hasher =>
    obtain ⟨⟨reply, ok⟩, host⟩ := quiet hasher
    rw [runOn_onHasher_of_some here]
    exact .nothing ok host

end Session

open Session in
/-- **What is noted of an act is what the act does.** -/
theorem Act.follows_noted (act : Act) (A : Session) :
    Follows A (act.mayDemand A) (act.noted A) (act.run A) := by
  have engine := alike_unpinned A.host.selection
  cases act with
  | tag message key length => exact .onHost (Mac.alike_tag engine message key length) (replies_pure _)
  | verify given message key =>
    exact .onHost (Mac.alike_verify engine given message key) (replies_pure _)
  | extract material salt =>
    exact .onHost (Derivation.alike_extract engine material salt) (replies_pure _)
  | expand key info length =>
    exact .onHost (Derivation.alike_expand engine key info length) (replies_pure _)
  | derive material salt info length =>
    exact .onHost (Derivation.alike_derive engine material salt info length) (replies_pure _)
  | command c =>
    change Follows A (c.mayDemand A) (c.noted A) (A.step c)
    cases c with
    | create name backend =>
      cases backend with
      | none => exact .nothing rfl rfl
      | some backend => exact .quietly (fun _ => rfl) rfl rfl
    | init name outlen =>
      rw [step_init]
      exact follows_onState name (fun h => State.alike_init h outlen) _
    | initKeyed name outlen key =>
      rw [step_initKeyed]
      exact follows_onState name (fun h => State.alike_initKeyed h outlen key) _
    | start name fields key lastNode =>
      rw [step_start, Command.noted]
      cases Parameters.ofFields fields with
      | error fault => exact ⟨rfl, .first A.host _⟩
      | ok p => exact follows_onState name (fun h => State.alike_start h p key lastNode) _
    | update name data =>
      rw [step_update]
      exact follows_onState name (fun h => State.alike_update h data) _
    | final name outlen =>
      rw [step_final]
      exact follows_onState name (fun h => State.alike_finalWithin h outlen none) _
    | finalInto name out outlen =>
      rw [step_finalInto]
      exact follows_onState name (fun h => State.alike_finalWithin h outlen (some out.length)) _
    | copy name target => exact .nothing rfl rfl
    | wipe name => exact .nothing rfl rfl
    | overlay name overlay => exact .nothing rfl rfl
    | offers name => exact .nothing rfl rfl
    | createHasher name options data =>
      refine .onHost (Hasher.alike_new engine options data) fun hasher B => ?_
      exact ⟨⟨_, rfl⟩, rfl⟩
    | updateHasher name data => exact follows_updateHasher name data A
    | digest name => exact follows_onHasher name (Hasher.alike_digest engine) .bytes
    | hexDigest name => exact follows_onHasher name (Hasher.alike_hexDigest engine) .text
    | copyHasher name target =>
      exact follows_onHasher_nothing name fun hasher => ⟨⟨.size hasher.digestSize, rfl⟩, rfl⟩
    | inspect name =>
      exact follows_onHasher_nothing name fun hasher => ⟨⟨.state hasher.state, rfl⟩, rfl⟩
    | setEnvironment environment => exact .quietly (fun _ => rfl) rfl rfl
    | setCandidate candidate => exact .quietly (fun _ => rfl) rfl rfl
    | detect config =>
      have alike : Action.Alike (Noted.Tells A.host.selection (· = .call config))
          (Noted.detect (.call config) config) (Host.detect config) := Noted.alike_detect rfl
      exact .onHost alike replies_selectedBackend
    | activeBackend =>
      have lazy (config : Option Config) : Occasion.question ≠ .call config := nofun
      have alike : Action.Alike (Noted.Tells A.host.selection (· = .question))
          (Noted.activeBackend .question) Host.activeBackend := Noted.alike_activeBackend lazy rfl
      exact .onHost alike replies_selectedBackend
    | selfTest backend =>
      cases backend with
      | none =>
        refine .onHost ?_ (replies_pure Reply.flag)
        rw [selfTestSelected_eq]
        refine .bind (SelfTest.alike_run engine) fun mismatch => ?_
        exact Noted.alike_quietly (selection_of_reportMismatch mismatch)
      | some backend =>
        exact .onHost (Noted.alike_quietly (selection_of_selfTestBackend backend))
          (replies_pure Reply.flag)

/-! ## Acts one after the other -/

/-- Only a call for a detection demands one. -/
theorem Act.ne_call {act : Act} {A : Session} {occasion : Occasion} (may : act.mayDemand A occasion)
    (detection : act.isDetection = false) (config : Option Config) : occasion ≠ .call config := by
  rintro rfl
  cases act with
  | command c =>
    cases c with
    | detect config => exact nomatch detection
    | selfTest backend => cases backend <;> exact nomatch may
    | _ => exact nomatch may
  | _ => exact nomatch may

namespace Session

variable {A : Session} {acts : List Act}

/-- The demands that acts make. -/
def demands : List Act → Session → List Demand
  | [], _ => []
  | act :: acts, A => act.demands A ++ demands acts (act.run A).2

/-- **What the record tells of all acts**: what is selected, and that the detection was run when it was
    due. -/
theorem perform_tells (acts : List Act) (A : Session) :
    (perform acts A).host.selection = A.host.selection.after (demands acts A) ∧
      Timely A.host.selection (demands acts A) := by
  induction acts generalizing A with
  | nil => exact ⟨rfl, .nil _⟩
  | cons act acts ih =>
    obtain ⟨-, here⟩ := act.follows_noted A
    obtain ⟨selection, timely⟩ := ih (act.run A).2
    rw [here.selection] at selection timely
    refine ⟨?_, here.timely.append timely⟩
    rw [demands, Selection.after_append]
    exact selection

theorem mayDemand_of_mem {d : Demand} (h : d ∈ demands acts A) :
    ∃ act ∈ acts, ∃ B, act.mayDemand B d.occasion := by
  induction acts generalizing A with
  | nil => exact nomatch h
  | cons act acts ih =>
    rcases List.mem_append.mp h with now | later
    · exact ⟨act, List.mem_cons_self, A, (act.follows_noted A).tells.may d now⟩
    · obtain ⟨other, mem, B, may⟩ := ih later
      exact ⟨other, List.mem_cons_of_mem _ mem, B, may⟩

/-- In a settled session the detection is run on call only. -/
theorem run_of_settled (settled : A.host.selection ≠ .undetected)
    (uncalled : ∀ act ∈ acts, act.isDetection = false) : ∀ d ∈ demands acts A, d.run = none := by
  intro d mem
  obtain ⟨act, h, B, may⟩ := mayDemand_of_mem mem
  obtain ⟨earlier, later, split⟩ := List.append_of_mem mem
  have due := (perform_tells acts A).2 earlier d later split
  cases run : d.run with
  | none => rfl
  | some outcome =>
    have triggered : d.run ≠ none := by
      rw [run]
      exact nofun
    rcases due.mp triggered with ⟨config, call⟩ | undetected
    · exact absurd call (Act.ne_call may (uncalled act h) config)
    · exact absurd undetected (Selection.after_ne_undetected settled earlier)

/-- **Backend selection as a state machine.** Whatever is done in a session, with whatever candidates:

    - The record of the demands is faithful. Each act fails and leaves its host as noted, and makes the
      demands that it may make only. A question and a call are one demand each; a compression is one
      if the state has no pin, and none if it has.
    - The selection is always what the latest run of the detection has returned that succeeded.
    - A demand has the detection run if it is a call, or as long as no run has succeeded, and else not.
    - A run that fails changes nothing but the log.
    - Once one has succeeded, changes of the environment and of the candidate have no effect until the
      next call: they can be left out, and nothing is run.
    - A run fails for the configuration, or else for a self-test, or it selects what is asked for. -/
theorem selection_of_demands (A : Session) (acts : List Act) :
    ((∀ (act : Act) (B : Session), Follows B (act.mayDemand B) (act.noted B) (act.run B)) ∧
      (∀ B : Session, (Act.command .activeBackend).demands B = [Noted.lookup B.host .question]) ∧
      (∀ (config : Option Config) (B : Session), (Act.command (.detect config)).demands B
        = [{ occasion := .call config, run := some (Action.runOn (Host.detect config) B.host).1 }]) ∧
      ∀ (pin : Option BackendId) (chain : Chain) (batch : Batch) (n : Noted),
        Action.runOn (Noted.engine pin chain batch) n
          = let run := Action.runOn (Host.engine pin chain batch) n.host
            let new := pin.elim [Noted.lookup n.host .compression] fun _ => []
            (run.1, { host := run.2, demands := n.demands ++ new })) ∧
    (perform acts A).host.selection = A.host.selection.after (demands acts A) ∧
    (∀ earlier d later, demands acts A = earlier ++ d :: later →
      (d.run ≠ none ↔ (∃ config, d.occasion = .call config) ∨
        (A.host.selection.after earlier = .undetected))) ∧
    (∀ (config : Option Config) (p : Host) (fault : Fault) (q : Host),
      Action.runOn (Host.detect config) p = (.error fault, q) → p.SameButLog q) ∧
    (∀ later : List Act, (perform acts A).host.selection ≠ .undetected →
      (∀ act ∈ later, act.isDetection = false) →
        let B := perform acts A
        replies (later.filter (!·.isSetting)) B = (replies later B).filter (!·.1.isSetting) ∧
        (perform (later.filter (!·.isSetting)) B).SameButSettings (perform later B) ∧
        ∀ d ∈ demands later B, d.run = none) ∧
    ∀ (config : Option Config) (p : Host), p.Ruled config (Action.runOn (Host.detect config) p) := by
  obtain ⟨selection, timely⟩ := perform_tells acts A
  refine ⟨⟨Act.follows_noted, fun B => ?_, fun config B => ?_, Noted.runOn_engine⟩, selection, timely,
    fun config p fault q => Host.sameButLog_of_detect_error, fun later settled uncalled => ?_,
    fun config p => Host.ruled_detect p config⟩
  · rw [Act.demands, Act.noted, Command.noted, Noted.runOn_forget, Noted.runOn_activeBackend]
    rfl
  · rw [Act.demands, Act.noted, Command.noted, Noted.runOn_forget, Noted.runOn_detect]
    rfl
  · obtain ⟨replies, last⟩ := replies_settled (.refl settled) uncalled
    exact ⟨replies, last, run_of_settled settled uncalled⟩

/-- Two questions in a fresh session: the environment cannot be read at the first, is repaired before
    the second, and cannot be read again when a state is used. -/
theorem selection_of_demands_unreadable :
    let unreadable : Act := .command (.setEnvironment { minBlocks := some "many" })
    let repaired : Act := .command (.setEnvironment { noSimd := some "1" })
    let question : Act := .command .activeBackend
    let acts : List Act := [unreadable, question, repaired, question]
    let uses : List Act := [.command (.init "s" 32), .command (.update "s" (Bytes.zeros 65))]
    let B := perform acts {}
    let failed := Action.runOn (Host.detect none) { environment := { minBlocks := some "many" } }
    demands acts {}
        = [{ occasion := .question, run := some (.error (.minBlocksText "many")) },
           { occasion := .question, run := some (.ok none) }] ∧
      B.host.selection = .detected none ∧
      failed.1 = .error (.minBlocksText "many") ∧
      Host.SameButLog { environment := { minBlocks := some "many" } } failed.2 ∧
      (∀ act ∈ unreadable :: uses, act.isDetection = false) ∧
      replies uses B = (replies (unreadable :: uses) B).filter (!·.1.isSetting) ∧
      ∀ d ∈ demands (unreadable :: uses) B, d.run = none := by
  intro unreadable repaired question acts uses B failed
  obtain ⟨-, selection, -, unchanged, unaffected, -⟩ := selection_of_demands {} acts
  have made : demands acts {} = _ := rfl
  rw [made] at selection
  have settled : B.host.selection = .detected none := selection
  have outcome : failed.1 = .error (.minBlocksText "many") := rfl
  have uncalled : ∀ act ∈ unreadable :: uses, act.isDetection = false := by
    simp [unreadable, uses, Act.isDetection]
  have detected : B.host.selection ≠ .undetected := by
    rw [settled]
    exact nofun
  obtain ⟨same, -, unrun⟩ := unaffected (unreadable :: uses) detected uncalled
  exact ⟨made, settled, outcome, unchanged none _ _ _ (Prod.ext outcome rfl), uncalled, same, unrun⟩

end Session

end Blake2s
