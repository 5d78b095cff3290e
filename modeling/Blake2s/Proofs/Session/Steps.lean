import Blake2s.Proofs.Host.Detection
import Blake2s.Session

set_option autoImplicit false

/-! # Commands, one at a time

What a command does to a session. A command on a state runs one operation of the state, through the
engine that belongs to it, and puts back what that leaves, also if it fails: there is one equation for
each such command, and `Session.putBack` is what they have in common. A command does nothing to the
states under other names than its target (`Session.holder_step`). -/

namespace Blake2s

/-- The name whose state a command may change. -/
def Command.target : Command → Option String
  | create name _ | init name _ | initKeyed name _ _ | start name _ _ _ | update name _ | final name _
  | finalInto name _ _ | copy _ name | wipe name | overlay name _ => some name
  | _ => none

namespace Session

variable {α : Type} {A : Session} {name other : String} {hasher : Hasher}

/-! ## The parts of a session -/

/-- The state under a name. -/
def state (A : Session) (name : String) : State := (A.holder name).state

/-- The engine of the state under a name. -/
def engine (A : Session) (name : String) : Engine Host := Host.engine (A.holder name).pin

/-- A session with another host, and with another state under a name. The pin stays. -/
def put (A : Session) (name : String) (state : State) (host : Host) : Session :=
  { A with host, states := A.states.insert name { state, pin := (A.holder name).pin } }

theorem holder_empty (name : String) : ({} : Session).holder name = {} := Std.HashMap.getD_empty

theorem holder_insert (A : Session) (host : Host) (name : String) (holder : Holder) (other : String) :
    Session.holder { A with host, states := A.states.insert name holder } other
      = if name = other then holder else A.holder other := by
  simp only [Session.holder, Std.HashMap.getD_insert, beq_iff_eq]

theorem state_insert (A : Session) (host : Host) (name : String) (holder : Holder) (other : String) :
    Session.state { A with host, states := A.states.insert name holder } other
      = if name = other then holder.state else A.state other := by
  rw [state, holder_insert, apply_ite Holder.state]
  rfl

theorem state_put (A : Session) (name : String) (s : State) (host : Host) :
    (A.put name s host).state name = s := by
  rw [put, state_insert, if_pos rfl]

theorem pin_put (A : Session) (name : String) (s : State) (host : Host) (other : String) :
    ((A.put name s host).holder other).pin = (A.holder other).pin := by
  rw [put, holder_insert]
  split
  next h => rw [h]
  next => rfl

theorem holder_put_of_ne (h : name ≠ other) (s : State) (host : Host) :
    (A.put name s host).holder other = A.holder other := by
  rw [put, holder_insert, if_neg h]

/-- To put back what was there changes no holder. -/
theorem holder_put_self (A : Session) (name : String) (host : Host) (other : String) :
    (A.put name (A.state name) host).holder other = A.holder other := by
  rw [put, holder_insert]
  split
  next h =>
    subst h
    rfl
  next => rfl

/-! ## Operations in a session -/

theorem runOn_onHost (op : HostM α) (A : Session) :
    Action.runOn (onHost op) A
      = ((Action.runOn op A.host).1, { A with host := (Action.runOn op A.host).2 }) := rfl

theorem runOn_onHost_map {β : Type} (op : HostM α) (f : α → β) (A : Session) :
    Action.runOn (onHost op >>= fun a => pure (f a)) A
      = ((Action.runOn op A.host).1.map f, { A with host := (Action.runOn op A.host).2 }) := by
  rw [Action.runOn_bind, runOn_onHost]
  rcases Action.runOn op A.host with ⟨_ | _, _⟩ <;> rfl

theorem runOn_onHasher_of_some (h : A.hashers[name]? = some hasher) (op : Hasher → SessionM Reply) :
    Action.runOn (onHasher name op) A = Action.runOn (op hasher) A := by
  simp only [onHasher, Action.runOn_bind, Action.runOn_get, h]

theorem runOn_onHasher_of_none (h : A.hashers[name]? = none) (op : Hasher → SessionM Reply) :
    Action.runOn (onHasher name op) A = (.ok .done, A) := by
  simp only [onHasher, Action.runOn_bind, Action.runOn_get, h, Action.runOn_pure]

theorem runOn_putHasher (name : String) (hasher : Hasher) (A : Session) :
    Action.runOn (putHasher name hasher) A
      = (.ok (), { A with hashers := A.hashers.insert name hasher }) := rfl

theorem runOn_onState (name : String) (op : Engine Host → HashM Host α) (A : Session) :
    Action.runOn (onState name op) A
      = let run := (op (A.engine name)).runOn (A.state name) A.host
        (run.1.1, A.put name run.1.2 run.2) := rfl

/-- What comes of the run of an operation on a state: a reply, and the session with the state put
    back. -/
def putBack (A : Session) (name : String) (reply : α → Reply)
    (run : (Except Fault α × State) × Host) : Except Fault Reply × Session :=
  (run.1.1.map reply, A.put name run.1.2 run.2)

theorem error_of_map {α β : Type} {f : α → β} {x : Except Fault α} {fault : Fault}
    (h : x.map f = .error fault) : x = .error fault := by
  cases x with
  | error fault' => exact congrArg Except.error (Except.error.inj h)
  | ok a => exact nomatch h

theorem runOn_onState_map (name : String) (op : Engine Host → HashM Host α) (reply : α → Reply)
    (A : Session) :
    Action.runOn (onState name op >>= fun a => pure (reply a)) A
      = A.putBack name reply ((op (A.engine name)).runOn (A.state name) A.host) := by
  rw [Action.runOn_bind, runOn_onState]
  rcases (op (A.engine name)).runOn (A.state name) A.host with ⟨⟨_ | _, _⟩, _⟩ <;> rfl

/-! ## Commands on states -/

theorem step_init (name : String) (outlen : Int) (A : Session) :
    A.step (.init name outlen)
      = A.putBack name (fun _ => .done)
          ((State.init (A.engine name) outlen).runOn (A.state name) A.host) :=
  runOn_onState_map name _ _ A

theorem step_initKeyed (name : String) (outlen : Int) (key : Bytes) (A : Session) :
    A.step (.initKeyed name outlen key)
      = A.putBack name (fun _ => .done)
          ((State.initKeyed (A.engine name) outlen key).runOn (A.state name) A.host) :=
  runOn_onState_map name _ _ A

/-- The fields are checked before anything else is done. -/
theorem step_start (name : String) (fields : Parameters.Fields) (key : Bytes) (lastNode : Bool)
    (A : Session) :
    A.step (.start name fields key lastNode)
      = match Parameters.ofFields fields with
        | .ok p =>
          A.putBack name (fun _ => .done)
            ((State.start (A.engine name) p key lastNode).runOn (A.state name) A.host)
        | .error fault => (.error fault, A) := by
  change Action.runOn (execute _) A = _
  rw [execute, Action.runOn_bind, Action.runOn_lift]
  cases Parameters.ofFields fields with
  | ok p => exact runOn_onState_map name (fun engine => State.start engine p key lastNode) _ A
  | error fault => rfl

theorem step_update (name : String) (data : Bytes) (A : Session) :
    A.step (.update name data)
      = A.putBack name (fun _ => .done)
          ((State.update (A.engine name) data).runOn (A.state name) A.host) :=
  runOn_onState_map name _ _ A

theorem step_final (name : String) (requested : Option Int) (A : Session) :
    A.step (.final name requested)
      = A.putBack name .bytes
          ((State.finalWithin (A.engine name) requested none).runOn (A.state name) A.host) :=
  runOn_onState_map name _ _ A

theorem step_finalInto (name : String) (out : Bytes) (requested : Option Int) (A : Session) :
    A.step (.finalInto name out requested)
      = A.putBack name (fun digest => .bytes (out.overwrite digest))
          ((State.finalWithin (A.engine name) requested (some out.length)).runOn (A.state name)
            A.host) := by
  change Action.runOn (execute _) A = _
  simp only [execute, Action.runOn_bind, runOn_onState, State.finalInto_eq_map,
    HashM.runOn_lift_map, Action.runOn_lift]
  rcases (State.finalWithin (A.engine name) requested (some out.length)).runOn (A.state name)
    A.host with ⟨⟨_ | _, _⟩, _⟩ <;> rfl

theorem step_wipe (name : String) (A : Session) :
    A.step (.wipe name) = (.ok .done, A.put name {} A.host) := by
  have run : A.step (.wipe name) = A.putBack name (fun _ => .done) _ :=
    runOn_onState_map name (fun _ => State.wipe) _ A
  rw [run, State.wipe_eq]
  rfl

theorem step_overlay (name : String) (overlay : Overlay) (A : Session) :
    A.step (.overlay name overlay)
      = (.ok .done, A.put name ((A.state name).overlay overlay) A.host) := by
  have run := runOn_onState_map name (fun _ => modify (·.overlay overlay))
    (fun _ : PUnit => .done) A
  rw [HashM.runOn_modify] at run
  exact run

theorem step_copy (name target : String) (A : Session) :
    A.step (.copy name target)
      = (.ok .done, { A with states := A.states.insert target (A.holder name) }) := rfl

/-- A backend that is given is taken into use, and only then a state is put under the name. -/
theorem step_create (name : String) (backend : Option Backend) (A : Session) :
    A.step (.create name backend)
      = (.ok .done,
        { A with
          host := backend.elim A.host fun b =>
            { A.host with backends := A.host.backends.push { backend := b } }
          states := A.states.insert name { pin := backend.map fun _ => A.host.backends.size } }) := by
  cases backend <;> rfl

/-! ## What is told of backends -/

section Backends

variable {R : Session → Session → Prop}

theorem alike_selectedBackend
    (backends : ∀ {A B}, R A B → ∀ id, B.host.backend? id = A.host.backend? id)
    (id : Option BackendId) : Action.Alike R (selectedBackend id) (selectedBackend id) := by
  intro A B related
  refine ⟨?_, related⟩
  cases id with
  | none => rfl
  | some id =>
    change (Except.ok (.backend (A.host.backend? id)) : Except Fault Reply)
      = .ok (.backend (B.host.backend? id))
    rw [backends related]

theorem alike_offers (pins : ∀ {A B}, R A B → ∀ name, (B.holder name).pin = (A.holder name).pin)
    (backends : ∀ {A B}, R A B → B.host.backends = A.host.backends) (name : String) :
    Action.Alike R (execute (.offers name)) (execute (.offers name)) := by
  intro A B related
  refine ⟨?_, related⟩
  change Except.ok (Reply.offers (((A.holder name).pin.bind fun id => A.host.backends[id]?).elim []
      (·.offers)))
    = .ok (.offers (((B.holder name).pin.bind fun id => B.host.backends[id]?).elim [] (·.offers)))
  rw [pins related, backends related]

end Backends

/-! ## The self-test -/

/-- Reports the outcome of a self-test. -/
def reportMismatch : Option SelfTest.KnownAnswer → HostM Bool
  | none => return true
  | some answer => do Host.report (.mismatch answer); return false

theorem selfTestBackend_eq (backend : Backend) :
    selfTestBackend backend
      = liftM (Action.runOn (SelfTest.run Backend.Instance.engine) { backend }).1
        >>= reportMismatch := by
  unfold selfTestBackend Action.runOn
  -- the run is made opaque, so that nothing computes it
  rcases (SelfTest.run Backend.Instance.engine).run.run { backend } with ⟨_, _⟩
  rfl

theorem selfTestSelected_eq :
    selfTestSelected = SelfTest.run (Host.engine none) >>= reportMismatch := by
  refine bind_congr fun mismatch => ?_
  cases mismatch <;> rfl

section Alike

variable {R : Host → Host → Prop}
  (report : ∀ event, Action.Alike R (Host.report event) (Host.report event))

include report

theorem alike_reportMismatch (mismatch : Option SelfTest.KnownAnswer) :
    Action.Alike R (reportMismatch mismatch) (reportMismatch mismatch) := by
  cases mismatch with
  | none => exact .pure _
  | some answer => exact .bind (report _) fun _ => .pure _

/-- Engines that are alike pass and fail the self-test alike. -/
theorem alike_selfTestSelected (engine : Engine.Alike R (Host.engine none) (Host.engine none)) :
    Action.Alike R selfTestSelected selfTestSelected := by
  rw [selfTestSelected_eq]
  exact .bind (SelfTest.alike_run engine) (alike_reportMismatch report)

theorem alike_selfTestBackend (backend : Backend) :
    Action.Alike R (selfTestBackend backend) (selfTestBackend backend) := by
  rw [selfTestBackend_eq]
  exact .bind (.lift _) (alike_reportMismatch report)

end Alike

/-! ## What a command leaves alone -/

/-- Other commands than those on a state keep all states. -/
theorem states_step {c : Command} (h : c.target = none) : (A.step c).2.states = A.states := by
  have onHost {α : Type} (op : HostM α) :
      Action.Keeps (fun B : Session => B.states = A.states) (onHost op) fun _ => True :=
    fun _ kept => ⟨kept, fun _ _ => trivial⟩
  have putHasher (name : String) (hasher : Hasher) :
      Action.Keeps (fun B : Session => B.states = A.states) (putHasher name hasher) fun _ => True :=
    .modifyState fun _ kept => kept
  have onHasher {name : String} {op : Hasher → SessionM Reply}
      (kept : ∀ hasher, Action.Keeps (fun B : Session => B.states = A.states) (op hasher)
        fun _ => True) :
      Action.Keeps (fun B : Session => B.states = A.states) (onHasher name op) fun _ => True := by
    refine .bind .get fun B _ => ?_
    split
    · exact kept _
    · exact .pure trivial
  have selected (id : Option BackendId) :
      Action.Keeps (fun B : Session => B.states = A.states) (selectedBackend id) fun _ => True :=
    .bind .get fun _ _ => .pure trivial
  have kept : Action.Keeps (fun B : Session => B.states = A.states) (execute c) fun _ => True := by
    cases c with
    | offers name => exact .bind .get fun _ _ => .pure trivial
    | createHasher name options data =>
      exact .bind (onHost _) fun hasher _ => .bind (putHasher name hasher) fun _ _ => .pure trivial
    | updateHasher name data =>
      refine onHasher fun hasher => .bind (onHost _) fun result _ => ?_
      exact .bind (putHasher name result.2) fun _ _ => .bind (.lift _) fun _ _ => .pure trivial
    | digest name => exact onHasher fun _ => .bind (onHost _) fun _ _ => .pure trivial
    | hexDigest name => exact onHasher fun _ => .bind (onHost _) fun _ _ => .pure trivial
    | copyHasher name target =>
      exact onHasher fun hasher => .bind (putHasher target hasher) fun _ _ => .pure trivial
    | inspect name => exact onHasher fun _ => .pure trivial
    | setEnvironment environment =>
      exact .bind (.modifyState fun _ kept => kept) fun _ _ => .pure trivial
    | setCandidate candidate =>
      exact .bind (.modifyState fun _ kept => kept) fun _ _ => .pure trivial
    | detect config => exact .bind (onHost _) fun id _ => selected id
    | activeBackend => exact .bind (onHost _) fun id _ => selected id
    | selfTest backend =>
      cases backend with
      | none => exact .bind (onHost _) fun _ _ => .pure trivial
      | some backend => exact .bind (onHost _) fun _ _ => .pure trivial
    | _ => exact nomatch h
  exact (kept A rfl).1

/-- **A command does not touch the states of other names.** -/
theorem holder_step {c : Command} (h : c.target ≠ some name) :
    (A.step c).2.holder name = A.holder name := by
  cases target : c.target with
  | none => rw [holder, states_step target, holder]
  | some other =>
    have ne : other ≠ name := fun same => h (target.trans (congrArg some same))
    have putBack {α : Type} (reply : α → Reply) (run : (Except Fault α × State) × Host) :
        (A.putBack other reply run).2.holder name = A.holder name := holder_put_of_ne ne _ _
    cases c with
    | create name backend =>
      obtain ⟨⟩ := target
      rw [step_create, holder_insert, if_neg ne]
    | init name outlen =>
      obtain ⟨⟩ := target
      rw [step_init, putBack]
    | initKeyed name outlen key =>
      obtain ⟨⟩ := target
      rw [step_initKeyed, putBack]
    | start name fields key lastNode =>
      obtain ⟨⟩ := target
      rw [step_start]
      split
      · exact putBack _ _
      · rfl
    | update name data =>
      obtain ⟨⟩ := target
      rw [step_update, putBack]
    | final name requested =>
      obtain ⟨⟩ := target
      rw [step_final, putBack]
    | finalInto name out requested =>
      obtain ⟨⟩ := target
      rw [step_finalInto, putBack]
    | copy source name =>
      obtain ⟨⟩ := target
      rw [step_copy, holder_insert, if_neg ne]
    | wipe name =>
      obtain ⟨⟩ := target
      rw [step_wipe, holder_put_of_ne ne]
    | overlay name overlay =>
      obtain ⟨⟩ := target
      rw [step_overlay, holder_put_of_ne ne]
    | _ => exact nomatch target

end Session

end Blake2s
