import Blake2s.Hasher
import Blake2s.Host
import Std.Data.HashMap

set_option autoImplicit false

/-! # Sessions

A session is a host with any number of named states and hashers in it. A `Command` is one use of
one of them, or of the host itself; `Session.step` carries it out. A command that fails leaves the
session as the failed operation leaves it, and the session goes on.

A name that was never given stands for a state that is not live and has no backend of its own. -/

namespace Blake2s

/-- A state with the backend that it is pinned to, if it is pinned to one. -/
structure Holder where
  state : State := {}
  pin : Option BackendId := none
  deriving DecidableEq, Repr

/-- Parts of a state to be overwritten; `none` for a part that stays. -/
structure Overlay where
  h : Option (Vector UInt32 8) := none
  t : Option Counter := none
  f : Option Flags := none
  lastNode : Option Bool := none
  deriving DecidableEq, Repr

def State.overlay (s : State) (o : Overlay) : State :=
  { s with
    chain := { h := o.h.getD s.chain.h, t := o.t.getD s.chain.t, f := o.f.getD s.chain.f }
    lastNode := o.lastNode.getD s.lastNode }

/-- What can be done in a session. -/
inductive Command where
  -- states
  /-- Puts a fresh state under a name, pinned to a fresh backend if one is given. -/
  | create (name : String) (backend : Option Backend)
  | init (name : String) (outlen : Int)
  | initKeyed (name : String) (outlen : Int) (key : Bytes)
  | start (name : String) (fields : Parameters.Fields) (key : Bytes) (lastNode : Bool)
  | update (name : String) (data : Bytes)
  | final (name : String) (outlen : Option Int)
  /-- Finishes a state and writes its digest to a buffer. -/
  | finalInto (name : String) (out : Bytes) (outlen : Option Int)
  /-- Copies a state, with its backend, to another name. -/
  | copy (name target : String)
  | wipe (name : String)
  | overlay (name : String) (overlay : Overlay)
  /-- Asks for all that was offered to the backend of a state. -/
  | offers (name : String)
  -- hashers
  | createHasher (name : String) (options : Hasher.Options) (data : Bytes)
  | updateHasher (name : String) (data : Bytes)
  | digest (name : String)
  | hexDigest (name : String)
  | copyHasher (name target : String)
  | inspect (name : String)
  -- the host
  | setEnvironment (environment : Environment)
  /-- Sets what detection tries as the vectorized backend. -/
  | setCandidate (candidate : Candidate)
  /-- Detects the backend, with the given configuration or that of the environment. -/
  | detect (config : Option Config)
  | activeBackend
  /-- Runs the self-test on a fresh backend, or on the selected one. -/
  | selfTest (backend : Option Backend)

/-- What a command returns. -/
inductive Reply where
  | done
  | bytes (bytes : Bytes)
  | text (text : String)
  | size (size : Nat)
  | flag (value : Bool)
  | state (state : State)
  | offers (offers : List Offer)
  | backend (backend : Option Backend)

/-- A host with named states and hashers. -/
structure Session where
  host : Host := {}
  states : Std.HashMap String Holder := {}
  hashers : Std.HashMap String Hasher := {}

/-- Operations on a session. When one fails, the changes made so far stay. -/
abbrev SessionM := ExceptT Fault (StateM Session)

namespace Session

def holder (session : Session) (name : String) : Holder := session.states.getD name {}

def onHost {α : Type} (op : HostM α) : SessionM α := ExceptT.mk do
  let session ← get
  let (outcome, host) := op.run.run session.host
  set { session with host }
  return outcome

/-- An operation on a named state, through the engine that belongs to it. -/
def onState {α : Type} (name : String) (op : Engine Host → HashM Host α) : SessionM α :=
  ExceptT.mk do
    let session ← get
    let { state, pin } := session.holder name
    let ((outcome, state), host) := ((op (Host.engine pin)).run.run state).run session.host
    set { session with host, states := session.states.insert name { state, pin } }
    return outcome

/-- An operation on a named hasher; nothing is done under a name without one. -/
def onHasher (name : String) (op : Hasher → SessionM Reply) : SessionM Reply := do
  match (← get).hashers[name]? with
  | some hasher => op hasher
  | none => return .done

def putHasher (name : String) (hasher : Hasher) : SessionM Unit :=
  modify fun session => { session with hashers := session.hashers.insert name hasher }

def putState (name : String) (holder : Holder) : SessionM Unit :=
  modify fun session => { session with states := session.states.insert name holder }

/-- The self-test of the selected backend, with its report. -/
def selfTestSelected : HostM Bool := do
  match ← SelfTest.run (Host.engine none) with
  | none => return true
  | some answer => Host.report (.mismatch answer); return false

/-- The self-test of a fresh backend, with its report. -/
def selfTestBackend (backend : Backend) : HostM Bool := do
  let (outcome, _) := (SelfTest.run Backend.Instance.engine).run.run { backend }
  match ← outcome with
  | none => return true
  | some answer => Host.report (.mismatch answer); return false

/-- The backend behind a selection. -/
def selectedBackend (id : Option BackendId) : SessionM Reply := do
  let backends := (← get).host.backends
  return .backend (id.bind fun id => backends[id]?.map (·.backend))

def execute : Command → SessionM Reply
  | .create name backend => do
    let pin ← match backend with
      | some backend => some <$> onHost (Host.register { backend })
      | none => pure none
    putState name { pin }
    return .done
  | .init name outlen => do
    onState name fun engine => State.init engine outlen
    return .done
  | .initKeyed name outlen key => do
    onState name fun engine => State.initKeyed engine outlen key
    return .done
  | .start name fields key lastNode => do
    let p ← Parameters.ofFields fields
    onState name fun engine => State.start engine p key lastNode
    return .done
  | .update name data => do
    onState name fun engine => State.update engine data
    return .done
  | .final name outlen => return .bytes (← onState name fun engine => State.final engine outlen)
  | .finalInto name out outlen => do
    let (outcome, out) ← onState name fun engine =>
      ExceptT.lift (State.finalInto engine outlen out)
    let _ ← outcome
    return .bytes out
  | .copy name target => do
    putState target ((← get).holder name)
    return .done
  | .wipe name => do
    onState name fun _ => State.wipe
    return .done
  | .overlay name overlay => do
    onState name fun _ => modify (·.overlay overlay)
    return .done
  | .offers name => do
    let session ← get
    let i := (session.holder name).pin.bind fun id => session.host.backends[id]?
    return .offers (i.elim [] (·.offers))
  | .createHasher name options data => do
    let hasher ← onHost (Hasher.new (Host.engine none) options data)
    putHasher name hasher
    return .size hasher.digestSize
  | .updateHasher name data => onHasher name fun hasher => do
    let (outcome, hasher) ← onHost
      (ExceptT.lift (hasher.update (Host.engine none) data))
    putHasher name hasher
    let _ ← outcome
    return .done
  | .digest name => onHasher name fun hasher =>
    return .bytes (← onHost (hasher.digest (Host.engine none)))
  | .hexDigest name => onHasher name fun hasher =>
    return .text (← onHost (hasher.hexDigest (Host.engine none)))
  | .copyHasher name target => onHasher name fun hasher => do
    putHasher target hasher
    return .size hasher.digestSize
  | .inspect name => onHasher name fun hasher => return .state hasher.state
  | .setEnvironment environment => do
    modify fun session => { session with host := { session.host with environment } }
    return .done
  | .setCandidate candidate => do
    modify fun session => { session with host := { session.host with candidate } }
    return .done
  | .detect config => do selectedBackend (← onHost (Host.detect config))
  | .activeBackend => do selectedBackend (← onHost Host.activeBackend)
  | .selfTest none => return .flag (← onHost selfTestSelected)
  | .selfTest (some backend) => return .flag (← onHost (selfTestBackend backend))

/-- Carries out a command and returns its outcome with the session after it. -/
def step (session : Session) (command : Command) : Except Fault Reply × Session :=
  (execute command).run.run session

/-- The events between an earlier point of a session and this one. -/
def eventsSince (session earlier : Session) : List Event :=
  session.host.log.drop earlier.host.log.length

end Session

end Blake2s
