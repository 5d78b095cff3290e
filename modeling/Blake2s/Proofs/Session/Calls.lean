import Blake2s.Derivation
import Blake2s.Proofs.Backend.Lawful
import Blake2s.Session

set_option autoImplicit false

/-! # Runs over lawful backends

What a client of the library can do with hash states and with what is computed from them, as a
`Call`, and what can change about backend selection between two calls, as a `Reconfiguration`. All
backends that occur are lawful. A `Turn` is a call after any number of reconfigurations; `Session.run`
takes turns one after the other and observes, after each of them, its outcome and every state.

`Session.pinned` and `Turn.pinned` make of a session and a turn what they would be if nothing but
the generic compression existed: states are pinned to the generic backend, none is selected, and
nothing is reconfigured. -/

namespace Blake2s

/-- A backend that accepts and declines as it likes, but compresses right. -/
abbrev LawfulBackend := { backend : Backend // backend.Lawful }

def LawfulBackend.generic : LawfulBackend := ⟨.generic, Backend.generic_lawful⟩

/-! ## Calls -/

/-- A use of hash states, or of what is computed with states of its own. -/
inductive Call where
  -- states, the first of them fresh and pinned to a fresh backend if one is given
  | create (name : String) (pin : Option LawfulBackend)
  | copy (name target : String)
  | init (name : String) (outlen : Int)
  | initKeyed (name : String) (outlen : Int) (key : Bytes)
  | start (name : String) (fields : Parameters.Fields) (key : Bytes) (lastNode : Bool)
  | update (name : String) (data : Bytes)
  | final (name : String) (outlen : Option Int)
  | finalInto (name : String) (out : Bytes) (outlen : Option Int)
  -- the self-test, of a fresh backend or of the selected one
  | selfTest (pin : Option LawfulBackend)
  -- message authentication and key derivation
  | tag (message key : Bytes) (length : Int)
  | verify (given message key : Bytes)
  | extract (material : Bytes) (salt : Option Bytes)
  | expand (key info : Bytes) (length : Int)
  | derive (material : Bytes) (salt : Option Bytes) (info : Bytes) (length : Int)

namespace Call

/-- Carries out a call in a session. What is not done on a named state uses the selected backend. -/
def execute : Call → SessionM Reply
  | create name pin => Session.execute (.create name (pin.map Subtype.val))
  | copy name target => Session.execute (.copy name target)
  | init name outlen => Session.execute (.init name outlen)
  | initKeyed name outlen key => Session.execute (.initKeyed name outlen key)
  | start name fields key lastNode => Session.execute (.start name fields key lastNode)
  | update name data => Session.execute (.update name data)
  | final name outlen => Session.execute (.final name outlen)
  | finalInto name out outlen => Session.execute (.finalInto name out outlen)
  | selfTest pin => Session.execute (.selfTest (pin.map Subtype.val))
  | tag message key length => do
    return .bytes (← Session.onHost (Mac.tag (Host.engine none) message key length))
  | verify given message key => do
    Session.onHost (Mac.verify (Host.engine none) given message key)
    return .done
  | extract material salt => do
    return .bytes (← Session.onHost (Derivation.extract (Host.engine none) material salt))
  | expand key info length => do
    return .bytes (← Session.onHost (Derivation.expand (Host.engine none) key info length))
  | derive material salt info length => do
    return .bytes (← Session.onHost (Derivation.derive (Host.engine none) material salt info length))

/-- The same call with the generic backend wherever a backend is chosen. -/
def pinned : Call → Call
  | create name _ => create name (some .generic)
  | selfTest _ => selfTest (some .generic)
  | call => call

end Call

/-! ## Reconfigurations -/

/-- A change of what backends are selected by. -/
inductive Reconfiguration where
  | environment (environment : Environment)
  /-- Sets what detection tries as the vectorized backend, and whether it is available. -/
  | candidate (available : Bool) (build : Int → LawfulBackend)
  /-- Detects the backend, with the given configuration or that of the environment. -/
  | detect (config : Option Config)

def Reconfiguration.execute : Reconfiguration → SessionM Reply
  | .environment env => Session.execute (.setEnvironment env)
  | .candidate available build =>
    Session.execute (.setCandidate { available, build := fun n => (build n).val })
  | .detect config => Session.execute (.detect config)

/-! ## Runs -/

/-- A call, and the reconfigurations right before it. -/
structure Turn where
  before : List Reconfiguration
  call : Call

/-- The turn without reconfigurations, and with the generic backend. -/
def Turn.pinned (turn : Turn) : Turn := { before := [], call := turn.call.pinned }

namespace Session

def snapshot (session : Session) (name : String) : Option State :=
  session.states[name]?.map (·.state)

/-- The session with all its states pinned to the generic backend, and none selected. -/
def pinned (session : Session) : Session :=
  { host := { backends := #[{ backend := .generic }], selection := .detected none }
    states := session.states.map fun _ holder => { holder with pin := some 0 } }

/-- A session after an operation, whatever its outcome. -/
def after {α : Type} (session : Session) (op : SessionM α) : Session := (op.run.run session).2

/-- Takes turns one after the other. Observes the outcome of each call and the states after it. -/
def run : Session → List Turn → List (Except Fault Reply × (String → Option State))
  | _, [] => []
  | session, turn :: turns =>
    let session := turn.before.foldl (fun session change => session.after change.execute) session
    let (outcome, session) := turn.call.execute.run.run session
    (outcome, session.snapshot) :: run session turns

end Session

end Blake2s
