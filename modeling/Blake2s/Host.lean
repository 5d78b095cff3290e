import Blake2s.Backend.Basic
import Blake2s.Config
import Blake2s.Event

set_option autoImplicit false

/-! # Backend selection

All hashing of a host shares one selected backend. It is detected at the first use, from the
environment, and can be detected again on request. A detection that fails leaves the selection as it
was, so the next use tries again if nothing was detected before.

A state may also be pinned to a backend of its own. `Host.engine` is the engine of a state in a
host: it offers each batch to the pinned backend or to the selected one. The self-test of a
detection runs on the backend under test by itself, so it never asks for the selection. -/

namespace Blake2s

/-- What detection tries as the vectorized backend. -/
structure Candidate where
  available : Bool
  build : Int → Backend

namespace Candidate

/-- The vectorized backend. -/
def vectorized : Candidate := { available := true, build := Backend.vectorized }

/-- The vectorized backend where it does not work. -/
def unavailable : Candidate := { available := false, build := Backend.vectorized }

end Candidate

/-- The place of a backend among those in use. -/
abbrev BackendId := Nat

/-- The host-wide choice of a backend. -/
inductive Selection where
  | undetected
  /-- The choice of the last detection that succeeded: a backend, or none for the generic
      compression. -/
  | detected (backend : Option BackendId)
  deriving DecidableEq, Repr

/-- What the states of a host share. -/
structure Host where
  environment : Environment := {}
  candidate : Candidate := .vectorized
  /-- The backends in use; none is ever removed. -/
  backends : Array Backend.Instance := #[]
  selection : Selection := .undetected
  log : List Event := []

/-- Operations on a host. When one fails, the changes made so far stay. -/
abbrev HostM := ExceptT Fault (StateM Host)

namespace Host

def report (event : Event) : HostM Unit := modify fun p => { p with log := p.log ++ [event] }

def register (i : Backend.Instance) : HostM BackendId := do
  let id := (← get).backends.size
  modify fun p => { p with backends := p.backends.push i }
  return id

/-! ## Detection -/

/-- Runs the self-test on a backend and returns the backend as the test leaves it. -/
def check (i : Backend.Instance) : HostM Backend.Instance := do
  let (outcome, i) := (SelfTest.run Backend.Instance.engine).run.run i
  if let some answer ← outcome then
    report (.mismatch answer)
    report (.backendFailed i.backend.name)
    throw (.selfTest i.backend.name)
  return i

/-- The backend that a configuration asks for, if it is available. -/
def propose (config : Config) : HostM (Option Backend.Instance) := do
  if !config.simd then
    report .simdDisabled
    return none
  let candidate := (← get).candidate
  if !candidate.available then
    report .simdUnavailable
    return none
  return some { backend := candidate.build config.minBlocks }

/-- The given configuration, or else the one that the environment sets. -/
def configuration (config : Option Config) : HostM Config := do
  match config with
  | some config => return config
  | none => Config.ofEnvironment (← get).environment

/-- Tests the generic compression, then the proposed backend. -/
def checkAll (proposed : Option Backend.Instance) : HostM (Option Backend.Instance) := do
  let _ ← check { backend := .generic }
  match proposed with
  | some i => return some (← check i)
  | none => return none

def adopt (choice : Option Backend.Instance) : HostM (Option BackendId) := do
  let id ← match choice with
    | some i => some <$> register i
    | none => pure none
  modify fun p => { p with selection := .detected id }
  report (.selected (choice.elim Backend.generic.name fun i => i.backend.name))
  return id

/-- Detects the backend to use and selects it. -/
def detect (config : Option Config) : HostM (Option BackendId) := do
  let config ← configuration config
  unless config.problems.isEmpty do throw (.configuration config.problems)
  let proposed ← propose config
  let choice ← if config.selfTest then checkAll proposed else pure proposed
  adopt choice

/-- The selected backend. It is detected if no detection has succeeded yet. -/
def activeBackend : HostM (Option BackendId) := do
  match (← get).selection with
  | .detected id => return id
  | .undetected => detect none

/-! ## Compression -/

/-- Compresses through a backend in use. -/
def compressBy (id : BackendId) : Engine Host := fun chain batch => do
  let p ← get
  match p.backends[id]? with
  | none => return chain.compress batch
  | some i =>
    let (outcome, i) := (Backend.Instance.engine chain batch).run.run i
    set { p with backends := p.backends.setIfInBounds id i }
    outcome

/-- The engine of a state that is pinned to a backend, or that uses the selected one. -/
def engine (pin : Option BackendId) : Engine Host := fun chain batch => do
  let id ← match pin with
    | some id => pure (some id)
    | none => activeBackend
  match id with
  | some id => compressBy id chain batch
  | none => return chain.compress batch

end Host

end Blake2s
