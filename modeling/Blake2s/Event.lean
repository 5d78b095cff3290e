import Blake2s.SelfTest

set_option autoImplicit false

/-! # Events

What backend detection and the self-test report to a log. -/

namespace Blake2s

/-- Something worth a line in a log. -/
inductive Event where
  /-- The configuration excludes the vectorized backend. -/
  | simdDisabled
  | simdUnavailable
  | mismatch (answer : SelfTest.KnownAnswer)
  | backendFailed (backend : String)
  /-- Detection came to an end and selected a backend, or the generic compression. -/
  | selected (backend : String)
  deriving DecidableEq, Repr

namespace Event

/-- The parts of the library that report events. -/
inductive Component where
  | backends
  | selfTest
  deriving DecidableEq, Repr

inductive Level where
  | debug
  | error
  deriving DecidableEq, Repr

def component : Event → Component
  | mismatch _ => .selfTest
  | _ => .backends

def level : Event → Level
  | mismatch _ | backendFailed _ => .error
  | _ => .debug

def message : Event → String
  | simdDisabled => "vectorized backend disabled by configuration"
  | simdUnavailable => "vectorized backend not available on this platform"
  | mismatch answer => answer.mismatchMessage
  | backendFailed backend => "BLAKE2s self-test failed for backend " ++ backend
  | selected backend => "BLAKE2s compression backend: " ++ backend

end Event

end Blake2s
