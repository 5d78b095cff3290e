import Blake2s.Fault
import Blake2s.Text.Integer

set_option autoImplicit false

/-! # Configuration

A `Config` says which backend may be selected and whether it is tested first. It can be read from
three environment variables; each setting that is unset keeps its default. -/

namespace Blake2s

/-- The environment variables that configure backend selection; `none` for one that is not set. -/
structure Environment where
  /-- The variable `BLAKE2S_NOSIMD`, a flag that disables the vectorized backend. -/
  noSimd : Option String := none
  /-- The variable `BLAKE2S_SIMD_MIN_BLOCKS`, the least batch size of the vectorized backend. -/
  minBlocks : Option String := none
  /-- The variable `BLAKE2S_SELFTEST`, a flag that enables the self-test. -/
  selfTest : Option String := none
  deriving DecidableEq, Repr

structure Config where
  /-- May the vectorized backend be selected? -/
  simd : Bool := true
  /-- The least batch size of the vectorized backend. -/
  minBlocks : Int := 2
  /-- Are backends tested before one is selected? -/
  selfTest : Bool := false
  deriving DecidableEq, Repr

namespace Config

def truthy : List String := ["1", "true", "yes", "on"]

/-- Is a flag on? Outer blanks and the case of ASCII letters do not matter. -/
def isOn (text : String) : Bool :=
  truthy.any fun word => ((Text.trim Text.isBlank text.toList).map Char.toLower) = word.toList

def readMinBlocks (text : String) : Except Fault Int :=
  match Text.integer? text.toList with
  | some n => .ok n
  | none => .error (.minBlocksText text)

/-- Reads a configuration from the environment. -/
def ofEnvironment (env : Environment) : Except Fault Config := do
  let defaults : Config := {}
  let minBlocks ← env.minBlocks.elim (.ok defaults.minBlocks) readMinBlocks
  return {
    simd := env.noSimd.elim defaults.simd fun text => !isOn text
    minBlocks
    selfTest := env.selfTest.elim defaults.selfTest isOn }

def problems (config : Config) : List ConfigProblem :=
  if config.minBlocks < 1 then [.minBlocks] else []

end Config

end Blake2s
