import Blake2s.Bytes

set_option autoImplicit false

/-! # The constants of BLAKE2s

Sizes, the initialization vector, the ten message schedules `sigma` and the places at which one
round mixes the working vector. -/

namespace Blake2s

/-! ## Sizes in bytes -/

def blockBytes : Nat := 64

def outBytes : Nat := 32

def keyBytes : Nat := 32

def saltBytes : Nat := 8

def personalBytes : Nat := 8

def parameterBytes : Nat := 32

/-! ## Tables -/

/-- How many rounds mix the working vector. -/
def rounds : Nat := 10

/-- A word of ones: the value of a set finalization flag. -/
def wordMask : UInt32 := 0xFFFFFFFF

/-- The byte that masks the key of an inner MAC hash. -/
def innerPad : UInt8 := 0x36

/-- The byte that masks the key of an outer MAC hash. -/
def outerPad : UInt8 := 0x5C

/-- The initialization vector. -/
def iv : Vector UInt32 8 :=
  #v[0x6A09E667, 0xBB67AE85, 0x3C6EF372, 0xA54FF53A,
     0x510E527F, 0x9B05688C, 0x1F83D9AB, 0x5BE0CD19]

/-- The order in which each round reads the sixteen message words. -/
def sigma : Vector (Vector (Fin 16) 16) rounds :=
  #v[#v[0, 1, 2, 3, 4, 5, 6, 7, 8, 9, 10, 11, 12, 13, 14, 15],
     #v[14, 10, 4, 8, 9, 15, 13, 6, 1, 12, 0, 2, 11, 7, 5, 3],
     #v[11, 8, 12, 0, 5, 2, 15, 13, 10, 14, 3, 6, 7, 1, 9, 4],
     #v[7, 9, 3, 1, 13, 12, 11, 14, 2, 6, 5, 10, 4, 0, 15, 8],
     #v[9, 0, 5, 7, 2, 4, 10, 15, 14, 1, 11, 12, 6, 8, 3, 13],
     #v[2, 12, 6, 10, 0, 11, 8, 3, 4, 13, 7, 5, 15, 14, 1, 9],
     #v[12, 5, 1, 15, 14, 13, 4, 10, 0, 7, 6, 3, 9, 2, 8, 11],
     #v[13, 11, 7, 14, 12, 1, 3, 9, 5, 0, 15, 4, 8, 6, 2, 10],
     #v[6, 15, 14, 9, 11, 3, 0, 8, 12, 2, 13, 7, 1, 4, 10, 5],
     #v[10, 2, 8, 4, 7, 6, 1, 5, 15, 11, 9, 14, 3, 12, 13, 0]]

/-- The four places of the working vector that one mix reads and writes. -/
structure Places where
  a : Fin 16
  b : Fin 16
  c : Fin 16
  d : Fin 16
  deriving DecidableEq, Repr

/-- The eight mixes of a round: the four columns, then the four diagonals. -/
def places : Vector Places 8 :=
  #v[⟨0, 4, 8, 12⟩, ⟨1, 5, 9, 13⟩, ⟨2, 6, 10, 14⟩, ⟨3, 7, 11, 15⟩,
     ⟨0, 5, 10, 15⟩, ⟨1, 6, 11, 12⟩, ⟨2, 7, 8, 13⟩, ⟨3, 4, 9, 14⟩]

end Blake2s
