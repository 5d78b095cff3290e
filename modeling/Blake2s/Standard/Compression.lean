import Blake2s.Block
import Mathlib.Algebra.Group.Nat.Defs

set_option autoImplicit false

/-! # The compression function of RFC 7693

The function F of the standard, on words that are bit vectors. The working vector is a row of four
columns; a round mixes the columns, then the diagonals. The counter is a natural number. The
compressions that run are compared with this one, which shares no table with them. -/

namespace Blake2s.Standard

abbrev Word32 := BitVec 32

abbrev ChainValue := Vector Word32 8

/-! ## Words -/

/-- The number that bytes spell, the least significant first. -/
def littleEndian : Bytes → Nat
  | [] => 0
  | byte :: rest => byte.toNat + 256 * littleEndian rest

/-- The word at the given place of a byte string, in words from its start. -/
def wordAt (bytes : Bytes) (i : Nat) : Word32 :=
  BitVec.ofNat 32 (littleEndian ((bytes.drop (4 * i)).take 4))

/-! ## Rounds -/

/-- Four words that are mixed together: a column of the working vector, or a diagonal. -/
structure Column where
  a : Word32
  b : Word32
  c : Word32
  d : Word32
  deriving DecidableEq, Repr

/-- The mixing function G. -/
def Column.mix (v : Column) (x y : Word32) : Column :=
  let a := v.a + v.b + x
  let d := (v.d ^^^ a).rotateRight 16
  let c := v.c + d
  let b := (v.b ^^^ c).rotateRight 12
  let a := a + b + y
  let d := (d ^^^ a).rotateRight 8
  let c := c + d
  let b := (b ^^^ c).rotateRight 7
  { a, b, c, d }

/-- The working vector: its words 0 to 3 are the `a` of the columns, 4 to 7 their `b`, and so on. -/
abbrev Columns := Vector Column 4

namespace Columns

/-- Mixes each column with the message words at two consecutive places of a message schedule, from
    the given place on. -/
def mix (m : Vector Word32 16) (s : Vector (Fin 16) 16) (start : Fin 9) (v : Columns) : Columns :=
  Vector.ofFn fun i =>
    v[i].mix m[s.get ⟨start.val + 2 * i.val, by omega⟩]
      m[s.get ⟨start.val + 2 * i.val + 1, by omega⟩]

/-- The diagonals: the `b`, `c` and `d` of each come from one, two and three columns further on. -/
def diagonals (v : Columns) : Columns :=
  Vector.ofFn fun i : Fin 4 => { a := v[i].a, b := v[i + 1].b, c := v[i + 2].c, d := v[i + 3].d }

/-- The columns whose diagonals are given. -/
def ofDiagonals (v : Columns) : Columns :=
  Vector.ofFn fun i : Fin 4 => { a := v[i].a, b := v[i - 1].b, c := v[i - 2].c, d := v[i - 3].d }

/-- One round: a column step, then a diagonal step. -/
def round (m : Vector Word32 16) (v : Columns) (s : Vector (Fin 16) 16) : Columns :=
  (((v.mix m s 0).diagonals).mix m s 8).ofDiagonals

end Columns

/-! ## Tables -/

/-- The initialization vector. -/
def ivWords : Vector Word32 8 :=
  #v[0x6A09E667, 0xBB67AE85, 0x3C6EF372, 0xA54FF53A, 0x510E527F, 0x9B05688C, 0x1F83D9AB, 0x5BE0CD19]

def ivWord (i : Fin 8) : Word32 := ivWords.get i

/-- The order that the hexadecimal digits of a number spell. -/
def order (row : BitVec 64) : Vector (Fin 16) 16 :=
  Vector.ofFn fun i => (row.extractLsb' (60 - 4 * i.val) 4).toFin

/-- The ten message schedules: in which order each round takes in the message words. -/
def schedules : List (Vector (Fin 16) 16) :=
  [0x0123456789ABCDEF, 0xEA489FD61C02B753, 0xB8C052FDAE367194, 0x7931DCBE265A40F8,
   0x905724AFE1BC683D, 0x2C6A0B834D75FE19, 0xC51FED4A0763928B, 0xDB7EC13950F4862A,
   0x6FE9B308C2D714A5, 0xA2847615FB9E3CD0].map order

/-! ## The function F -/

/-- The working vector before the rounds. -/
def initialColumns (h : ChainValue) (t : Nat) (f₀ f₁ : Word32) : Columns :=
  let low : Word32 := BitVec.ofNat 32 t
  let high : Word32 := BitVec.ofNat 32 (t / 2 ^ 32)
  #v[⟨h[0], h[4], ivWord 0, ivWord 4 ^^^ low⟩, ⟨h[1], h[5], ivWord 1, ivWord 5 ^^^ high⟩,
     ⟨h[2], h[6], ivWord 2, ivWord 6 ^^^ f₀⟩, ⟨h[3], h[7], ivWord 3, ivWord 7 ^^^ f₁⟩]

/-- Feeds the mixed working vector back into the chain value. -/
def feedForward (h : ChainValue) (v : Columns) : ChainValue :=
  #v[h[0] ^^^ v[0].a ^^^ v[0].c, h[1] ^^^ v[1].a ^^^ v[1].c, h[2] ^^^ v[2].a ^^^ v[2].c,
     h[3] ^^^ v[3].a ^^^ v[3].c, h[4] ^^^ v[0].b ^^^ v[0].d, h[5] ^^^ v[1].b ^^^ v[1].d,
     h[6] ^^^ v[2].b ^^^ v[2].d, h[7] ^^^ v[3].b ^^^ v[3].d]

/-- The compression function F: chain value, message block, counter and finalization flags. -/
def compress (h : ChainValue) (block : Bytes) (t : Nat) (f₀ f₁ : Word32) : ChainValue :=
  let m := Vector.ofFn fun i : Fin 16 => wordAt block i.val
  feedForward h (schedules.foldl (Columns.round m) (initialColumns h t f₀ f₁))

end Blake2s.Standard
