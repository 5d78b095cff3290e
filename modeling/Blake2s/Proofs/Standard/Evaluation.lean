import Blake2s.Proofs.Standard.Numbers
import Blake2s.Proofs.Words

set_option autoImplicit false

/-! # Computing digests

The standard is written down to be read and reasoned about. Here it is written once more, to be
computed: words, blocks and whole byte strings are plain numbers, and every intermediate result is
made a numeral by `force` before it is used. The operations on numbers are named, not written with
operators, so that they are evaluated at once. `Evaluation.digest_eq` says that what is
computed is the digest of the standard. -/

namespace Blake2s.Evaluation

open Standard

variable {α : Type}

/-! ## Words -/

/-- Goes on with a number once it has been computed. -/
def force (n : Nat) (k : Nat → α) : α := Nat.casesOn n (k 0) fun n => k (Nat.succ n)

@[simp] theorem force_eq (n : Nat) (k : Nat → α) : force n k = k n := by
  cases n <;> rfl

/-- The lowest 32 bits of a number. -/
def low (n : Nat) : Nat := Nat.land n 0xFFFFFFFF

/-- Rotation to the right; the two distances add up to 32. -/
def rotate (w right left : Nat) : Nat := Nat.lor (Nat.shiftRight w right) (low (Nat.shiftLeft w left))

theorem low_eq_mod (n : Nat) : low n = n % 2 ^ 32 := Nat.and_two_pow_sub_one_eq_mod n 32

theorem low_add (x y : Word32) : low (Nat.add x.toNat y.toNat) = (x + y).toNat :=
  (low_eq_mod _).trans (BitVec.toNat_add x y).symm

theorem low_add_add (x y z : Word32) :
    low (Nat.add (Nat.add x.toNat y.toNat) z.toNat) = (x + y + z).toNat := by
  rw [BitVec.toNat_add, BitVec.toNat_add, Nat.mod_add_mod]
  exact low_eq_mod _

theorem xor_toNat (x y : Word32) : Nat.xor x.toNat y.toNat = (x ^^^ y).toNat :=
  (BitVec.toNat_xor x y).symm

theorem rotate_toNat (w : Word32) {right left : Nat} (sum : right + left = 32) (pos : 0 < left) :
    rotate w.toNat right left = (w.rotateRight right).toNat := by
  have short : right % 32 = right := Nat.mod_eq_of_lt (by omega)
  have rest : 32 - right = left := by omega
  rw [BitVec.toNat_rotateRight, short, rest, ← low_eq_mod]
  rfl

/-! ## Mixing -/

/-- Four words: a column of the working vector, a diagonal, or half of a chain value. -/
structure Quad where
  a : Nat
  b : Nat
  c : Nat
  d : Nat

def Quad.ofColumn (v : Column) : Quad := ⟨v.a.toNat, v.b.toNat, v.c.toNat, v.d.toNat⟩

/-- The mixing function G. -/
def mix (v : Quad) (x y : Nat) (k : Quad → α) : α :=
  match v with
  | ⟨a, b, c, d⟩ =>
    force (low (Nat.add (Nat.add a b) x)) fun a =>
    force (rotate (Nat.xor d a) 16 16) fun d =>
    force (low (Nat.add c d)) fun c =>
    force (rotate (Nat.xor b c) 12 20) fun b =>
    force (low (Nat.add (Nat.add a b) y)) fun a =>
    force (rotate (Nat.xor d a) 8 24) fun d =>
    force (low (Nat.add c d)) fun c =>
    force (rotate (Nat.xor b c) 7 25) fun b => k ⟨a, b, c, d⟩

theorem mix_ofColumn (v : Column) (x y : Word32) (k : Quad → α) :
    mix (.ofColumn v) x.toNat y.toNat k = k (.ofColumn (v.mix x y)) := by
  have by16 (w : Word32) : rotate w.toNat 16 16 = (w.rotateRight 16).toNat :=
    rotate_toNat w rfl (by decide)
  have by12 (w : Word32) : rotate w.toNat 12 20 = (w.rotateRight 12).toNat :=
    rotate_toNat w rfl (by decide)
  have by8 (w : Word32) : rotate w.toNat 8 24 = (w.rotateRight 8).toNat :=
    rotate_toNat w rfl (by decide)
  have by7 (w : Word32) : rotate w.toNat 7 25 = (w.rotateRight 7).toNat :=
    rotate_toNat w rfl (by decide)
  simp only [mix, Quad.ofColumn, force_eq, low_add_add, low_add, xor_toNat, by16, by12, by8, by7,
    Column.mix]

/-- The word of a block at a place of a message schedule. The schedule is a number, too: its places
    are the digits to base 16. -/
def word (block order i : Nat) : Nat :=
  low (Nat.shiftRight block (Nat.mul 32 (Nat.land (Nat.shiftRight order (Nat.mul 4 i)) 15)))

/-- The message schedules. -/
def orders : List Nat :=
  [0xFEDCBA9876543210, 0x357B20C16DF984AE, 0x491763EADF250C8B, 0x8F04A562EBCD1397,
   0xD386CB1EFA427509, 0x91EF57D438B0A6C2, 0xB8293670A4DEF15C, 0xA2684F05931CE7BD,
   0x5A417D2C803B9EF6, 0x0DC3E9BF5167482A]

/-- Does a number stand for a message schedule? -/
def Orders (order : Nat) (s : Vector (Fin 16) 16) : Prop :=
  ∀ i : Fin 16, Nat.land (Nat.shiftRight order (Nat.mul 4 i.val)) 15 = (s.get i).val

instance (order : Nat) (s : Vector (Fin 16) 16) : Decidable (Orders order s) :=
  inferInstanceAs (Decidable (∀ _ : Fin 16, _))

theorem orders_schedules : List.Forall₂ Orders orders schedules := by decide +kernel

/-- Does a number stand for the words of a block? -/
def Spells (block : Nat) (m : Vector Word32 16) : Prop :=
  ∀ i : Fin 16, low (Nat.shiftRight block (Nat.mul 32 i.val)) = (m.get i).toNat

theorem word_eq {block order : Nat} {m : Vector Word32 16} {s : Vector (Fin 16) 16}
    (spells : Spells block m) (ordered : Orders order s) (i : Fin 16) :
    word block order i.val = (m.get (s.get i)).toNat := by
  rw [word, ordered i, spells]

/-- Mixes four columns, or four diagonals. -/
def mixFour (block order start : Nat) (p q r s : Quad) (k : Quad → Quad → Quad → Quad → α) : α :=
  mix p (word block order start) (word block order (Nat.add start 1)) fun p =>
  mix q (word block order (Nat.add start 2)) (word block order (Nat.add start 3)) fun q =>
  mix r (word block order (Nat.add start 4)) (word block order (Nat.add start 5)) fun r =>
  mix s (word block order (Nat.add start 6)) (word block order (Nat.add start 7)) fun s =>
  k p q r s

/-- The column at a place of a working vector. -/
def columnAt (v : Columns) (i : Nat) : Quad := if h : i < 4 then .ofColumn v[i] else ⟨0, 0, 0, 0⟩

/-- Goes on with the columns of a working vector. -/
def withColumns (v : Columns) (k : Quad → Quad → Quad → Quad → α) : α :=
  k (columnAt v 0) (columnAt v 1) (columnAt v 2) (columnAt v 3)

theorem withColumns_eq (v : Columns) (k : Quad → Quad → Quad → Quad → α) :
    withColumns v k
      = k (.ofColumn (v.get 0)) (.ofColumn (v.get 1)) (.ofColumn (v.get 2)) (.ofColumn (v.get 3)) :=
  rfl

theorem mixFour_columns {block order : Nat} {m : Vector Word32 16} {s : Vector (Fin 16) 16}
    (spells : Spells block m) (ordered : Orders order s) (start : Fin 9) (v : Columns)
    (k : Quad → Quad → Quad → Quad → α) :
    withColumns v (mixFour block order start.val · · · · k) = withColumns (v.mix m s start) k := by
  have read (i : Nat) (hi : i < 8) : word block order (Nat.add start.val i)
      = (m[s.get ⟨start.val + i, by omega⟩]).toNat :=
    word_eq spells ordered ⟨start.val + i, by omega⟩
  have first : word block order start.val = _ := read 0 (by decide)
  simp only [withColumns_eq, mixFour, first, read 1 (by decide), read 2 (by decide), read 3 (by decide),
    read 4 (by decide), read 5 (by decide), read 6 (by decide), read 7 (by decide), mix_ofColumn,
    Columns.mix]
  rfl

theorem withColumns_diagonals (v : Columns) (k : Quad → Quad → Quad → Quad → α) :
    withColumns v (fun p q r s =>
        k ⟨p.a, q.b, r.c, s.d⟩ ⟨q.a, r.b, s.c, p.d⟩ ⟨r.a, s.b, p.c, q.d⟩ ⟨s.a, p.b, q.c, r.d⟩)
      = withColumns v.diagonals k := by
  simp only [withColumns_eq, Columns.diagonals]
  rfl

theorem withColumns_ofDiagonals (v : Columns) (k : Quad → Quad → Quad → Quad → α) :
    withColumns v (fun p q r s =>
        k ⟨p.a, s.b, r.c, q.d⟩ ⟨q.a, p.b, s.c, r.d⟩ ⟨r.a, q.b, p.c, s.d⟩ ⟨s.a, r.b, q.c, p.d⟩)
      = withColumns v.ofDiagonals k := by
  simp only [withColumns_eq, Columns.ofDiagonals]
  rfl

/-- Rounds with the given message schedules: a column step, then a diagonal step. -/
def rounds (block : Nat) :
    List Nat → Quad → Quad → Quad → Quad → (Quad → Quad → Quad → Quad → α) → α
  | [], p, q, r, s, k => k p q r s
  | order :: orders, p, q, r, s, k =>
    mixFour block order 0 p q r s fun p q r s =>
    mixFour block order 8
      ⟨p.a, q.b, r.c, s.d⟩ ⟨q.a, r.b, s.c, p.d⟩ ⟨r.a, s.b, p.c, q.d⟩ ⟨s.a, p.b, q.c, r.d⟩
      fun p q r s =>
    rounds block orders
      ⟨p.a, s.b, r.c, q.d⟩ ⟨q.a, p.b, s.c, r.d⟩ ⟨r.a, q.b, p.c, s.d⟩ ⟨s.a, r.b, q.c, p.d⟩ k

theorem rounds_columns {block : Nat} {m : Vector Word32 16} (spells : Spells block m)
    {orders : List Nat} {schedules : List (Vector (Fin 16) 16)}
    (ordered : List.Forall₂ Orders orders schedules) (v : Columns)
    (k : Quad → Quad → Quad → Quad → α) :
    withColumns v (rounds block orders · · · · k)
      = withColumns (schedules.foldl (Columns.round m) v) k := by
  induction ordered generalizing v with
  | nil => rfl
  | cons first _ ih =>
    rw [List.foldl_cons, ← ih, Columns.round, ← withColumns_ofDiagonals,
      ← mixFour_columns spells first 8, ← withColumns_diagonals, ← mixFour_columns spells first 0]
    rfl

/-! ## Compressing -/

/-- The word at a place of a chain value. -/
def chainAt (h : ChainValue) (i : Nat) : Nat := if hi : i < 8 then h[i].toNat else 0

/-- Goes on with the two halves of a chain value. -/
def withChain (h : ChainValue) (k : Quad → Quad → α) : α :=
  k ⟨chainAt h 0, chainAt h 1, chainAt h 2, chainAt h 3⟩
    ⟨chainAt h 4, chainAt h 5, chainAt h 6, chainAt h 7⟩

theorem withChain_eq (h : ChainValue) (k : Quad → Quad → α) :
    withChain h k
      = k ⟨(h.get 0).toNat, (h.get 1).toNat, (h.get 2).toNat, (h.get 3).toNat⟩
          ⟨(h.get 4).toNat, (h.get 5).toNat, (h.get 6).toNat, (h.get 7).toNat⟩ := rfl

/-- The compression function F, for counters of 32 bits and no last node. -/
def compress (block t f : Nat) (x y : Quad) (k : Quad → Quad → α) : α :=
  match x, y with
  | ⟨h₀, h₁, h₂, h₃⟩, ⟨h₄, h₅, h₆, h₇⟩ =>
    rounds block orders
      ⟨h₀, h₄, 0x6A09E667, Nat.xor 0x510E527F t⟩ ⟨h₁, h₅, 0xBB67AE85, 0x9B05688C⟩
      ⟨h₂, h₆, 0x3C6EF372, Nat.xor 0x1F83D9AB f⟩ ⟨h₃, h₇, 0xA54FF53A, 0x5BE0CD19⟩
      fun p q r s =>
    force (Nat.xor (Nat.xor h₀ p.a) p.c) fun h₀ =>
    force (Nat.xor (Nat.xor h₁ q.a) q.c) fun h₁ =>
    force (Nat.xor (Nat.xor h₂ r.a) r.c) fun h₂ =>
    force (Nat.xor (Nat.xor h₃ s.a) s.c) fun h₃ =>
    force (Nat.xor (Nat.xor h₄ p.b) p.d) fun h₄ =>
    force (Nat.xor (Nat.xor h₅ q.b) q.d) fun h₅ =>
    force (Nat.xor (Nat.xor h₆ r.b) r.d) fun h₆ =>
    force (Nat.xor (Nat.xor h₇ s.b) s.d) fun h₇ => k ⟨h₀, h₁, h₂, h₃⟩ ⟨h₄, h₅, h₆, h₇⟩

theorem compress_chain {block t : Nat} {bytes : Bytes}
    (spells : Spells block (Vector.ofFn fun i : Fin 16 => wordAt bytes i.val)) (small : t < 2 ^ 32)
    (f : Word32) (h : ChainValue) (k : Quad → Quad → α) :
    withChain h (compress block t f.toNat · · k)
      = withChain (Standard.compress h bytes t f 0) k := by
  have low : Nat.xor 0x510E527F t = (ivWord 4 ^^^ BitVec.ofNat 32 t).toNat := by
    rw [BitVec.toNat_xor, BitVec.toNat_ofNat, Nat.mod_eq_of_lt small]
    rfl
  have high : 0x9B05688C = (ivWord 5 ^^^ BitVec.ofNat 32 (t / 2 ^ 32)).toNat := by
    rw [Nat.div_eq_of_lt small]
    rfl
  have flag : Nat.xor 0x1F83D9AB f.toNat = (ivWord 6 ^^^ f).toNat := xor_toNat (ivWord 6) f
  have start (k : Quad → Quad → Quad → Quad → α) :
      k ⟨(h.get 0).toNat, (h.get 4).toNat, 0x6A09E667, Nat.xor 0x510E527F t⟩
          ⟨(h.get 1).toNat, (h.get 5).toNat, 0xBB67AE85, 0x9B05688C⟩
          ⟨(h.get 2).toNat, (h.get 6).toNat, 0x3C6EF372, Nat.xor 0x1F83D9AB f.toNat⟩
          ⟨(h.get 3).toNat, (h.get 7).toNat, 0xA54FF53A, 0x5BE0CD19⟩
        = withColumns (initialColumns h t f 0) k := by
    rw [low, high, flag]
    rfl
  rw [withChain_eq, compress, start fun p q r s => rounds block orders p q r s _,
    rounds_columns spells orders_schedules, Standard.compress, withColumns_eq]
  simp only [force_eq, Quad.ofColumn, xor_toNat]
  rfl

/-! ## Hashing -/

theorem spells_blockAt (data : Bytes) (i : Nat) :
    Spells (Nat.shiftRight (littleEndian data) (512 * i))
      (Vector.ofFn fun j : Fin 16 => wordAt (blockAt data i) j.val) := by
  intro j
  have read := toNat_wordAt_blockAt data i j.isLt
  rw [← Nat.shiftRight_eq_div_pow, ← Nat.shiftRight_eq_div_pow, ← low_eq_mod] at read
  change _ = ((Vector.ofFn fun j : Fin 16 => wordAt (blockAt data i) j.val)[j.val]).toNat
  rw [Vector.getElem_ofFn, read]
  rfl

/-- Compresses the rest of some data: `n` blocks and then the last one, after `t` bytes. -/
def blocks (length : Nat) :
    (n : Nat) → (data t : Nat) → Quad → Quad → (Quad → Quad → α) → α
  | 0, data, _, x, y, k => compress data length 0xFFFFFFFF x y k
  | n + 1, data, t, x, y, k =>
    force (Nat.add t 64) fun t =>
    compress data t 0 x y fun x y =>
    force (Nat.shiftRight data 512) fun data => blocks length n data t x y k

theorem blocks_chain {data : Bytes} (small : data.length < 2 ^ 32) {n i : Nat}
    (last : i + n + 1 = blockCount data) (h : ChainValue) (k : Quad → Quad → α) :
    withChain h
        (blocks data.length n (Nat.shiftRight (littleEndian data) (512 * i)) (64 * i) · · k)
      = withChain ((List.range' i (n + 1)).foldl (absorb data false) h) k := by
  -- on the number of blocks before the last one; `i` counts those that are done
  induction n generalizing i h with
  | zero =>
    have flag : 0xFFFFFFFF = (BitVec.allOnes 32).toNat := rfl
    simp only [blocks]
    rw [flag, compress_chain (spells_blockAt data i) small, List.range'_one, List.foldl_cons,
      List.foldl_nil, absorb]
    simp only [show i + 1 = blockCount data by omega, if_true, Bool.false_eq_true, and_false,
      if_false]
  | succ n ih =>
    have inner : i + 1 ≠ blockCount data := by omega
    have counted : Nat.add (64 * i) 64 = 64 * (i + 1) := rfl
    have next : Nat.shiftRight (Nat.shiftRight (littleEndian data) (512 * i)) 512
        = Nat.shiftRight (littleEndian data) (512 * (i + 1)) :=
      (Nat.shiftRight_add _ _ _).symm
    have inside : 64 * (i + 1) < 2 ^ 32 := by
      unfold blockCount at last
      omega
    have zero : 0 = (0 : Word32).toNat := rfl
    simp only [blocks, force_eq, counted]
    rw [zero, compress_chain (spells_blockAt data i) inside, List.range'_succ, List.foldl_cons,
      ← ih (by omega)]
    simp only [next, absorb, inner, if_false, false_and]

/-- Goes on with the first chain value under a parameter block. -/
def first (parameters : Nat) (k : Quad → Quad → α) : α :=
  force (Nat.xor 0x6A09E667 (low parameters)) fun h₀ =>
  force (Nat.xor 0xBB67AE85 (low (Nat.shiftRight parameters 32))) fun h₁ =>
  force (Nat.xor 0x3C6EF372 (low (Nat.shiftRight parameters 64))) fun h₂ =>
  force (Nat.xor 0xA54FF53A (low (Nat.shiftRight parameters 96))) fun h₃ =>
  force (Nat.xor 0x510E527F (low (Nat.shiftRight parameters 128))) fun h₄ =>
  force (Nat.xor 0x9B05688C (low (Nat.shiftRight parameters 160))) fun h₅ =>
  force (Nat.xor 0x1F83D9AB (low (Nat.shiftRight parameters 192))) fun h₆ =>
  force (Nat.xor 0x5BE0CD19 (low (Nat.shiftRight parameters 224))) fun h₇ =>
  k ⟨h₀, h₁, h₂, h₃⟩ ⟨h₄, h₅, h₆, h₇⟩

theorem first_chain (parameters : Bytes) (k : Quad → Quad → α) :
    first (littleEndian parameters) k = withChain (firstChain parameters) k := by
  have word (i : Fin 8) :
      Nat.xor (ivWord i).toNat (low (Nat.shiftRight (littleEndian parameters) (32 * i.val)))
        = ((firstChain parameters).get i).toNat := by
    have read := toNat_wordAt parameters i.val
    rw [← Nat.shiftRight_eq_div_pow, ← low_eq_mod] at read
    rw [firstChain, get_eq_getElem, Vector.getElem_ofFn, ← xor_toNat, read]
    rfl
  simp only [first, force_eq, withChain_eq, ← word]
  rfl

/-- The number that the bytes of a chain value spell. -/
def number (x y : Quad) : Nat :=
  let join (w rest : Nat) : Nat := Nat.add w (Nat.mul (2 ^ 32) rest)
  join x.a (join x.b (join x.c (join x.d (join y.a (join y.b (join y.c y.d))))))

theorem number_chain (h : ChainValue) :
    withChain h number = littleEndian (h.toList.flatMap wordBytes) := by
  have four (w : Word32) : (wordBytes w).length = 4 := by simp [wordBytes]
  have words : h.toList
      = [h.get 0, h.get 1, h.get 2, h.get 3, h.get 4, h.get 5, h.get 6, h.get 7] := by
    apply List.ext_getElem
    · simp
    · intro i hi hi'
      rcases i with _ | _ | _ | _ | _ | _ | _ | _ | i
      case succ =>
        rw [Vector.length_toList] at hi
        omega
      all_goals exact Vector.getElem_toList _
  rw [words]
  simp only [List.flatMap_cons, List.flatMap_nil, littleEndian_append, littleEndian_wordBytes, four,
    littleEndian_nil]
  rfl

/-- The first `n` bytes of the hash of `length` bytes of data. -/
def digest (parameters data length n : Nat) (k : Nat → α) : α :=
  first parameters fun x y =>
  force (Nat.div (Nat.sub length 1) 64) fun count =>
  blocks length count data 0 x y fun x y =>
  force (Nat.mod (number x y) (Nat.pow 256 n)) k

/-- **What is computed is the digest of the standard.** -/
theorem digest_eq (parameters : Bytes) {data : Bytes} (small : data.length < 2 ^ 32) (n : Nat)
    (k : Nat → α) :
    digest (littleEndian parameters) (littleEndian data) data.length n k
      = k (littleEndian (Standard.digest parameters data false n)) := by
  have last : 0 + (data.length - 1) / 64 + 1 = blockCount data := by
    unfold blockCount
    omega
  have range : List.range' 0 ((data.length - 1) / 64 + 1) = List.range (blockCount data) := by
    rw [← last, Nat.zero_add, List.range_eq_range']
  have compressed (k : Quad → Quad → α) :
      withChain (firstChain parameters)
          (blocks data.length ((data.length - 1) / 64) (littleEndian data) 0 · · k)
        = withChain (lastChain parameters data false) k := by
    rw [lastChain, ← range]
    exact blocks_chain small last _ k
  have cut : Nat.mod (withChain (lastChain parameters data false) number) (Nat.pow 256 n)
      = littleEndian (Standard.digest parameters data false n) := by
    rw [number_chain, Standard.digest, littleEndian_take]
    rfl
  have counted : Nat.div (Nat.sub data.length 1) 64 = (data.length - 1) / 64 := rfl
  simp only [digest, first_chain, force_eq, counted]
  rw [compressed, ← cut]
  rfl

end Blake2s.Evaluation
