import Blake2s.Proofs.Compress.Masked
import Mathlib.Data.Set.Function

set_option autoImplicit false

/-! # The rounds can be undone

Each assignment of the mixing function changes one word by what the others hold at that time: it adds
to it, or it combines it by exclusive or and rotates it. So each can be taken back, the last one first
(`Standard.Column.unmix_mix`). The four places of a mix are different, so a mix of the working vector
can be taken back, too, and therefore a round and all ten of them (`Working.unmixAll_mixAll`,
`Working.mixAll_unmixAll`). On masked numbers the rounds are a bijection on the vectors of numbers
below `2 ^ 32`, and compressions of one message block that start from different words have different
working vectors to the end (`Masked.mixAll_invertible`). -/

namespace Blake2s

/-! ## Taking steps back -/

/-- Steps that can be taken back one by one can be taken back from the last to the first. -/
theorem foldl_reverse_foldl {α β : Type} {f g : α → β → α} {l : List β}
    (back : ∀ b ∈ l, ∀ a, g (f a b) b = a) (a : α) : l.reverse.foldl g (l.foldl f a) = a := by
  induction l generalizing a with
  | nil => rfl
  | cons b l ih =>
    rw [List.foldl_cons, List.reverse_cons, List.foldl_append,
      ih fun b' hb' => back b' (List.mem_cons_of_mem b hb')]
    exact back b List.mem_cons_self a

theorem foldl_foldl_reverse {α β : Type} {f g : α → β → α} {l : List β}
    (forth : ∀ b ∈ l, ∀ a, f (g a b) b = a) (a : α) : l.foldl f (l.reverse.foldl g a) = a := by
  have undone := foldl_reverse_foldl (l := l.reverse) (f := g) (g := f)
    (fun b hb => forth b (List.mem_reverse.mp hb)) a
  rwa [List.reverse_reverse] at undone

/-! ## One mix -/

theorem Word.rotateLeft_rotateRight (w : Standard.Word32) (n : Nat) :
    (w.rotateRight n).rotateLeft n = w := by
  have amount : n % 32 < 32 := Nat.mod_lt n (by decide)
  ext i hi
  rw [BitVec.getElem_rotateLeft]
  split
  · rw [BitVec.getElem_rotateRight, dif_neg (by omega)]
    congr 1
    omega
  · rw [BitVec.getElem_rotateRight, dif_pos (by omega)]
    congr 1
    omega

theorem Word.rotateRight_rotateLeft (w : Standard.Word32) (n : Nat) :
    (w.rotateLeft n).rotateRight n = w := by
  have amount : n % 32 < 32 := Nat.mod_lt n (by decide)
  ext i hi
  rw [BitVec.getElem_rotateRight]
  split
  · rw [BitVec.getElem_rotateLeft, dif_neg (by omega)]
    congr 1
    omega
  · rw [BitVec.getElem_rotateLeft, dif_pos (by omega)]
    congr 1
    omega

theorem Word.xor_xor (v w : Standard.Word32) : v ^^^ w ^^^ w = v := by
  rw [BitVec.xor_assoc, BitVec.xor_self, BitVec.xor_zero]

namespace Standard.Column

/-- Undoes the mixing function G: takes its assignments back, the last one first. -/
def unmix (v : Column) (x y : Word32) : Column :=
  let b := v.b.rotateLeft 7 ^^^ v.c
  let c := v.c - v.d
  let d := v.d.rotateLeft 8 ^^^ v.a
  let a := v.a - y - b
  let b := b.rotateLeft 12 ^^^ c
  let c := c - d
  let d := d.rotateLeft 16 ^^^ a
  let a := a - x - b
  { a, b, c, d }

theorem unmix_mix (v : Column) (x y : Word32) : (v.mix x y).unmix x y = v := by
  simp only [mix, unmix, Word.rotateLeft_rotateRight, Word.xor_xor, BitVec.add_sub_cancel]

theorem mix_unmix (v : Column) (x y : Word32) : (v.unmix x y).mix x y = v := by
  simp only [mix, unmix, Word.rotateRight_rotateLeft, Word.xor_xor, BitVec.sub_add_cancel]

end Standard.Column

namespace Working

/-- Words at four places and words at all others make up a working vector. -/
theorem ext_column {v w : Working} (p : Places) (here : v.column p = w.column p)
    (elsewhere : ∀ i, i ∉ p.toList → v.get i = w.get i) : v = w := by
  simp only [column, Standard.Column.mk.injEq, UInt32.toBitVec_inj] at here
  obtain ⟨a, b, c, d⟩ := here
  ext1 i hi
  by_cases mem : ⟨i, hi⟩ ∈ p.toList
  · simp only [Places.toList, List.mem_cons, List.not_mem_nil, or_false] at mem
    rcases mem with at_a | at_b | at_c | at_d
    · rwa [← at_a] at a
    · rwa [← at_b] at b
    · rwa [← at_c] at c
    · rwa [← at_d] at d
  · exact elsewhere ⟨i, hi⟩ mem

/-- Undoes a mix. -/
def unmix (v : Working) (p : Places) (x y : UInt32) : Working :=
  v.setColumn p ((v.column p).unmix x.toBitVec y.toBitVec)

section

variable (v : Working) {p : Places} (different : p.toList.Nodup) (x y : UInt32)

include different

theorem unmix_mix : (v.mix p x y).unmix p x y = v := by
  refine ext_column p ?_ fun i hi => ?_
  · rw [unmix, column_setColumn _ different, column_mix v x y different, Standard.Column.unmix_mix]
  · rw [unmix, get_setColumn_of_notMem _ _ hi, get_mix_of_notMem v p x y hi]

theorem mix_unmix : (v.unmix p x y).mix p x y = v := by
  refine ext_column p ?_ fun i hi => ?_
  · rw [column_mix _ x y different, unmix, column_setColumn _ different, Standard.Column.mix_unmix]
  · rw [get_mix_of_notMem _ p x y hi, unmix, get_setColumn_of_notMem _ _ hi]

end

/-! ## All rounds -/

def unstep (m : Vector UInt32 16) (v : Working) (s : Mixing) : Working :=
  v.unmix s.places (m.get s.x) (m.get s.y)

def unround (m : Vector UInt32 16) (v : Working) (mixings : List Mixing) : Working :=
  mixings.reverse.foldl (unstep m) v

/-- Undoes all rounds, the last one first. -/
def unmixAll (m : Vector UInt32 16) (v : Working) : Working :=
  schedule.toList.reverse.foldl (unround m) v

/-- No mix of any round reads or writes one place twice. -/
theorem nodup_of_mem_schedule {mixings : List Mixing} (round : mixings ∈ schedule.toList)
    {s : Mixing} (mem : s ∈ mixings) : s.places.toList.Nodup := by
  have table : ∀ i : Fin 8, places[i].toList.Nodup := by decide
  rw [schedule, Vector.toList_map] at round
  obtain ⟨order, -, rfl⟩ := List.mem_map.mp round
  obtain ⟨i, -, rfl⟩ := List.mem_map.mp mem
  exact table i

section

variable (m : Vector UInt32 16) (v : Working)

theorem unround_round {mixings : List Mixing} (different : ∀ s ∈ mixings, s.places.toList.Nodup) :
    (v.round m mixings).unround m mixings = v :=
  foldl_reverse_foldl (fun s mem v => unmix_mix v (different s mem) m[s.x] m[s.y]) v

theorem round_unround {mixings : List Mixing} (different : ∀ s ∈ mixings, s.places.toList.Nodup) :
    (v.unround m mixings).round m mixings = v :=
  foldl_foldl_reverse (fun s mem v => mix_unmix v (different s mem) m[s.x] m[s.y]) v

theorem unmixAll_mixAll : (v.mixAll m).unmixAll m = v := by
  refine foldl_reverse_foldl (fun mixings round v => ?_) v
  exact unround_round m v fun s mem => nodup_of_mem_schedule round mem

theorem mixAll_unmixAll : (v.unmixAll m).mixAll m = v := by
  refine foldl_foldl_reverse (fun mixings round v => ?_) v
  exact round_unround m v fun s mem => nodup_of_mem_schedule round mem

end

theorem mixAll_injective (m : Vector UInt32 16) : Function.Injective (mixAll m) :=
  Function.LeftInverse.injective (unmixAll_mixAll m)

end Working

/-! ## What a working vector is made of -/

/-- The words of a chain can be read off its working vector. -/
theorem Chain.working_injective : Function.Injective Chain.working := by
  intro c c' same
  obtain ⟨lo, hi, lastBlock, lastNode⟩ := c.get_working_last
  obtain ⟨lo', hi', lastBlock', lastNode'⟩ := c'.get_working_last
  rw [same] at lo hi lastBlock lastNode
  have value : c.h = c'.h := by
    ext1 i hi
    rw [← c.getElem_working_of_lt hi, ← c'.getElem_working_of_lt hi, same]
  have counter : c.t = c'.t :=
    congrArg₂ Counter.mk ((UInt32.xor_right_inj _).mp (lo.symm.trans lo'))
      ((UInt32.xor_right_inj _).mp (hi.symm.trans hi'))
  have flags : c.f = c'.f :=
    congrArg₂ Flags.mk ((UInt32.xor_right_inj _).mp (lastBlock.symm.trans lastBlock'))
      ((UInt32.xor_right_inj _).mp (lastNode.symm.trans lastNode'))
  cases c
  cases c'
  cases value
  cases counter
  cases flags
  rfl

/-- Chains that go through the rounds with one and the same message come out as different as they
    went in. -/
theorem Chain.mixAll_working_inj (m : Vector UInt32 16) {c c' : Chain} :
    c.working.mixAll m = c'.working.mixAll m ↔ c = c' :=
  ((Working.mixAll_injective m).comp Chain.working_injective).eq_iff

/-! ## On plain numbers -/

namespace Masked

/-- The vectors of `n` numbers below `2 ^ 32`. -/
def narrowVectors (n : Nat) : Set (Vector Nat n) := {v | ∀ w ∈ v.toList, w < 2 ^ 32}

theorem numbers_mem_narrowVectors {n : Nat} (v : Vector UInt32 n) : numbers v ∈ narrowVectors n :=
  fun _ => lt_of_mem_numbers

theorem ofNat_numbers {n : Nat} (v : Vector UInt32 n) : (numbers v).map UInt32.ofNat = v := by
  ext1 i hi
  rw [Vector.getElem_map, getElem_numbers, UInt32.ofNat_toNat]

theorem numbers_injective (n : Nat) : Function.Injective (numbers (n := n)) :=
  Function.LeftInverse.injective ofNat_numbers

/-- Undoes all rounds, the last one first, on numbers below `2 ^ 32`. -/
def unmixAll (m v : Vector Nat 16) : Vector Nat 16 :=
  numbers (Working.unmixAll (m.map UInt32.ofNat) (v.map UInt32.ofNat))

theorem unmixAll_numbers (m : Vector UInt32 16) (v : Working) :
    unmixAll (numbers m) (numbers v) = numbers (v.unmixAll m) := by
  rw [unmixAll, ofNat_numbers, ofNat_numbers]

section

variable (m : Vector UInt32 16)

theorem mapsTo_mixAll :
    Set.MapsTo (mixAll (numbers m)) (narrowVectors 16) (narrowVectors 16) := by
  intro v narrow
  rw [← numbers_ofNat narrow, mixAll_numbers]
  exact numbers_mem_narrowVectors _

theorem mapsTo_unmixAll :
    Set.MapsTo (unmixAll (numbers m)) (narrowVectors 16) (narrowVectors 16) := by
  intro v narrow
  rw [← numbers_ofNat narrow, unmixAll_numbers]
  exact numbers_mem_narrowVectors _

theorem invOn_unmixAll :
    Set.InvOn (unmixAll (numbers m)) (mixAll (numbers m)) (narrowVectors 16) (narrowVectors 16) := by
  constructor
  · intro v narrow
    rw [← numbers_ofNat narrow, mixAll_numbers, unmixAll_numbers, Working.unmixAll_mixAll]
  · intro v narrow
    rw [← numbers_ofNat narrow, unmixAll_numbers, mixAll_numbers, Working.mixAll_unmixAll]

end

namespace State

/-- The working vector of block `i` of a byte string after the rounds, before it is fed back. -/
def mixed (s : State) (bytes : Bytes) (inc i : Nat) : Vector Nat 16 :=
  mixAll (messageAt bytes i) (s.advance inc).working

theorem absorb_eq (s : State) (bytes : Bytes) (inc i : Nat) :
    s.absorb bytes inc i
      = { s.advance inc with h := feedForward s.h (s.mixed bytes inc i) } := rfl

theorem mixed_ofState (r : Blake2s.State) (bytes : Bytes) (inc i : Nat) :
    (ofState r).mixed bytes inc i
      = numbers (Working.mixAll (Block.ofBytes (bytes.drop (64 * i))).words
          (Chain.working { r.chain with t := r.chain.t.advance inc })) := by
  rw [mixed, advance_ofState, working_ofState]
  exact mixAll_numbers _ _

theorem t_ofState_inj {r r' : Blake2s.State} :
    (ofState r).t = (ofState r').t ↔ r.chain.t = r'.chain.t := by
  constructor
  · intro same
    have pair : #v[r.chain.t.lo, r.chain.t.hi] = #v[r'.chain.t.lo, r'.chain.t.hi] :=
      numbers_injective 2 same
    have lo : r.chain.t.lo = r'.chain.t.lo := congrArg (·[0]) pair
    have hi : r.chain.t.hi = r'.chain.t.hi := congrArg (·[1]) pair
    exact congrArg₂ Counter.mk lo hi
  · intro same
    rw [ofState, ofState, same]

/-- The same increment keeps different counters apart. -/
theorem t_advance_inj {s s' : State} (narrow : s.Narrow) (narrow' : s'.Narrow) (inc : Nat) :
    (s.advance inc).t = (s'.advance inc).t ↔ s.t = s'.t := by
  obtain ⟨r, rfl⟩ := narrow.exists_ofState
  obtain ⟨r', rfl⟩ := narrow'.exists_ofState
  rw [advance_ofState, advance_ofState, t_ofState_inj, t_ofState_inj]
  exact (Counter.advance_injective inc).eq_iff

/-- What goes through the rounds with one and the same message is the same after them exactly if it
    was before. -/
theorem mixed_inj {s s' : State} (narrow : s.Narrow) (narrow' : s'.Narrow) {bytes bytes' : Bytes}
    {i i' : Nat} (message : messageAt bytes i = messageAt bytes' i') (inc inc' : Nat) :
    s.mixed bytes inc i = s'.mixed bytes' inc' i' ↔
      s.h = s'.h ∧ (s.advance inc).t = (s'.advance inc').t ∧ s.f = s'.f := by
  constructor
  · intro same
    obtain ⟨r, rfl⟩ := narrow.exists_ofState
    obtain ⟨r', rfl⟩ := narrow'.exists_ofState
    have words : (Block.ofBytes (bytes.drop (64 * i))).words
        = (Block.ofBytes (bytes'.drop (64 * i'))).words := numbers_injective 16 message
    rw [mixed_ofState, mixed_ofState, words] at same
    obtain ⟨value, counter, flags⟩ :=
      Chain.mk.inj ((Chain.mixAll_working_inj _).mp (numbers_injective 16 same))
    rw [advance_ofState, advance_ofState, t_ofState_inj]
    refine ⟨?_, counter, ?_⟩
    · rw [ofState, ofState, value]
    · rw [ofState, ofState, flags]
  · rintro ⟨value, counter, flags⟩
    have value' : (s.advance inc).h = (s'.advance inc').h := value
    have flags' : (s.advance inc).f = (s'.advance inc').f := flags
    rw [mixed, mixed, message, working, working, value', counter, flags']

end State

/-- **The rounds lose nothing.** For every message block, all ten rounds can be undone, from the last
    mix to the first: this is their inverse on both sides, for vectors of words and likewise for
    vectors of numbers below `2 ^ 32`, on which the masked rounds are a bijection. The rounds are all
    that stands between the working vector that a block starts with and the one that is fed back.
    So if two compressions take in the same message block, then the working vectors that they feed
    back are the same only if they agree in the chain value, in the counter as advanced and in the
    flags; and if they advance it by the same increment, in the counter from which they started. -/
theorem mixAll_invertible (m : Vector UInt32 16) :
    (∀ v : Working, (v.mixAll m).unmixAll m = v ∧ (v.unmixAll m).mixAll m = v) ∧
    Set.InvOn (unmixAll (numbers m)) (mixAll (numbers m)) (narrowVectors 16) (narrowVectors 16) ∧
    Set.BijOn (mixAll (numbers m)) (narrowVectors 16) (narrowVectors 16) ∧
    (∀ (s : State) (bytes : Bytes) (inc i : Nat),
      s.absorb bytes inc i = { s.advance inc with h := feedForward s.h (s.mixed bytes inc i) }) ∧
    ∀ (s s' : State) (bytes bytes' : Bytes) (inc inc' i i' : Nat), s.Narrow → s'.Narrow →
      messageAt bytes i = numbers m → messageAt bytes' i' = numbers m →
      (s.mixed bytes inc i = s'.mixed bytes' inc' i' ↔
        s.h = s'.h ∧ (s.advance inc).t = (s'.advance inc').t ∧ s.f = s'.f) ∧
      (s.mixed bytes inc i = s'.mixed bytes' inc i' ↔ s.h = s'.h ∧ s.t = s'.t ∧ s.f = s'.f) := by
  refine ⟨fun v => ⟨v.unmixAll_mixAll m, v.mixAll_unmixAll m⟩, invOn_unmixAll m,
    (invOn_unmixAll m).bijOn (mapsTo_mixAll m) (mapsTo_unmixAll m), State.absorb_eq, ?_⟩
  intro s s' bytes bytes' inc inc' i i' narrow narrow' message message'
  have same : messageAt bytes i = messageAt bytes' i' := message.trans message'.symm
  refine ⟨State.mixed_inj narrow narrow' same inc inc', ?_⟩
  rw [State.mixed_inj narrow narrow' same inc inc, State.t_advance_inj narrow narrow']

/-- Two compressions of a block that differ in the flag of the last block alone, on a counter that
    wraps around. -/
theorem mixAll_invertible_last_block :
    let bytes := Bytes.zeros 64
    let m := (Block.ofBytes bytes).words
    let s : State :=
      { h := iv.map UInt32.toNat, t := #v[2 ^ 32 - 1, 2 ^ 32 - 1], f := #v[0, 0],
        buffer := Block.zero, filled := 0, outlen := 32, lastNode := false }
    let s' : State := { s with f := #v[2 ^ 32 - 1, 0] }
    s.Narrow ∧ s'.Narrow ∧ messageAt bytes 0 = numbers m ∧ s.f ≠ s'.f ∧
      s.mixed bytes 64 0 ≠ s'.mixed bytes 64 0 := by
  intro bytes m s s'
  have narrow : s.Narrow := by decide +kernel
  have narrow' : s'.Narrow := by decide +kernel
  have message : messageAt bytes 0 = numbers m := rfl
  have differ : s.f ≠ s'.f := by decide +kernel
  obtain ⟨-, -, -, -, compressions⟩ := mixAll_invertible m
  have mixed := (compressions s s' bytes bytes 64 64 0 0 narrow narrow' message message).2
  exact ⟨narrow, narrow', message, differ, fun same => differ (mixed.mp same).2.2⟩

end Masked

end Blake2s
