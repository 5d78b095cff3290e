import Blake2s.Proofs.Counter
import Blake2s.Proofs.Standard.Tables
import Blake2s.Proofs.Words

set_option autoImplicit false

/-! # The generic compression is that of the standard

The generic compression mixes sixteen words in place, eight mixes to a round; the standard mixes four
columns, turns them into diagonals, mixes these and turns them back. `Working.columns` shows the
former as the latter. One mix changes the column at its own places (`column_mix`) and no column apart
from it (`column_mix_of_apart`), so the first four mixes of a round mix the columns and the last four
the diagonals (`columns_round`). From this `bits_absorb` follows: absorbing a block is the function F
of the standard. -/

namespace Blake2s

/-! ## Places -/

namespace Places

/-- The four places of a mix. -/
def toList (p : Places) : List (Fin 16) := [p.a, p.b, p.c, p.d]

/-- Have two groups of places none in common? -/
def Apart (p q : Places) : Prop := ∀ i ∈ p.toList, i ∉ q.toList

instance (p q : Places) : Decidable (p.Apart q) := inferInstanceAs (Decidable (∀ i ∈ _, _))

/-- The places of column `i`. -/
def column (i : Fin 4) : Places := places.get (Fin.castAdd 4 i)

/-- The places of diagonal `i`. -/
def diagonal (i : Fin 4) : Places := places.get (Fin.natAdd 4 i)

end Places

/-! ## Columns of the working vector -/

/-- The lanes one by one. -/
theorem lane_cases {i : Nat} (hi : i < 4) : i = 0 ∨ i = 1 ∨ i = 2 ∨ i = 3 := by omega

namespace Working

/-- The words at four places. -/
def column (v : Working) (p : Places) : Standard.Column :=
  ⟨(v.get p.a).toBitVec, (v.get p.b).toBitVec, (v.get p.c).toBitVec, (v.get p.d).toBitVec⟩

/-- The words at four groups of places. -/
def columnsAt (v : Working) (p : Fin 4 → Places) : Standard.Columns :=
  Vector.ofFn fun i => v.column (p i)

/-- The four columns. -/
def columns (v : Working) : Standard.Columns := v.columnsAt Places.column

theorem getElem_columns (v : Working) (i : Nat) (hi : i < 4) :
    v.columns[i]
      = ⟨v[i].toBitVec, v[i + 4].toBitVec, v[i + 8].toBitVec, v[i + 12].toBitVec⟩ := by
  rcases lane_cases hi with rfl | rfl | rfl | rfl <;> rfl

/-- The working vector with other words at four places. -/
def setColumn (v : Working) (p : Places) (q : Standard.Column) : Working :=
  (((v.setIfInBounds p.a (.ofBitVec q.a)).setIfInBounds p.b (.ofBitVec q.b)).setIfInBounds p.c
    (.ofBitVec q.c)).setIfInBounds p.d (.ofBitVec q.d)

theorem set_eq_setIfInBounds (v : Working) {i : Nat} (hi : i < 16) (w : UInt32) :
    v.set i w hi = v.setIfInBounds i w := by
  ext1 j hj
  rw [Vector.getElem_set, Vector.getElem_setIfInBounds]

theorem get_setColumn_of_notMem (v : Working) {p : Places} (q : Standard.Column) {i : Fin 16}
    (hi : i ∉ p.toList) : (v.setColumn p q).get i = v.get i := by
  simp only [Places.toList, List.mem_cons, List.not_mem_nil, or_false, not_or] at hi
  obtain ⟨ha, hb, hc, hd⟩ := hi
  simp only [setColumn, get_eq_getElem]
  rw [Vector.getElem_setIfInBounds_ne, Vector.getElem_setIfInBounds_ne,
    Vector.getElem_setIfInBounds_ne, Vector.getElem_setIfInBounds_ne]
    <;> simp only [ne_eq, Fin.val_inj] <;> exact Ne.symm ‹_›

/-- Four different places take four words. -/
theorem column_setColumn (v : Working) {p : Places} (h : p.toList.Nodup) (q : Standard.Column) :
    (v.setColumn p q).column p = q := by
  simp only [Places.toList, List.nodup_cons, List.mem_cons, List.not_mem_nil, or_false, not_or,
    ← Fin.val_inj] at h
  obtain ⟨⟨hab, hac, had⟩, ⟨hbc, hbd⟩, hcd, -, -⟩ := h
  simp only [column, setColumn, get_eq_getElem, Vector.getElem_setIfInBounds_self,
    Vector.getElem_setIfInBounds_ne _ (Ne.symm had), Vector.getElem_setIfInBounds_ne _ (Ne.symm hac),
    Vector.getElem_setIfInBounds_ne _ (Ne.symm hab), Vector.getElem_setIfInBounds_ne _ (Ne.symm hbd),
    Vector.getElem_setIfInBounds_ne _ (Ne.symm hbc), Vector.getElem_setIfInBounds_ne _ (Ne.symm hcd)]

/-- A mix does to the words at its places what the standard does to a column. -/
theorem mix_eq_setColumn (v : Working) (p : Places) (x y : UInt32) :
    v.mix p x y = v.setColumn p ((v.column p).mix x.toBitVec y.toBitVec) := by
  have by16 (w : UInt32) : w.toBitVec.rotateRight 16 = (Word.rotateRight w 16).toBitVec :=
    (Word.toBitVec_rotateRight (n := 16) (by decide) (by decide)).symm
  have by12 (w : UInt32) : w.toBitVec.rotateRight 12 = (Word.rotateRight w 12).toBitVec :=
    (Word.toBitVec_rotateRight (n := 12) (by decide) (by decide)).symm
  have by8 (w : UInt32) : w.toBitVec.rotateRight 8 = (Word.rotateRight w 8).toBitVec :=
    (Word.toBitVec_rotateRight (n := 8) (by decide) (by decide)).symm
  have by7 (w : UInt32) : w.toBitVec.rotateRight 7 = (Word.rotateRight w 7).toBitVec :=
    (Word.toBitVec_rotateRight (n := 7) (by decide) (by decide)).symm
  simp only [mix, setColumn, set_eq_setIfInBounds, column, Standard.Column.mix, get_eq_getElem,
    Fin.getElem_fin,
    ← UInt32.toBitVec_add, ← UInt32.toBitVec_xor, by16, by12, by8, by7,
    UInt32.ofBitVec_toBitVec]

/-- A mix leaves all words but the four at its places. -/
theorem get_mix_of_notMem (v : Working) (p : Places) (x y : UInt32) {i : Fin 16}
    (hi : i ∉ p.toList) : (v.mix p x y).get i = v.get i := by
  rw [mix_eq_setColumn, get_setColumn_of_notMem v _ hi]

theorem column_mix_of_apart (v : Working) (x y : UInt32) {p q : Places} (h : p.Apart q) :
    (v.mix p x y).column q = v.column q := by
  have other : ∀ i ∈ q.toList, (v.mix p x y).get i = v.get i := by
    intro i hi
    apply get_mix_of_notMem
    intro hp
    exact h i hp hi
  simp only [column]
  rw [other q.a (by simp [Places.toList]), other q.b (by simp [Places.toList]),
    other q.c (by simp [Places.toList]), other q.d (by simp [Places.toList])]

/-- A mix at four different places mixes the column there. -/
theorem column_mix (v : Working) (x y : UInt32) {p : Places} (h : p.toList.Nodup) :
    (v.mix p x y).column p = (v.column p).mix x.toBitVec y.toBitVec := by
  rw [mix_eq_setColumn, column_setColumn v h]

/-! ## Mixes one after the other -/

/-- The words that a mixing takes in, as bit vectors. -/
theorem column_step (m : Vector UInt32 16) (v : Working) {s : Mixing} (h : s.places.toList.Nodup) :
    (v.step m s).column s.places = (v.column s.places).mix ((bits m).get s.x) ((bits m).get s.y) := by
  simp only [step, column_mix v _ _ h, get_eq_getElem, Fin.getElem_fin, getElem_bits]

theorem column_foldl_of_apart (m : Vector UInt32 16) {q : Places} {l : List Mixing} (v : Working)
    (h : ∀ s ∈ l, s.places.Apart q) : (l.foldl (step m) v).column q = v.column q := by
  induction l generalizing v with
  | nil => rfl
  | cons s l ih =>
    rw [List.foldl_cons, ih _ fun s' hs' => h s' (List.mem_cons_of_mem s hs')]
    exact column_mix_of_apart v _ _ (h s List.mem_cons_self)

/-- Mixes with no place in common do not disturb each other. -/
theorem column_foldl (m : Vector UInt32 16) {l : List Mixing} (v : Working)
    (apart : l.Pairwise fun s s' => s.places.Apart s'.places ∧ s'.places.Apart s.places)
    (nodup : ∀ s ∈ l, s.places.toList.Nodup) {s : Mixing} (hs : s ∈ l) :
    (l.foldl (step m) v).column s.places
      = (v.column s.places).mix ((bits m).get s.x) ((bits m).get s.y) := by
  induction l generalizing v with
  | nil => simp at hs
  | cons t l ih =>
    rw [List.pairwise_cons] at apart
    obtain ⟨first, rest⟩ := apart
    rw [List.foldl_cons]
    rcases List.mem_cons.mp hs with rfl | hs
    · rw [column_foldl_of_apart m _ fun s' hs' => (first s' hs').2]
      exact column_step m v (nodup s List.mem_cons_self)
    · rw [ih _ rest (fun s' hs' => nodup s' (List.mem_cons_of_mem t hs')) hs]
      rw [step, column_mix_of_apart v _ _ (first s hs).1]

/-! ## Rounds -/

theorem place_lt (start : Fin 9) (i : Fin 4) : start.val + 2 * i.val < 16 := by omega

theorem next_place_lt (start : Fin 9) (i : Fin 4) : start.val + 2 * i.val + 1 < 16 := by omega

/-- Half of the mixes of a round: those at four groups of places, which take in the message words
    from a given place of the message schedule on. -/
def halfRound (s : Vector (Fin 16) 16) (start : Fin 9) (p : Fin 4 → Places) : List Mixing :=
  (List.finRange 4).map fun i =>
    { places := p i
      x := s.get ⟨_, place_lt start i⟩
      y := s.get ⟨_, next_place_lt start i⟩ }

theorem mixings_eq (s : Vector (Fin 16) 16) :
    mixings s = halfRound s 0 Places.column ++ halfRound s 8 Places.diagonal := rfl

theorem columnsAt_halfRound (m : Vector UInt32 16) (s : Vector (Fin 16) 16) (start : Fin 9)
    (v : Working) {p : Fin 4 → Places} (nodup : ∀ i, (p i).toList.Nodup)
    (apart : ∀ i j, i ≠ j → (p i).Apart (p j)) :
    ((halfRound s start p).foldl (step m) v).columnsAt p
      = (v.columnsAt p).mix (bits m) s start := by
  have pairwise : (halfRound s start p).Pairwise fun s s' =>
      s.places.Apart s'.places ∧ s'.places.Apart s.places := by
    rw [halfRound, List.pairwise_map]
    exact (List.nodup_finRange 4).imp fun h => ⟨apart _ _ h, apart _ _ h.symm⟩
  have each : ∀ t ∈ halfRound s start p, t.places.toList.Nodup := by
    intro t ht
    obtain ⟨i, -, rfl⟩ := List.mem_map.mp ht
    exact nodup i
  ext1 i hi
  have mem : (⟨p ⟨i, hi⟩, s.get ⟨start.val + 2 * i, by omega⟩,
      s.get ⟨start.val + 2 * i + 1, by omega⟩⟩ : Mixing) ∈ halfRound s start p :=
    List.mem_map.mpr ⟨⟨i, hi⟩, List.mem_finRange _, rfl⟩
  simp only [columnsAt, Standard.Columns.mix, Vector.getElem_ofFn]
  rw [column_foldl m v pairwise each mem]
  simp only [get_eq_getElem, Fin.getElem_fin, Vector.getElem_ofFn]

/-- Each diagonal is made up of words of four columns. -/
theorem diagonals_columns (v : Working) : v.columns.diagonals = v.columnsAt Places.diagonal := by
  ext1 i hi
  rcases lane_cases hi with rfl | rfl | rfl | rfl <;> rfl

end Working

theorem Standard.Columns.ofDiagonals_diagonals (v : Standard.Columns) :
    v.diagonals.ofDiagonals = v := by
  ext1 i hi
  rcases lane_cases hi with rfl | rfl | rfl | rfl <;> rfl

namespace Working

theorem columns_round (m : Vector UInt32 16) (v : Working) (s : Vector (Fin 16) 16) :
    (v.round m (mixings s)).columns = v.columns.round (bits m) s := by
  rw [round, mixings_eq, List.foldl_append, ← Standard.Columns.ofDiagonals_diagonals (columns _),
    diagonals_columns, columnsAt_halfRound m s 8 _ (by decide) (by decide), ← diagonals_columns,
    columns, columnsAt_halfRound m s 0 v (by decide) (by decide)]
  rfl

theorem columns_mixAll (m : Vector UInt32 16) (v : Working) :
    (v.mixAll m).columns = Standard.schedules.foldl (Standard.Columns.round (bits m)) v.columns := by
  rw [mixAll, schedule, Vector.toList_map, List.foldl_map, Standard.schedules_eq]
  exact (List.foldl_hom columns fun v s => (columns_round m v s).symm).symm

end Working

/-! ## The function F -/

theorem ofFn_wordAt (block : Block) :
    (Vector.ofFn fun i : Fin 16 => Standard.wordAt block.toList i.val) = bits block.words := by
  ext1 i hi
  rw [Vector.getElem_ofFn, Word.wordAt_toList block hi, getElem_bits]

namespace Chain

theorem getElem_working_of_lt (chain : Chain) {i : Nat} (hi : i < 8) :
    chain.working[i] = chain.h[i] := by
  simp only [working]
  rw [Vector.getElem_set_ne _ _ (by omega), Vector.getElem_set_ne _ _ (by omega),
    Vector.getElem_set_ne _ _ (by omega), Vector.getElem_set_ne _ _ (by omega),
    Vector.getElem_append_left hi]

theorem getElem_working_of_le (chain : Chain) {i : Nat} (hi : 8 ≤ i) (hi' : i < 12) :
    chain.working[i] = iv[i - 8] := by
  simp only [working]
  rw [Vector.getElem_set_ne _ _ (by omega), Vector.getElem_set_ne _ _ (by omega),
    Vector.getElem_set_ne _ _ (by omega), Vector.getElem_set_ne _ _ (by omega),
    Vector.getElem_append_right _ hi]

/-- The last four words take in the counter and the flags. -/
theorem get_working_last (chain : Chain) :
    chain.working.get 12 = iv.get 4 ^^^ chain.t.lo ∧
      chain.working.get 13 = iv.get 5 ^^^ chain.t.hi ∧
      chain.working.get 14 = iv.get 6 ^^^ chain.f.lastBlock ∧
      chain.working.get 15 = iv.get 7 ^^^ chain.f.lastNode := by
  have high : ∀ i (hi : i < 8), (chain.h ++ iv)[i + 8] = iv[i] := by
    intro i hi
    rw [Vector.getElem_append_right _ (by omega)]
    simp only [Nat.add_sub_cancel]
  have lo : chain.working[12] = iv[4] ^^^ chain.t.lo := by simp [working, high 4]
  have hi : chain.working[13] = iv[5] ^^^ chain.t.hi := by simp [working, high 5]
  have lastBlock : chain.working[14] = iv[6] ^^^ chain.f.lastBlock := by simp [working, high 6]
  have lastNode : chain.working[15] = iv[7] ^^^ chain.f.lastNode := by simp [working, high 7]
  exact ⟨lo, hi, lastBlock, lastNode⟩

theorem columns_working (chain : Chain) :
    chain.working.columns = Standard.initialColumns (bits chain.h) chain.t.toNat
      chain.f.lastBlock.toBitVec chain.f.lastNode.toBitVec := by
  obtain ⟨lo, hi, lastBlock, lastNode⟩ := chain.get_working_last
  have h12 : chain.working[12] = iv[4] ^^^ chain.t.lo := lo
  have h13 : chain.working[13] = iv[5] ^^^ chain.t.hi := hi
  have h14 : chain.working[14] = iv[6] ^^^ chain.f.lastBlock := lastBlock
  have h15 : chain.working[15] = iv[7] ^^^ chain.f.lastNode := lastNode
  simp only [Standard.initialColumns, ← Counter.lo_eq, ← Counter.hi_eq, getElem_bits,
    Standard.ivWord_eq]
  ext1 i hi
  rw [Working.getElem_columns, getElem_working_of_lt chain (by omega),
    getElem_working_of_lt chain (by omega), getElem_working_of_le chain (by omega) (by omega)]
  rcases lane_cases hi with rfl | rfl | rfl | rfl
  · rw [h12]; rfl
  · rw [h13]; rfl
  · rw [h14]; rfl
  · rw [h15]; rfl

theorem getElem_feedForward (h : Vector UInt32 8) (v : Working) (i : Nat) (hi : i < 8) :
    (feedForward h v)[i] = h[i] ^^^ (v[i] ^^^ v[i + 8]) := by
  rw [feedForward, Vector.getElem_ofFn]
  rfl

theorem bits_feedForward (h : Vector UInt32 8) (v : Working) :
    bits (feedForward h v) = Standard.feedForward (bits h) v.columns := by
  have word : ∀ i (hi : i < 8), (bits (feedForward h v))[i]
      = h[i].toBitVec ^^^ v[i].toBitVec ^^^ v[i + 8].toBitVec := by
    intro i hi
    rw [getElem_bits, getElem_feedForward, UInt32.toBitVec_xor, UInt32.toBitVec_xor,
      BitVec.xor_assoc]
  ext1 i hi
  rw [word]
  simp only [Standard.feedForward, Working.getElem_columns, getElem_bits]
  have : i = 0 ∨ i = 1 ∨ i = 2 ∨ i = 3 ∨ i = 4 ∨ i = 5 ∨ i = 6 ∨ i = 7 := by omega
  rcases this with rfl | rfl | rfl | rfl | rfl | rfl | rfl | rfl <;> rfl

/-- **Absorbing a block is the function F**, with the counter as it is after its advance. -/
theorem bits_absorb (inc : Int) (chain : Chain) (block : Block) :
    bits (chain.absorb inc block).h
      = Standard.compress (bits chain.h) block.toList (chain.t.advance inc).toNat
          chain.f.lastBlock.toBitVec chain.f.lastNode.toBitVec := by
  have mixed := Working.columns_mixAll block.words (working { chain with t := chain.t.advance inc })
  rw [columns_working] at mixed
  unfold absorb Standard.compress
  rw [bits_feedForward, mixed, ofFn_wordAt]

end Chain

end Blake2s
