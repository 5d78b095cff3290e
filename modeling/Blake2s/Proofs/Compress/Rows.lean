import Blake2s.Compress.Lanes
import Blake2s.Proofs.Compress.Columns

set_option autoImplicit false

/-! # The lane-parallel compression is the generic one

Lane `i` of the four rows is column `i` of the standard, so the rows go through the same columns as
the generic working vector (`Rows.columns_mixAll`). What is carried from block to block is therefore
at each block what the generic compression has there (`Carry.absorb_ofChain`), and writing it back
once, at the end, gives the generic result (`Lanes.compress_eq`). -/

namespace Blake2s

/-! ## Rows as columns -/

namespace Rows

/-- The rows read lane by lane. -/
def columns (v : Rows) : Standard.Columns :=
  Vector.ofFn fun i =>
    ⟨(v.a.get i).toBitVec, (v.b.get i).toBitVec, (v.c.get i).toBitVec, (v.d.get i).toBitVec⟩

theorem getElem_columns (v : Rows) (i : Nat) (hi : i < 4) :
    v.columns[i] = ⟨v.a[i].toBitVec, v.b[i].toBitVec, v.c[i].toBitVec, v.d[i].toBitVec⟩ := by
  simp only [columns, Vector.getElem_ofFn, get_eq_getElem]

/-- A mix of rows mixes each lane like a column. -/
theorem columns_mix (v : Rows) (x y : Lanes) :
    (v.mix x y).columns
      = Vector.ofFn fun i =>
          (v.columns.get i).mix (x.get i).toBitVec (y.get i).toBitVec := by
  ext1 i hi
  simp only [getElem_columns, Vector.getElem_ofFn, get_eq_getElem, mix, Lanes.add, Lanes.xor,
    Lanes.rotateBits, Vector.getElem_zipWith, Vector.getElem_map, UInt32.toBitVec_add,
    UInt32.toBitVec_xor, Standard.Column.mix,
    Word.toBitVec_rotateRight (n := 16) (by decide) (by decide),
    Word.toBitVec_rotateRight (n := 12) (by decide) (by decide),
    Word.toBitVec_rotateRight (n := 8) (by decide) (by decide),
    Word.toBitVec_rotateRight (n := 7) (by decide) (by decide)]
  rfl

theorem columns_diagonalize (v : Rows) : v.diagonalize.columns = v.columns.diagonals := by
  ext1 i hi
  rcases lane_cases hi with rfl | rfl | rfl | rfl <;> rfl

theorem columns_undiagonalize (v : Rows) : v.undiagonalize.columns = v.columns.ofDiagonals := by
  ext1 i hi
  rcases lane_cases hi with rfl | rfl | rfl | rfl <;> rfl

/-- Gathering every second entry takes in the message words that the standard does. -/
theorem columns_mix_gather (m : Vector UInt32 16) (s : Vector (Fin 16) 16) (v : Rows)
    (start : Fin 9) {x y : Fin 10} (hx : x.val = start.val) (hy : y.val = start.val + 1) :
    (v.mix (Lanes.gather m (everySecond s x)) (Lanes.gather m (everySecond s y))).columns
      = v.columns.mix (bits m) s start := by
  rw [columns_mix]
  ext1 i hi
  simp only [Standard.Columns.mix, Vector.getElem_ofFn, Lanes.gather, everySecond,
    Vector.getElem_map, get_eq_getElem, Fin.getElem_fin, getElem_bits, hx, hy, Nat.add_right_comm]

theorem columns_round (m : Vector UInt32 16) (v : Rows) (s : Vector (Fin 16) 16) :
    (v.round m (Gathers.ofSchedule s)).columns = v.columns.round (bits m) s := by
  simp only [round, Gathers.ofSchedule]
  rw [columns_undiagonalize, columns_mix_gather m s _ 8 rfl rfl, columns_diagonalize,
    columns_mix_gather m s v 0 rfl rfl, Standard.Columns.round]

theorem columns_mixAll (m : Vector UInt32 16) (v : Rows) :
    (v.mixAll m).columns = Standard.schedules.foldl (Standard.Columns.round (bits m)) v.columns := by
  rw [mixAll, gathers, Vector.toList_map, List.foldl_map, Standard.schedules_eq]
  exact (List.foldl_hom columns fun v s => (columns_round m v s).symm).symm

end Rows

/-! ## Batches -/

namespace Lanes

/-- The rows that a block is mixed into, for what is carried over from the blocks before. -/
def rows (chain : Chain) : Rows :=
  { a := (Carry.ofChain chain).low
    b := (Carry.ofChain chain).high
    c := ivLow
    d := ivHigh.xor #v[chain.t.lo, chain.t.hi, chain.f.lastBlock, chain.f.lastNode] }

/-- Before the rounds the rows hold the generic working vector. -/
theorem columns_rows (chain : Chain) : (rows chain).columns = chain.working.columns := by
  rw [Chain.columns_working, Standard.initialColumns, ← Counter.lo_eq, ← Counter.hi_eq]
  ext1 i hi
  rw [Rows.getElem_columns]
  simp only [rows, Carry.ofChain, ivLow, ivHigh, xor, Vector.getElem_ofFn, Vector.getElem_zipWith,
    getElem_bits, UInt32.toBitVec_xor, Standard.ivWord_eq]
  rcases lane_cases hi with rfl | rfl | rfl | rfl <;> rfl

/-- After the rounds, too. -/
theorem columns_mixAll_rows (m : Vector UInt32 16) (chain : Chain) :
    ((rows chain).mixAll m).columns = (chain.working.mixAll m).columns := by
  rw [Rows.columns_mixAll, columns_rows, Working.columns_mixAll]

/-- What is carried over from a block is what the generic compression makes of it. -/
theorem absorb_ofChain (inc : Int) (chain : Chain) (block : Block) :
    (Carry.ofChain chain).absorb chain.f inc block = Carry.ofChain (chain.absorb inc block) := by
  have advanced : (Carry.ofChain chain).absorb chain.f inc block
      = let v := (rows { chain with t := chain.t.advance inc }).mixAll block.words
        { low := ((Carry.ofChain chain).low.xor v.a).xor v.c
          high := ((Carry.ofChain chain).high.xor v.b).xor v.d
          t := chain.t.advance inc } := rfl
  -- rows and a working vector with the same columns hold the same words
  have words : ∀ i (hi : i < 4),
      let v := (rows { chain with t := chain.t.advance inc }).mixAll block.words
      let w := (Chain.working { chain with t := chain.t.advance inc }).mixAll block.words
      v.a[i] = w[i] ∧ v.b[i] = w[i + 4] ∧ v.c[i] = w[i + 8] ∧ v.d[i] = w[i + 12] := by
    intro i hi v w
    have hc : v.columns[i] = w.columns[i] := by rw [columns_mixAll_rows]
    rw [Rows.getElem_columns, Working.getElem_columns] at hc
    simpa only [Standard.Column.mk.injEq, UInt32.toBitVec_inj] using hc
  rw [advanced]
  simp only [Carry.ofChain, Chain.absorb, Carry.mk.injEq, and_true]
  constructor
  · ext1 i hi
    obtain ⟨ha, -, hc, -⟩ := words i hi
    simp only [xor, Vector.getElem_zipWith, Vector.getElem_ofFn, ha, hc, UInt32.xor_assoc]
    exact (Chain.getElem_feedForward _ _ i (by omega)).symm
  · ext1 i hi
    obtain ⟨-, hb, -, hd⟩ := words i hi
    simp only [xor, Vector.getElem_zipWith, Vector.getElem_ofFn, hb, hd, UInt32.xor_assoc]
    exact (Chain.getElem_feedForward _ _ (i + 4) (by omega)).symm

theorem foldl_absorb_ofChain (inc : Int) (blocks : List Block) (chain : Chain) :
    blocks.foldl (Carry.absorb chain.f inc) (Carry.ofChain chain)
      = Carry.ofChain (blocks.foldl (Chain.absorb inc) chain) := by
  induction blocks generalizing chain with
  | nil => rfl
  | cons block blocks ih =>
    rw [List.foldl_cons, List.foldl_cons, absorb_ofChain, ← Chain.absorb_f inc chain block, ih]

theorem Carry.low_append_high (chain : Chain) :
    (Carry.ofChain chain).low ++ (Carry.ofChain chain).high = chain.h := by
  ext1 i hi
  by_cases h : i < 4
  · rw [Vector.getElem_append_left h, Carry.ofChain, Vector.getElem_ofFn]
    rfl
  · rw [Vector.getElem_append_right _ (by omega), Carry.ofChain, Vector.getElem_ofFn]
    change chain.h[i - 4 + 4] = chain.h[i]
    simp only [Nat.sub_add_cancel (show 4 ≤ i by omega)]

/-- **The lane-parallel compression is the generic one**, for every batch and increment. -/
theorem compress_eq (chain : Chain) (batch : Batch) :
    Lanes.compress chain batch = chain.compress batch := by
  have carried : Lanes.compress chain batch
      = { chain with h := (chain.compress batch).h, t := (chain.compress batch).t } := by
    simp only [compress, foldl_absorb_ofChain, Carry.low_append_high]
    rfl
  rw [carried, ← Chain.compress_f chain batch]

end Lanes

end Blake2s
