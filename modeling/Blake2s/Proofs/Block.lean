import Blake2s.Block
import Mathlib.Data.List.GetD

set_option autoImplicit false

/-! # Blocks as byte strings

A block is as good as the list of its bytes. Here are the facts that let the buffer of a hash state
and the blocks of a batch be read as parts of one byte string: what `Block.ofBytes` reads, what
`Block.write` leaves in front of the place it writes to, and how `Block.split` cuts a string. Writing
to a place in a string is `Bytes.assign`, which keeps its length only if what is written is as long as
the place. -/

namespace Blake2s

/-- Puts `written` in the place of the bytes from `start` up to `stop`, however long it is. -/
def Bytes.assign (bytes : Bytes) (start stop : Nat) (written : Bytes) : Bytes :=
  bytes.take start ++ written ++ bytes.drop (max start stop)

namespace Block

/-! ## Reading and writing -/

theorem toList_ofBytes (bytes : Bytes) : (ofBytes bytes).toList = Bytes.padTo 64 (bytes.take 64) := by
  apply List.ext_getElem
  · rw [Vector.length_toList, Bytes.length_padTo, List.length_take]
    omega
  · intro i hi _
    rw [Vector.length_toList] at hi
    simp only [ofBytes, Bytes.padTo, Bytes.zeros, Vector.getElem_toList, Vector.getElem_ofFn]
    by_cases h : i < bytes.length
    · rw [List.getElem_append_left (by rw [List.length_take]; omega), List.getElem_take,
        List.getD_eq_getElem _ _ h]
    · rw [List.getElem_append_right (by rw [List.length_take]; omega), List.getElem_replicate,
        List.getD_eq_default _ _ (by omega)]

theorem ofBytes_toList (block : Block) : ofBytes block.toList = block := by
  ext1 i hi
  rw [ofBytes, Vector.getElem_ofFn, List.getD_eq_getElem _ _ (by simpa using hi),
    Vector.getElem_toList]

/-- Bytes past the 64th are not read. -/
theorem ofBytes_append {xs : Bytes} (ys : Bytes) (h : 64 ≤ xs.length) :
    ofBytes (xs ++ ys) = ofBytes xs := by
  ext1 i hi
  rw [ofBytes, ofBytes, Vector.getElem_ofFn, Vector.getElem_ofFn, List.getD_append _ _ _ _ (by omega)]

/-- Zeros at the end read like no bytes. -/
theorem ofBytes_append_zeros (xs : Bytes) (n : Nat) : ofBytes (xs ++ Bytes.zeros n) = ofBytes xs := by
  ext1 i hi
  simp only [ofBytes, Vector.getElem_ofFn, Bytes.zeros]
  by_cases h : i < xs.length
  · rw [List.getD_append _ _ _ _ h]
  · rw [List.getD_append_right _ _ _ _ (by omega), List.getD_eq_default xs _ (by omega)]
    by_cases h' : i - xs.length < n
    · rw [List.getD_eq_getElem _ _ (by simpa using h'), List.getElem_replicate]
    · rw [List.getD_eq_default _ _ (by simpa using h')]

theorem length_take_toList (block : Block) {n : Nat} (hn : n ≤ 64) :
    (block.toList.take n).length = n := by
  rw [List.length_take, Vector.length_toList, Nat.min_eq_left hn]

/-- Writing at the end of the first `n` bytes appends to them, and leaves what comes after. -/
theorem toList_write (block : Block) {n : Nat} {bytes : Bytes} (h : n + bytes.length ≤ 64) :
    (block.write n bytes).toList
      = block.toList.take n ++ bytes ++ block.toList.drop (n + bytes.length) := by
  apply List.ext_getElem
  · simp only [Vector.length_toList, List.length_append, List.length_take, List.length_drop]
    omega
  · intro i hi _
    rw [Vector.length_toList] at hi
    have front : (block.toList.take n ++ bytes).length = n + bytes.length := by
      rw [List.length_append, length_take_toList block (by omega)]
    simp only [write, Vector.getElem_toList, Vector.getElem_ofFn, Fin.getElem_fin]
    split
    next h' =>
      rw [List.getElem_append_left (by omega),
        List.getElem_append_right (by rw [length_take_toList block (by omega)]; exact h'.1),
        List.getD_eq_getElem _ _ (by omega)]
      simp only [length_take_toList block (show n ≤ 64 by omega)]
    next h' =>
      by_cases lt : i < n
      · rw [List.getElem_append_left (by omega),
          List.getElem_append_left (by rw [length_take_toList block (by omega)]; exact lt),
          List.getElem_take, Vector.getElem_toList]
      · rw [List.getElem_append_right (by omega), List.getElem_drop, Vector.getElem_toList]
        simp only [front, show n + bytes.length + (i - (n + bytes.length)) = i by omega]

theorem take_toList_write (block : Block) {n : Nat} {bytes : Bytes} (h : n + bytes.length ≤ 64) :
    (block.write n bytes).toList.take (n + bytes.length) = block.toList.take n ++ bytes := by
  rw [toList_write block h, List.take_left']
  rw [List.length_append, length_take_toList block (by omega)]

/-- What is in front of the place written to stays. -/
theorem take_toList_write_of_le (block : Block) {n : Nat} {bytes : Bytes}
    (h : n + bytes.length ≤ 64) :
    (block.write n bytes).toList.take n = block.toList.take n := by
  rw [toList_write block h, List.append_assoc,
    List.take_left' (length_take_toList block (by omega))]

/-- Filling up a block makes it the first block of what it held and what was there to fill it. -/
theorem write_take_eq_ofBytes (block : Block) {n : Nat} (bytes : Bytes) (hn : n ≤ 64)
    (enough : 64 - n ≤ bytes.length) :
    block.write n (bytes.take (64 - n)) = ofBytes (block.toList.take n ++ bytes) := by
  have room : (bytes.take (64 - n)).length = 64 - n := by
    rw [List.length_take]
    omega
  have full : (block.write n (bytes.take (64 - n))).toList
      = block.toList.take n ++ bytes.take (64 - n) := by
    rw [toList_write block (by omega), List.drop_eq_nil_of_le (by rw [Vector.length_toList]; omega),
      List.append_nil]
  rw [← List.take_append_drop (64 - n) bytes, ← List.append_assoc,
    List.take_append_of_le_length (by omega), List.take_take, Nat.min_self, ← full,
    ofBytes_append _ (Nat.le_of_eq Vector.length_toList.symm), ofBytes_toList]

/-- As long as the lengths agree, writing to a block is assigning to a slice of it. -/
theorem toList_write_eq_assign (block : Block) {start stop : Nat} {bytes : Bytes}
    (h : start + bytes.length = stop) (inside : stop ≤ 64) :
    (block.write start bytes).toList = Bytes.assign block.toList start stop bytes := by
  have ordered : max start stop = start + bytes.length := by omega
  rw [toList_write block (by omega), Bytes.assign, ordered]

/-! ## Splitting -/

@[simp] theorem split_zero (bytes : Bytes) : split 0 bytes = [] := rfl

theorem split_one (bytes : Bytes) : split 1 bytes = [ofBytes bytes] := rfl

theorem split_add (m n : Nat) (bytes : Bytes) :
    split (m + n) bytes = split m bytes ++ split n (bytes.drop (64 * m)) := by
  induction m generalizing bytes with
  | zero => simp
  | succ m ih =>
    rw [Nat.succ_add, split, split, ih, List.drop_drop, Nat.mul_succ, Nat.add_comm (64 * m) 64]
    rfl

/-- The blocks of a batch do not depend on what comes after the last of them. -/
theorem split_append (n : Nat) {xs : Bytes} (ys : Bytes) (h : 64 * n ≤ xs.length) :
    split n (xs ++ ys) = split n xs := by
  induction n generalizing xs with
  | zero => rfl
  | succ n ih =>
    rw [split, split, ofBytes_append ys (by omega), List.drop_append_of_le_length (by omega),
      ih (by rw [List.length_drop]; omega)]

end Block

end Blake2s
