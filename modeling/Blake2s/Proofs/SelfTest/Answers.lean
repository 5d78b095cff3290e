import Blake2s.Proofs.SelfTest.Hashes
import Blake2s.Proofs.Standard.Evaluation

set_option autoImplicit false

/-! # The known answers are right

The hashes that the self-test computes through the generic compression are the known answers that it
compares them with (`SelfTest.standardAnswer_eq`). That is found by evaluation, over all generated
cases; inputs and digests are numbers here, as in `Blake2s.Evaluation`. So every lawful engine passes
the self-test (`SelfTest.run_of_lawful`). -/

namespace Blake2s.SelfTest

namespace Evaluation

open Blake2s.Evaluation (force low force_eq low_eq_mod)
open Standard (littleEndian keyed)

variable {α : Type}

/-! ## Generated inputs -/

/-- Goes on with the number that terms of the sequence spell. -/
def fibonacci : (n : Nat) → (a b : Nat) → (Nat → α) → α
  | 0, _, _, k => k 0
  | n + 1, a, b, k =>
    force (low (Nat.add a b)) fun c =>
    fibonacci n b c fun rest => force (Nat.add (Nat.shiftRight c 24) (Nat.mul 256 rest)) k

theorem fibonacci_eq (n : Nat) (a b : UInt32) (k : Nat → α) :
    fibonacci n a.toNat b.toNat k = k (littleEndian (SelfTest.fibonacci n a b)) := by
  induction n generalizing a b k with
  | zero => rfl
  | succ n ih =>
    have sum : low (Nat.add a.toNat b.toNat) = (a + b).toNat :=
      (low_eq_mod _).trans (UInt32.toNat_add a b).symm
    have top : ((a + b) >>> 24).toUInt8.toNat = Nat.shiftRight (a + b).toNat 24 :=
      (Word.toNat_toUInt8_shiftRight (a + b)).trans (Nat.shiftRight_eq_div_pow _ 24).symm
    simp only [fibonacci, force_eq, sum, ih, SelfTest.fibonacci, Standard.littleEndian_cons, top]
    rfl

/-- Goes on with a generated input. -/
def sequence (length : Nat) (k : Nat → α) : α :=
  fibonacci length (low (Nat.mul 0xDEAD4BAD length)) 1 k

theorem sequence_eq (length : Nat) (k : Nat → α) :
    sequence length k = k (littleEndian (SelfTest.sequence length length)) := by
  have seed : low (Nat.mul 0xDEAD4BAD length)
      = (UInt32.ofInt (0xDEAD4BAD * (length : Int))).toNat := by
    have product : Nat.mul 0xDEAD4BAD length = 0xDEAD4BAD * length := rfl
    have word := Word.toNat_ofInt (0xDEAD4BAD * (length : Int))
    rw [low_eq_mod, product]
    omega
  rw [sequence, seed, SelfTest.sequence]
  exact fibonacci_eq length _ 1 k

/-! ## Hashes -/

/-- Goes on with a hash of so many bytes of data, under a key of the given length. -/
def hash (outlen keylen data length : Nat) (k : Nat → α) : α :=
  Blake2s.Evaluation.digest (Nat.add 0x01010000 (Nat.add outlen (Nat.mul 256 keylen)))
    data length outlen k

theorem littleEndian_parameters {outlen keylen : Nat} (hout : outlen ≤ 32) (hkey : keylen ≤ 32) :
    littleEndian (Standard.parameters outlen keylen)
      = Nat.add 0x01010000 (Nat.add outlen (Nat.mul 256 keylen)) := by
  have byte (n : Nat) (h : n ≤ 32) : (UInt8.ofNat n).toNat = n := by
    rw [UInt8.toNat_ofNat']
    omega
  rw [Standard.parameters, Standard.littleEndian_append, Standard.littleEndian_zeros]
  simp only [Standard.littleEndian_cons, byte _ hout, byte _ hkey, Standard.littleEndian_nil]
  change outlen + 256 * (keylen + 256 * (1 + 256 * (1 + 256 * 0))) + _ * 0
    = 0x01010000 + (outlen + 256 * keylen)
  omega

variable {outlen : Nat} (hout : outlen ≤ 32) (data key : Bytes)

include hout

theorem hash_eq (hkey : key.length ≤ 32) (small : (keyed key data).length < 2 ^ 32) (k : Nat → α) :
    hash outlen key.length (littleEndian (keyed key data)) (keyed key data).length k
      = k (littleEndian (standardHash outlen data key)) := by
  rw [hash, ← littleEndian_parameters hout hkey, Blake2s.Evaluation.digest_eq _ small, standardHash]

theorem hash_unkeyed (small : data.length < 2 ^ 32) (k : Nat → α) :
    hash outlen 0 (littleEndian data) data.length k
      = k (littleEndian (standardHash outlen data [])) :=
  hash_eq hout data [] (Nat.zero_le 32) small k

theorem hash_keyed (hkey : 1 ≤ key.length ∧ key.length ≤ 32) (small : data.length ≤ 1024)
    (k : Nat → α) :
    hash outlen key.length
        (Nat.add (littleEndian key) (Nat.mul (Nat.pow 256 64) (littleEndian data)))
        (Nat.add 64 data.length) k
      = k (littleEndian (standardHash outlen data key)) := by
  have key_ne : key ≠ [] := List.length_pos_iff.mp hkey.1
  have padded : keyed key data = key.padTo 64 ++ data := by
    rw [keyed, if_neg key_ne]
  have block : (key.padTo 64).length = 64 := by
    rw [Bytes.length_padTo]
    omega
  have length : (keyed key data).length = 64 + data.length := by
    rw [padded, List.length_append, block]
  have number : littleEndian (keyed key data)
      = littleEndian key + 256 ^ 64 * littleEndian data := by
    rw [padded, Standard.littleEndian_append, Standard.littleEndian_padTo, block]
  have whole := hash_eq hout data key hkey.2 (by omega) k
  rw [length, number] at whole
  exact whole

omit hout

/-! ## The generated cases -/

/-- Goes on with what is absorbed for one generated case. -/
def caseDigests (outlen inlen : Nat) (k : Nat → α) : α :=
  sequence inlen fun data =>
  hash outlen 0 data inlen fun unkeyed =>
  sequence outlen fun key =>
  hash outlen outlen (Nat.add key (Nat.mul (Nat.pow 256 64) data)) (Nat.add 64 inlen) fun keyed =>
  force (Nat.add unkeyed (Nat.mul (Nat.pow 256 outlen) keyed)) k

theorem caseDigests_eq {outlen inlen : Nat} (hout : 1 ≤ outlen ∧ outlen ≤ 32)
    (hin : inlen ≤ 1024) (k : Nat → α) :
    caseDigests outlen inlen k = k (littleEndian (SelfTest.caseDigests outlen inlen)) := by
  have length_data := length_sequence inlen inlen
  have length_key := length_sequence outlen outlen
  have unkeyed (k : Nat → α) :=
    hash_unkeyed hout.2 (SelfTest.sequence inlen inlen) (by omega) k
  have keyed (k : Nat → α) :=
    hash_keyed hout.2 (SelfTest.sequence inlen inlen) (SelfTest.sequence outlen outlen) (by omega)
      (by omega) k
  rw [length_data] at unkeyed keyed
  rw [length_key] at keyed
  rw [caseDigests, SelfTest.caseDigests, Standard.littleEndian_append,
    length_standardHash hout.2]
  simp only [sequence_eq, unkeyed, keyed, force_eq]
  rfl

/-- Goes on with what is absorbed for these cases. -/
def digests : List (Nat × Nat) → (Nat → α) → α
  | [], k => k 0
  | (outlen, inlen) :: rest, k =>
    caseDigests outlen inlen fun first =>
    digests rest fun later =>
    force (Nat.add first (Nat.mul (Nat.pow 256 (Nat.add outlen outlen)) later)) k

theorem length_caseDigests {outlen : Nat} (hout : outlen ≤ 32) (inlen : Nat) :
    (SelfTest.caseDigests outlen inlen).length = outlen + outlen := by
  rw [SelfTest.caseDigests, List.length_append, length_standardHash hout, length_standardHash hout]

theorem digests_eq {cases : List (Nat × Nat)}
    (h : ∀ c ∈ cases, (1 ≤ c.1 ∧ c.1 ≤ 32) ∧ c.2 ≤ 1024) (k : Nat → α) :
    digests cases k = k (littleEndian (cases.flatMap fun c => SelfTest.caseDigests c.1 c.2)) := by
  induction cases generalizing k with
  | nil => rfl
  | cons c cases ih =>
    obtain ⟨⟨hout, hin⟩, rest⟩ := List.forall_mem_cons.mp h
    rw [List.flatMap_cons, Standard.littleEndian_append, length_caseDigests hout.2]
    simp only [digests, caseDigests_eq hout hin, ih rest, force_eq]
    rfl

end Evaluation

/-! ## The known answers -/

theorem length_allDigests : allDigests.length = 1152 := by
  have lengths : cases.map (fun c => (caseDigests c.1 c.2).length)
      = cases.map fun c => c.1 + c.1 :=
    List.map_congr_left fun c h =>
      Evaluation.length_caseDigests (bounds_of_mem_cases c h).1.2 c.2
  rw [allDigests, List.length_flatMap, lengths]
  decide

namespace Evaluation

open Standard (littleEndian)

/-- The number that a hash of the self-test spells. -/
def answer : KnownAnswer → Nat
  | .empty => hash 32 0 0 0 id
  | .abc => hash 32 0 0x636261 3 id
  | .grand => digests cases fun data => hash 32 0 data 1152 id

theorem answer_eq (known : KnownAnswer) : answer known = littleEndian (standardAnswer known) := by
  cases known with
  | empty => exact hash_unkeyed (Nat.le_refl 32) [] (by decide) id
  | abc => exact hash_unkeyed (Nat.le_refl 32) [0x61, 0x62, 0x63] (by decide) id
  | grand =>
    have small : allDigests.length < 2 ^ 32 := by
      rw [length_allDigests]
      decide
    have whole := hash_unkeyed (Nat.le_refl 32) allDigests small id
    rw [length_allDigests] at whole
    rw [answer, digests_eq bounds_of_mem_cases, standardAnswer, ← allDigests, whole, id]

/-- Here the digests of all generated cases are computed. -/
theorem answer_eq_digest (known : KnownAnswer) : answer known = littleEndian known.digest := by
  cases known <;> decide +kernel

end Evaluation

/-- **The known answers are the hashes of the standard.** -/
theorem standardAnswer_eq (known : KnownAnswer) : standardAnswer known = known.digest := by
  refine Standard.littleEndian_inj ?_
    ((Evaluation.answer_eq known).symm.trans (Evaluation.answer_eq_digest known))
  cases known <;> exact length_standardHash (Nat.le_refl 32) _ _

/-! ## Passing -/

theorem firstMismatch_generic (answers : List KnownAnswer) :
    Action.runOn (firstMismatch generic answers) () = (.ok none, ()) := by
  induction answers with
  | nil => rfl
  | cons known answers ih =>
    rw [firstMismatch, Action.runOn_bind, compute_generic]
    dsimp only
    rw [if_pos (standardAnswer_eq known), ih]

/-- **Every lawful engine passes the self-test.** -/
theorem run_of_lawful {σ : Type} {inv : σ → Prop} {e : Engine σ} (lawful : e.Lawful inv) {m : σ}
    (hm : inv m) : (Action.runOn (run e) m).1 = .ok none := by
  have alike := alike_run (lawful.alike (Engine.generic_lawful (σ := Unit)))
  rw [(alike m () ⟨hm, trivial⟩).1, run, firstMismatch_generic]

end Blake2s.SelfTest
