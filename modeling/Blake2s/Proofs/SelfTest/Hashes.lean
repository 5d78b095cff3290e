import Blake2s.Proofs.Engine.Total
import Blake2s.Proofs.Mac

set_option autoImplicit false

/-! # What the self-test computes

Through the generic compression the self-test computes hashes of the standard
(`SelfTest.compute_generic`). The grand hash is one of them, too: that of the digests of all generated
cases, one after the other. -/

namespace Blake2s

/-! ## Hashes of the standard -/

/-- The parameter block of hashing to `outlen` bytes under a key of `keylen` bytes. -/
def Standard.parameters (outlen keylen : Nat) : Bytes :=
  [UInt8.ofNat outlen, UInt8.ofNat keylen, 1, 1] ++ Bytes.zeros 28

theorem Parameters.toBytes_of_lengths {outlen keylen : Nat} {p : Parameters}
    (made : ofFields { digestLength := outlen, keyLength := keylen } = .ok p) :
    p.toBytes = Standard.parameters outlen keylen := by
  unfold ofFields at made
  split at made
  · exact nomatch made
  · cases made
    simp only [toBytes, Int.toNat_natCast]
    rfl

namespace SelfTest

/-- A hash of the self-test, by the standard. -/
def standardHash (outlen : Nat) (data key : Bytes) : Bytes :=
  Standard.digest (Standard.parameters outlen key.length) (Standard.keyed key data) false outlen

theorem length_standardHash {outlen : Nat} (h : outlen ≤ 32) (data key : Bytes) :
    (standardHash outlen data key).length = outlen := by
  rw [standardHash, Standard.digest, List.length_take, Standard.length_flatMap_wordBytes,
    Vector.length_toList]
  omega

/-- What the grand hash absorbs for one generated case. -/
def caseDigests (outlen inlen : Nat) : Bytes :=
  standardHash outlen (sequence inlen inlen) [] ++
    standardHash outlen (sequence inlen inlen) (sequence outlen outlen)

/-- The generated cases: lengths of a digest and of an input. -/
def cases : List (Nat × Nat) :=
  digestLengths.flatMap fun outlen => inputLengths.map fun inlen => (outlen, inlen)

/-- The cases are taken one after the other. -/
theorem forM_cases {m : Type → Type} [Monad m] [LawfulMonad m] (f : Nat → Nat → m Unit) :
    (digestLengths.forM fun outlen => inputLengths.forM fun inlen => f outlen inlen)
      = cases.forM fun c => f c.1 c.2 := by
  have nested (l : List Nat) : (l.forM fun outlen => inputLengths.forM fun inlen => f outlen inlen)
      = (l.flatMap fun outlen => inputLengths.map fun inlen => (outlen, inlen)).forM
          fun c => f c.1 c.2 := by
    induction l with
    | nil => rfl
    | cons outlen l ih =>
      simp only [List.forM_eq_forM] at ih ⊢
      rw [List.forM_cons, List.flatMap_cons, List.forM_append, List.forM_map, ih]
  exact nested digestLengths

theorem bounds_of_mem_cases : ∀ c ∈ cases, (1 ≤ c.1 ∧ c.1 ≤ 32) ∧ c.2 ≤ 1024 := by decide

def allDigests : Bytes := cases.flatMap fun c => caseDigests c.1 c.2

/-- The hashes that the self-test checks, by the standard. -/
def standardAnswer : KnownAnswer → Bytes
  | .empty => standardHash 32 [] []
  | .abc => standardHash 32 [0x61, 0x62, 0x63] []
  | .grand => standardHash 32 allDigests []

/-! ## What is computed -/

/-- The generic compression, which needs no memory. -/
abbrev generic : Engine Unit := Engine.generic

/-- There is but one memory. -/
theorem runOn_unit {α : Type} {x : Action Unit α} {outcome : Except Fault α}
    (h : (x.runOn ()).1 = outcome) : x.runOn () = (outcome, ()) := Prod.ext h rfl

/-- On every live state, an operation absorbs these bytes. -/
def Absorbs (x : HashM Unit Unit) (data : Bytes) : Prop :=
  ∀ s c, s.Holds c → c.outlen ≠ 0 →
    ∃ s', x.runOn s () = ((.ok (), s'), ()) ∧ s'.Holds (c.absorb data)

namespace Absorbs

theorem update (data : Bytes) : Absorbs (State.update generic data) data := by
  intro s c holds live
  obtain ⟨s', _, run, -, holds'⟩ :=
    State.update_of_lawful (m := ()) Engine.generic_lawful trivial holds live data
  exact ⟨s', run, holds'⟩

theorem bind {x y : HashM Unit Unit} {data more : Bytes} (hx : Absorbs x data)
    (hy : Absorbs y more) : Absorbs (x >>= fun _ => y) (data ++ more) := by
  intro s c holds live
  obtain ⟨s₁, run₁, holds₁⟩ := hx s c holds live
  obtain ⟨s₂, run₂, holds₂⟩ := hy s₁ _ holds₁ live
  refine ⟨s₂, ?_, ?_⟩
  · rw [HashM.runOn_bind, run₁]
    exact run₂
  · rwa [Content.absorb_append]

/-- What is computed apart from the state may be absorbed. -/
theorem ofEngine {action : Action Unit Bytes} {found : Bytes}
    (h : Action.runOn action () = (.ok found, ())) {f : Bytes → HashM Unit Unit} {data : Bytes}
    (hf : Absorbs (f found) data) : Absorbs (HashM.ofEngine action >>= f) data := by
  intro s c holds live
  obtain ⟨s', run, holds'⟩ := hf s c holds live
  refine ⟨s', ?_, holds'⟩
  rw [HashM.runOn_bind, HashM.runOn_ofEngine, h]
  exact run

theorem forM {β : Type} {f : β → HashM Unit Unit} {data : β → Bytes} {l : List β}
    (h : ∀ b ∈ l, Absorbs (f b) (data b)) : Absorbs (l.forM f) (l.flatMap data) := by
  induction l with
  | nil =>
    intro s c holds live
    refine ⟨s, rfl, ?_⟩
    rw [List.flatMap_nil, Content.absorb_nil]
    · exact holds
    · rw [holds.length_input]
      exact holds.fits
  | cons b l ih =>
    rw [List.flatMap_cons]
    exact bind (h b List.mem_cons_self) (ih fun b' hb' => h b' (List.mem_cons_of_mem b hb'))

/-- A hash of the standard comes of all that was absorbed after the key. -/
theorem hash {x : HashM Unit Unit} {data key : Bytes} (hx : Absorbs x data) {p : Parameters}
    {outlen : Nat} (digestLength : p.digestLength.toNat = outlen)
    (keyLength : p.keyLength.toNat = key.length)
    (bytes : p.toBytes = Standard.parameters outlen key.length) :
    (HashM.runOn
      (do
        State.start generic p key false
        x
        State.final generic none) {} ()).1.1 = .ok (standardHash outlen data key) := by
  have live := State.outlen_ofParameters_ne p false
  obtain ⟨s₁, run₁, holds₁⟩ := State.start_holds {} keyLength.symm false (e := generic) (m := ())
  obtain ⟨s₂, run₂, holds₂⟩ := hx s₁ _ holds₁ live
  rw [← Content.absorb_append, ← Standard.keyed_eq_append] at holds₂
  obtain ⟨_, run₃, -⟩ :=
    State.finalWithin_of_lawful (m := ()) Engine.generic_lawful trivial holds₂ none none
  have granted : outputLength ((none : Option Int).getD (p.digestLength.toNat : Nat))
      = .ok p.digestLength.toNat :=
    outputLength_eq_ok ⟨Int.ofNat_le.mpr p.digestLength_pos, Int.ofNat_le.mpr p.digestLength_le⟩
  have digest := Content.finished_of_ok
    (c := (State.ofParameters p false).content.absorb (Standard.keyed key data))
    live none none granted nofun
  rw [State.take_bytes_lastChain, bytes, digestLength] at digest
  rw [digest] at run₃
  simp only [HashM.runOn_bind, run₁, run₂, State.final, run₃]
  rfl

end Absorbs

theorem hash_generic {outlen : Nat} (h : 1 ≤ outlen ∧ outlen ≤ outBytes) (data : Bytes)
    {key : Bytes} (hkey : key.length ≤ keyBytes) :
    Action.runOn (hash generic outlen data key) () = (.ok (standardHash outlen data key), ()) := by
  have valid : 1 ≤ (outlen : Int) ∧ (outlen : Int) ≤ outBytes := by omega
  have short : 0 ≤ (key.length : Int) ∧ (key.length : Int) ≤ keyBytes := by omega
  obtain ⟨p, made, digestLength, keyLength⟩ := Parameters.exists_of_lengths valid short
  rw [Int.toNat_natCast] at digestLength keyLength
  have computed :=
    (Absorbs.update data).hash digestLength keyLength (Parameters.toBytes_of_lengths made)
  refine runOn_unit ?_
  rw [hash, HashM.runOn_evalFrom]
  dsimp only
  by_cases unkeyed : key = []
  · subst unkeyed
    rw [if_pos List.isEmpty_nil, State.init_eq_start valid made]
    exact computed
  · have some : ¬(key.length < 1 ∨ keyBytes < key.length) := by
      rw [← List.length_eq_zero_iff] at unkeyed
      omega
    rw [if_neg (by rwa [List.isEmpty_iff]), State.initKeyed_eq_start valid some made]
    exact computed

theorem absorbs_absorbCase {outlen : Nat} (h : 1 ≤ outlen ∧ outlen ≤ outBytes) (inlen : Nat) :
    Absorbs (absorbCase generic outlen inlen) (caseDigests outlen inlen) := by
  have short : (sequence outlen outlen).length ≤ keyBytes := by
    rw [length_sequence]
    exact h.2
  have unkeyed : ([] : Bytes).length ≤ keyBytes := Nat.zero_le keyBytes
  refine .ofEngine (hash_generic h _ unkeyed) ?_
  exact .bind (.update _) (.ofEngine (hash_generic h _ short) (.update _))

theorem absorbs_allDigests :
    Absorbs (cases.forM fun c => absorbCase generic c.1 c.2) allDigests :=
  .forM fun c h => absorbs_absorbCase (bounds_of_mem_cases c h).1 c.2

theorem grandHash_generic :
    Action.runOn (grandHash generic) () = (.ok (standardHash 32 allDigests []), ()) := by
  have valid : 1 ≤ (outBytes : Int) ∧ (outBytes : Int) ≤ outBytes := by decide
  have short : 0 ≤ ((0 : Nat) : Int) ∧ ((0 : Nat) : Int) ≤ keyBytes := by decide
  obtain ⟨p, made, digestLength, keyLength⟩ := Parameters.exists_of_lengths valid short
  have bytes := Parameters.toBytes_of_lengths made
  refine runOn_unit ?_
  rw [grandHash, forM_cases, HashM.runOn_evalFrom, State.init_eq_start valid made]
  exact absorbs_allDigests.hash digestLength (keyLength : _ = ([] : Bytes).length) bytes

theorem compute_generic (answer : KnownAnswer) :
    Action.runOn (compute generic answer) () = (.ok (standardAnswer answer), ()) := by
  have whole : 1 ≤ outBytes ∧ outBytes ≤ outBytes := by decide
  have unkeyed : ([] : Bytes).length ≤ keyBytes := Nat.zero_le keyBytes
  cases answer with
  | empty => exact hash_generic whole _ unkeyed
  | abc => exact hash_generic whole _ unkeyed
  | grand => exact grandHash_generic

end SelfTest

end Blake2s
