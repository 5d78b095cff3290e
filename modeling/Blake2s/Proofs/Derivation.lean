import Blake2s.Derivation
import Blake2s.Proofs.Mac

set_option autoImplicit false

/-! # Derived keys are those of the standard

Expansion appends block after block until there is enough output; nothing in the loop counts the
blocks that are still missing. Its invariant (`Derivation.grow_logged`) says that after `k` rounds the
output is the first `k` blocks of the standard, the block before the next one is block `k`, and the
counter is `k + 1`. So the loop ends after `⌈length / 32⌉` rounds, which for the lengths allowed are at
most 255: the counter never gets too large for its byte. What comes out is HKDF as the standard has
it (`Derivation.derive_eq_standard`). -/

namespace Blake2s

namespace Standard

/-! ## Output blocks -/

/-- The first `n` output blocks. -/
def output (key info : Bytes) (n : Nat) : Bytes :=
  (List.range n).flatMap fun i => derivedBlock key info (i + 1)

/-- What the code of output block `i + 1` is taken of. -/
def outputMessage (key info : Bytes) (i : Nat) : Bytes :=
  derivedBlock key info i ++ info ++ [UInt8.ofNat (i + 1)]

theorem output_succ (key info : Bytes) (n : Nat) :
    output key info (n + 1) = output key info n ++ mac key (outputMessage key info n) := by
  simp [output, List.range_succ, outputMessage, derivedBlock]

theorem length_output (key info : Bytes) (n : Nat) : (output key info n).length = 32 * n := by
  induction n with
  | zero => rfl
  | succ n ih =>
    rw [output_succ, List.length_append, ih, length_mac]
    omega

/-- More blocks have fewer of them in front. -/
theorem output_prefix (key info : Bytes) {n k : Nat} (h : n ≤ k) :
    output key info n <+: output key info k := by
  obtain ⟨more, rfl⟩ := Nat.exists_eq_add_of_le h
  clear h
  induction more with
  | zero => exact List.prefix_refl _
  | succ more ih =>
    refine ih.trans ?_
    rw [← Nat.add_assoc, output_succ]
    exact List.prefix_append _ _

theorem derived_eq_take (key info : Bytes) (length : Nat) :
    derived key info length = (output key info ((length + 31) / 32)).take length := rfl

/-- Less key material is the start of more. -/
theorem take_derived (key info : Bytes) {shorter length : Nat} (h : shorter ≤ length) :
    (derived key info length).take shorter = derived key info shorter := by
  have fewer : (shorter + 31) / 32 ≤ (length + 31) / 32 := by omega
  obtain ⟨rest, split⟩ := output_prefix key info fewer
  rw [derived_eq_take, derived_eq_take, List.take_take, Nat.min_eq_left h, ← split,
    List.take_append_of_le_length]
  rw [length_output]
  omega

end Standard

namespace Derivation

open Standard (output outputMessage)

variable {σ : Type}

/-! ## The loop -/

/-- Keeps the messages that codes are asked for, in order. -/
def logged (code : Bytes → Action σ Bytes) (message : Bytes) : Action (σ × List Bytes) Bytes :=
  ExceptT.mk do
    let (m, messages) ← get
    let (outcome, m) := (code message).runOn m
    set (m, messages ++ [message])
    return outcome

theorem runOn_logged (code : Bytes → Action σ Bytes) (message : Bytes) (m : σ)
    (messages : List Bytes) :
    (logged code message).runOn (m, messages)
      = (((code message).runOn m).1, (((code message).runOn m).2, messages ++ [message])) := rfl

/-- Keeping the messages changes nothing else. -/
theorem alike_logged (code : Bytes → Action σ Bytes) (message : Bytes) :
    Action.Alike (fun m (n : σ × List Bytes) => n.1 = m) (code message) (logged code message) := by
  rintro m ⟨_, messages⟩ rfl
  rw [runOn_logged]
  exact ⟨rfl, rfl⟩

/-- **The loop** from its `k`-th round on, when `k` of `n` blocks are there. -/
theorem grow_logged {inv : σ → Prop} (code : Bytes → Action σ Bytes) {key : Bytes}
    (right : ∀ message m, inv m →
      ∃ m', Action.runOn (code message) m = (.ok (Standard.mac key message), m') ∧ inv m')
    (info : Bytes) {length n : Nat} (count : n = (length + 31) / 32) (few : n ≤ 255) {k : Nat}
    (hk : k ≤ n) {m : σ} (hm : inv m) :
    ∃ m', Action.runOn (grow (logged code) info length (output key info k)
          (Standard.derivedBlock key info k) (k + 1))
            (m, (List.range k).map (outputMessage key info))
        = (.ok (output key info n), (m', (List.range n).map (outputMessage key info))) ∧
      inv m' := by
  obtain ⟨missing, rfl⟩ := Nat.exists_eq_add_of_le hk
  induction missing generalizing k m with
  | zero =>
    have enough : length ≤ (output key info k).length := by
      rw [Standard.length_output]
      omega
    refine ⟨m, ?_, hm⟩
    rw [grow, if_pos enough]
    rfl
  | succ missing ih =>
    have short : ¬length ≤ (output key info k).length := by
      rw [Standard.length_output]
      omega
    have small : k + 1 < 256 := by omega
    obtain ⟨m₁, run, hm₁⟩ := right (outputMessage key info k) m hm
    have shift : k + (missing + 1) = k + 1 + missing := by omega
    rw [shift] at count few ⊢
    obtain ⟨m₂, rest, hm₂⟩ := ih hm₁ count few (Nat.le_add_right _ _)
    refine ⟨m₂, ?_, hm₂⟩
    have message : Standard.derivedBlock key info k ++ info ++ [UInt8.ofNat (k + 1)]
        = outputMessage key info k := rfl
    rw [grow, if_neg short, if_pos small, message, Action.runOn_bind, runOn_logged, run]
    rw [Standard.output_succ, List.range_succ, List.map_append] at rest
    exact rest

/-- The messages of the codes that an expansion asks for. -/
def messages (engine : Engine σ) (key info : Bytes) (length : Nat) (m : σ) : List Bytes :=
  (Action.runOn (grow (logged fun message => Mac.tag engine message key outBytes) info length
    [] [] 1) (m, [])).2.2

section Lawful

variable {inv : σ → Prop} {e : Engine σ} {m : σ} (lawful : e.Lawful inv) (hm : inv m)

include lawful

theorem blockTag_of_lawful (key message : Bytes) (m : σ) (hm : inv m) :
    ∃ m', Action.runOn (Mac.tag e message key outBytes) m = (.ok (Standard.mac key message), m') ∧
      inv m' := by
  obtain ⟨m', run, hm'⟩ := Mac.tag_of_lawful lawful hm message key outBytes
  refine ⟨m', ?_, hm'⟩
  rw [run, if_pos (by decide), List.take_of_length_le]
  exact Nat.le_of_eq (Standard.length_hash _)

include hm

theorem grow_of_lawful (key info : Bytes) (length : Nat) (few : (length + 31) / 32 ≤ 255) :
    (∃ m', Action.runOn (grow (fun message => Mac.tag e message key outBytes) info length [] [] 1) m
        = (.ok (output key info ((length + 31) / 32)), m') ∧ inv m') ∧
      messages e key info length m
        = (List.range ((length + 31) / 32)).map (outputMessage key info) := by
  obtain ⟨m', run, hm'⟩ := grow_logged (fun message => Mac.tag e message key outBytes)
    (blockTag_of_lawful lawful key) info rfl few (Nat.zero_le _) hm
  change Action.runOn (grow _ info length [] [] 1) (m, []) = _ at run
  constructor
  · obtain ⟨outcome, memory⟩ := alike_grow (alike_logged fun message => Mac.tag e message key outBytes)
      info length [] [] 1 m (m, []) rfl
    rw [run] at outcome memory
    exact ⟨m', Prod.ext outcome memory.symm, hm'⟩
  · rw [messages, run]

theorem derive_of_lawful (material : Bytes) (salt : Option Bytes) (info : Bytes) (length : Int) :
    (Action.runOn (derive e material salt info length) m).1
      = if 1 ≤ length ∧ length ≤ 8160 then
          .ok (Standard.derived (Standard.mac (salt.getD (Bytes.zeros 32)) material) info
            length.toNat)
        else .error .derivedLength := by
  obtain ⟨m₁, run₁, hm₁⟩ := blockTag_of_lawful lawful (salt.getD (Bytes.zeros 32)) material m hm
  have extracted : Action.runOn (extract e material salt) m
      = (.ok (Standard.mac (salt.getD (Bytes.zeros 32)) material), m₁) := run₁
  simp only [derive, Action.runOn_bind, extracted, expand]
  by_cases inRange : 1 ≤ length ∧ length ≤ 8160
  · have allowed : ¬(length < 1 ∨ maxOutput < length) := by simp [maxOutput, outBytes]; omega
    obtain ⟨⟨m₂, run₂, -⟩, -⟩ := grow_of_lawful lawful hm₁
      (Standard.mac (salt.getD (Bytes.zeros 32)) material) info length.toNat (by omega)
    rw [if_neg allowed, if_pos inRange]
    simp only [Action.runOn_bind, run₂, Action.runOn_pure, Standard.derived_eq_take]
  · have refused : length < 1 ∨ maxOutput < length := by simp [maxOutput, outBytes]; omega
    rw [if_pos refused, if_neg inRange]
    rfl

/-- The counter of the blocks is never too large for its byte. -/
theorem hashing_of_derive {material : Bytes} {salt : Option Bytes} {info : Bytes} {length : Int}
    {fault : Fault}
    (failed : (Action.runOn (derive e material salt info length) m).1 = .error fault) :
    Fault.Family.hashing.includes fault.kind = true := by
  rw [derive_of_lawful lawful hm] at failed
  split at failed
  · exact nomatch failed
  · obtain rfl : .derivedLength = fault := Except.error.inj failed
    exact (Fault.hashing_includes_kind_iff _).mpr nofun

end Lawful

/-! ## Derivation in a host -/

/-- **Derived key material is HKDF over BLAKE2s as RFC 5869 has it**, for input, salt and context
    information of any length. A length outside `1..8160` is refused as a wrong parameter, and no
    other is. The codes that expansion asks for are those of the standard's blocks, one for each of
    `⌈length / 32⌉` blocks, so the counters are in `1..255`. Less key material is always the start of
    more. -/
theorem derive_eq_standard {host : Host} (settled : host.Settled none) (material : Bytes)
    (salt : Option Bytes) (info : Bytes) (length : Int) :
    let key := Standard.mac (salt.getD (Bytes.zeros 32)) material
    let derived (n : Int) := (Action.runOn (derive (Host.engine none) material salt info n) host).1
    (derived length
      = if 1 ≤ length ∧ length ≤ 8160 then .ok (Standard.derived key info length.toNat)
        else .error .derivedLength) ∧
    Fault.derivedLength.kind = .parameter ∧
    (1 ≤ length ∧ length ≤ 8160 →
      messages (Host.engine none) key info length.toNat
          (Action.runOn (extract (Host.engine none) material salt) host).2
        = (List.range ((length.toNat + 31) / 32)).map
            (fun i => Standard.derivedBlock key info i ++ info ++ [UInt8.ofNat (i + 1)]) ∧
      (length.toNat + 31) / 32 ≤ 255) ∧
    ∀ shorter, 1 ≤ shorter → shorter ≤ length → length ≤ 8160 →
      derived shorter = (derived length).map (·.take shorter.toNat) := by
  intro key derived
  have lawful := Host.engine_settled none
  have all (n : Int) : derived n = _ := derive_of_lawful lawful settled material salt info n
  refine ⟨all length, rfl, ?_, ?_⟩
  · intro inRange
    have few : (length.toNat + 31) / 32 ≤ 255 := by omega
    obtain ⟨host', run, settled'⟩ :=
      blockTag_of_lawful lawful (salt.getD (Bytes.zeros 32)) material host settled
    have extracted : Action.runOn (extract (Host.engine none) material salt) host
        = (.ok key, host') := run
    rw [extracted]
    exact ⟨(grow_of_lawful lawful settled' key info length.toNat few).2, few⟩
  · intro shorter pos le inRange
    have less : shorter.toNat ≤ length.toNat := by omega
    rw [all shorter, all length, if_pos (by omega), if_pos (by omega), Except.map,
      Standard.take_derived _ _ less]

/-- Two blocks and a byte without a salt, the codes asked for on the way, and the first byte. -/
theorem derive_eq_standard_three_blocks :
    let key := Standard.mac (Bytes.zeros 32) [1, 2, 3]
    let derived (n : Int) :=
      (Action.runOn (derive (Host.engine none) [1, 2, 3] none [4] n) ({} : Host)).1
    ({} : Host).Settled none ∧
      derived 65 = .ok (Standard.derived key [4] 65) ∧
      messages (Host.engine none) key [4] 65
          (Action.runOn (extract (Host.engine none) [1, 2, 3] none) ({} : Host)).2
        = [[4, 1], Standard.derivedBlock key [4] 1 ++ [4, 2],
            Standard.derivedBlock key [4] 2 ++ [4, 3]] ∧
      derived 1 = (derived 65).map (·.take 1) := by
  intro key derived
  obtain ⟨output, -, codes, start⟩ :=
    derive_eq_standard Host.settled_fresh [1, 2, 3] none [4] 65
  refine ⟨Host.settled_fresh, output, ?_, start 1 (by decide) (by decide) (by decide)⟩
  refine (codes (by decide)).1.trans ?_
  simp [List.range_succ, Standard.derivedBlock, key]

end Derivation

end Blake2s
